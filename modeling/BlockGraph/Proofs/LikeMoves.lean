import BlockGraph.Proofs.Likeness
/-!
Logic and traversals in sessions that are related by a likeness: they come to the same in both, as long as one of
them has not used up its steps before the other.
-/
namespace BlockGraph
namespace Likeness

variable {R : Session → Session → Prop} (l : Likeness R) {s t : Session}

/-! ### Block logic -/

section Logic

variable {c : Context}
include l

theorem stepSlots (h : R s t) (r : Except Fault Slots) :
    Likens R (Step.withSlots c s r) (Step.withSlots c t r) := by
  cases r with
  | error f => exact ⟨rfl, h⟩
  | ok slots => exact ⟨rfl, l.withSlots h c.run slots⟩

theorem sayThen (h : R s t) (line : Except Fault String) {next : Session → Taken × Session}
    (then_ : ∀ {s t : Session}, R s t → Likens R (next s) (next t)) :
    Likens R (Step.sayThen c s line next) (Step.sayThen c t line next) := by
  cases line with
  | error f => exact ⟨rfl, h⟩
  | ok line => exact then_ (l.said _ (by simp [isDiagnosis, List.isPrefixOf]) h)

theorem turnsOver (h : R s t) (done : Nat) : Likens R (Step.turnsOver c s done) (Step.turnsOver c t done) :=
  l.sayThen h _ fun h => ⟨rfl, h⟩

theorem turned (h : R s t) (done : Nat) (limit : Number) (condition : Value) :
    Likens R (Step.turned c s done limit condition) (Step.turned c t done limit condition) := by
  unfold Step.turned
  split
  · exact l.sayThen h _ fun h => l.turnsOver h done
  · split
    · exact l.sayThen h _ fun h => ⟨rfl, h⟩
    · exact l.turnsOver h done

theorem counted (h : R s t) (next : Nat) (limit : Number) :
    Likens R (Step.counted c s next limit) (Step.counted c t next limit) := by
  unfold Step.counted
  split
  · exact l.sayThen h _ fun h => ⟨rfl, h⟩
  · exact ⟨rfl, h⟩

theorem logged (h : R s t) (message : Value) :
    Likens R (Step.take c s (.log message)) (Step.take c t (.log message)) := by
  rw [Step.take, Step.take]
  unfold Context.line
  cases message.plainText with
  | error f => exact ⟨rfl, h⟩
  | ok text => exact ⟨rfl, l.said ("[" ++ c.elementId ++ "] " ++ text) (by simp [isDiagnosis, List.isPrefixOf]) h⟩

theorem take (h : R s t) (step : Step) : Likens R (step.take c s) (step.take c t) := by
  have own := l.slotsOf h c.run
  have seen : ∀ step : Step, (∀ s t, step.take c (s.toldAs t) = ((step.take c s).1, s.toldAs t)) →
      (∀ s, (step.take c s).2 = s) → Likens R (step.take c s) (step.take c t) := by
    intro step blind still
    rw [l.toldAs h, blind]
    refine ⟨rfl, ?_⟩
    rw [still, ← l.toldAs h]
    exact h
  cases step with
  | store key value =>
      rw [Step.take, Step.take, own]
      exact l.stepSlots h _
  | storeInput key name =>
      rw [Step.take, Step.take, own]
      exact l.stepSlots h _
  | storeGlobal name value =>
      rw [Step.take, Step.take, own]
      exact ⟨rfl, l.withSlots h c.run _⟩
  | log message => exact l.logged h message
  | stop => exact ⟨rfl, l.stop h⟩
  | announce message => exact ⟨rfl, l.report h _ _ _⟩
  | count next limit => exact l.counted h next limit
  | turns done limit condition => exact l.turned h done limit condition
  | unregister type =>
      cases type with
      | text type => exact ⟨rfl, l.unregistered type h⟩
      | _ => exact ⟨rfl, h⟩
  | useDraw => exact ⟨rfl, l.update h (fun s => { s with draws := s.draws.next }) fun _ _ => rfl⟩
  | _ => exact seen _ (fun _ _ => rfl) fun _ => rfl

theorem advance (h : R s t) (steps : List Step) :
    Halts R (Cursor.advance c steps s) (Cursor.advance c steps t) := by
  induction steps generalizing s t with
  | nil => exact ⟨rfl, rfl, h⟩
  | cons step rest ih =>
      have likens := l.take h (c := c) step
      rw [Cursor.advance, Cursor.advance]
      generalize step.take c s = r at likens ⊢
      obtain ⟨taken, s₁⟩ := r
      obtain ⟨t₁, same, after⟩ := likens.split
      rw [same]
      cases taken with
      | done => exact ih after
      | _ => exact ⟨rfl, rfl, after⟩

theorem closeCursor (h : R s t) (steps : List Step) (pending : Ending) :
    Halts R (Cursor.close c steps pending s) (Cursor.close c steps pending t) := by
  have halts := l.advance h (c := c) steps
  unfold Cursor.close
  generalize Cursor.advance c steps s = r at halts ⊢
  obtain ⟨p, left, s₁⟩ := r
  obtain ⟨t₁, same, after⟩ := halts.split
  rw [same]
  cases p with
  | ended e => cases e <;> exact ⟨rfl, rfl, after⟩
  | _ => exact ⟨rfl, rfl, after⟩

theorem resumeCursor (h : R s t) (cursor : Cursor) : Halts R (cursor.resume c s) (cursor.resume c t) := by
  obtain ⟨steps, closing, pending?⟩ := cursor
  cases pending? with
  | some pending => exact l.closeCursor h steps pending
  | none =>
      have halts := l.advance h (c := c) steps
      unfold Cursor.resume
      simp only
      generalize Cursor.advance c steps s = r at halts ⊢
      obtain ⟨p, left, s₁⟩ := r
      obtain ⟨t₁, same, after⟩ := halts.split
      rw [same]
      cases p with
      | ended e => exact l.closeCursor after closing e
      | _ => exact ⟨rfl, rfl, after⟩

theorem breakOff (h : R s t) (cursor : Cursor) (e : Ending) :
    Halts R (cursor.breakOff c e s) (cursor.breakOff c e t) := by
  obtain ⟨steps, closing, pending?⟩ := cursor
  cases pending? with
  | some pending => exact ⟨rfl, rfl, h⟩
  | none => exact l.closeCursor h closing e

end Logic

/-! ### Processes -/

theorem putBack (p : Process) {r r' : Pause × Progress × Session} (h : Halts R r r') :
    Halts R (p.put r) (p.put r') :=
  ⟨h.pause, congrArg (fun progress => { p with progress }) h.rest, h.session⟩

section Processes

include l

theorem resume (h : R s t) (p : Process) : Halts R (p.resume s) (p.resume t) := by
  obtain ⟨c, progress⟩ := p
  cases progress with
  | fresh logic =>
      have same : Process.start c logic t = Process.start c logic s :=
        l.reads h (Process.start c logic) fun _ _ => rfl
      unfold Process.resume
      simp only
      rw [same]
      exact putBack _ (l.resumeCursor h _)
  | resting cursor => exact putBack _ (l.resumeCursor h cursor)
  | «over» => exact ⟨rfl, rfl, h⟩

theorem close (h : R s t) (p : Process) : Halts R (p.close s) (p.close t) := by
  obtain ⟨c, progress⟩ := p
  cases progress with
  | resting cursor => exact putBack _ (l.breakOff h cursor .closed)
  | _ => exact ⟨rfl, rfl, h⟩

theorem interrupt (h : R s t) (p : Process) : Halts R (p.interrupt s) (p.interrupt t) := by
  obtain ⟨c, progress⟩ := p
  cases progress with
  | resting cursor => exact putBack _ (l.breakOff h cursor .interrupted)
  | _ => exact ⟨rfl, rfl, h⟩

end Processes

/-! ### Traversals -/

section Traversals

include l

theorem start (h : R s t) (e : Element) (logic : Logic) :
    Likens R (Traversal.start s e logic) (Traversal.start t e logic) := by
  have turned := l.update h (fun s => { s with processed := s.processed ++ [e.id] }) fun _ _ => rfl
  have line : isDiagnosis ("Executing element " ++ e.id ++ " (" ++ e.type ++ ")") = false := by
    simp [isDiagnosis, List.isPrefixOf]
  have told := l.notified (.start e.id) (l.note (l.said _ line turned) (.started e.id))
  have likens := l.contextOf told e
  unfold Traversal.start
  simp only
  generalize Session.contextOf _ e = r at likens ⊢
  obtain ⟨c, s₁⟩ := r
  obtain ⟨t₁, same, after⟩ := likens.split
  rw [same]
  cases c <;> exact ⟨rfl, after⟩

theorem attempts (h : R s t) : R s.counted t.counted := l.update h Session.counted fun _ _ => rfl

/-- As long as there is room, and the same is registered, visits begin alike. -/
theorem begin (h : R s t) (room : s.Room t) (registry : t.registry = s.registry) (id : String) :
    Likens R (Traversal.begin s id) (Traversal.begin t id) := by
  have attempts := l.attempts h
  have more := l.more h
  have active := l.active h
  have steps : t.steps = s.steps := l.reads h Session.steps fun _ _ => rfl
  have processed : t.processed = s.processed := l.reads h Session.processed fun _ _ => rfl
  have graph : t.graph = s.graph := l.reads h Session.graph fun _ _ => rfl
  cases on : s.active with
  | false =>
      rw [Traversal.begin_inactive on, Traversal.begin_inactive (active.trans on)]
      exact ⟨rfl, attempts⟩
  | true =>
      have on' := active.trans on
      by_cases beyond : s.options.maxSteps < ((s.steps + 1 : Nat) : Int)
      · have same : t.options.maxSteps = s.options.maxSteps := (room on).resolve_right (Int.not_le.mpr beyond)
        have beyond' : t.options.maxSteps < ((t.steps + 1 : Nat) : Int) := by rwa [same, steps]
        rw [Traversal.begin_overBudget on beyond, Traversal.begin_overBudget on' beyond', same, steps]
        exact ⟨rfl, attempts⟩
      have within := Int.not_lt.mp beyond
      have within' : ((t.steps + 1 : Nat) : Int) ≤ t.options.maxSteps := by
        rw [steps]
        exact Int.le_trans within more
      by_cases seen : id ∈ s.processed
      · rw [Traversal.begin_seen on within seen, Traversal.begin_seen on' within' (processed ▸ seen)]
        exact ⟨rfl, attempts⟩
      rw [Traversal.begin_fresh on within seen, Traversal.begin_fresh on' within' (processed ▸ seen), graph, registry]
      cases s.graph.element? id with
      | none => exact ⟨rfl, attempts⟩
      | some e =>
          simp only
          cases s.registry.find? e.type with
          | none => exact ⟨rfl, attempts⟩
          | some d => exact l.start attempts e d.logic

theorem visit (h : R s t) (room : s.Room t) (registry : t.registry = s.registry) (walk : Traversal) (id : String) :
    Likens R (walk.visit s id) (walk.visit t id) := by
  have likens := l.begin h room registry id
  unfold Traversal.visit
  generalize Traversal.begin s id = r at likens ⊢
  obtain ⟨x, s₁⟩ := r
  obtain ⟨t₁, same, after⟩ := likens.split
  rw [same]
  cases x with
  | error f => exact ⟨rfl, after⟩
  | ok frame => cases frame <;> exact ⟨rfl, after⟩

theorem complete (h : R s t) (walk : Traversal) (id : String) :
    Likens R (walk.complete s id) (walk.complete t id) := by
  unfold Traversal.complete
  rw [l.active h, l.delays h]
  split
  · exact ⟨rfl, l.completed h id⟩
  · exact ⟨rfl, h⟩

omit l in
/-- An element fails with the same in both sessions. -/
theorem fails {r r' : RunFault × Session} (h : Likens R r r') (walk : Traversal) :
    Likens R (Move.fail r.1 walk, r.2) (Move.fail r'.1 walk, r'.2) :=
  ⟨congrArg (Move.fail · walk) h.result, h.session⟩

theorem accept (h : R s t) (walk : Traversal) (item : Value) :
    Likens R (walk.accept s item) (walk.accept t item) := by
  unfold Traversal.accept
  split
  · exact ⟨rfl, h⟩
  · split
    · exact fails (l.blockFailed h _ _) walk
    · simp only [l.fired h]
      exact ⟨rfl, l.record h _ _⟩

theorem endWith (h : R s t) (walk : Traversal) (e : Ending) :
    Likens R (walk.endWith s e) (walk.endWith t e) := by
  unfold Traversal.endWith
  split
  · exact ⟨rfl, h⟩
  · split
    · simp only
      split
      · exact fails (l.blockTimedOut h _) walk
      · exact fails (l.blockFailed h _ _) walk
    · exact l.complete h _ _

theorem answer (h : R s t) (walk : Traversal) (pause : Pause) (source : Source) :
    Likens R (walk.answer s pause source) (walk.answer t pause source) := by
  unfold Traversal.answer
  cases pause with
  | item v => exact l.accept h _ v
  | ended e => exact l.endWith h _ e
  | sleep length insists => exact ⟨rfl, h⟩

theorem gather (h : R s t) (walk : Traversal) (frame : Frame) (p : Process) (collected : List Value) :
    Likens R (walk.gather s frame p collected) (walk.gather t frame p collected) := by
  have halts := l.resume h p
  unfold Traversal.gather
  generalize p.resume s = r at halts ⊢
  obtain ⟨x, q, s₁⟩ := r
  obtain ⟨t₁, same, after⟩ := halts.split
  rw [same]
  cases x with
  | ended e =>
      cases e with
      | fault f => exact fails (l.blockFailed after _ _) _
      | _ => exact ⟨rfl, after⟩
  | _ => exact ⟨rfl, after⟩

theorem advanceFrame (h : R s t) (walk : Traversal) (frame : Frame) :
    Likens R (walk.advance s frame) (walk.advance t frame) := by
  unfold Traversal.advance
  cases frame.source with
  | gathering p collected => exact l.gather h walk frame p collected
  | items rest =>
      cases rest with
      | nil => exact l.endWith h _ .normal
      | cons v rest => exact l.accept h _ v
  | sequence p =>
      have halts := l.resume h p
      simp only
      generalize p.resume s = r at halts ⊢
      obtain ⟨x, q, s₁⟩ := r
      obtain ⟨t₁, same, after⟩ := halts.split
      rw [same]
      cases x with
      | sleep length insists => exact ⟨rfl, after⟩
      | _ => exact l.answer after _ _ _
  | stream p => exact ⟨rfl, h⟩
  | deferred p => exact ⟨rfl, h⟩
  | busy => exact l.endWith h _ .normal

/-- As long as there is room, also when a connection has been told of, and the same is registered wherever a
relation holds, a traversal goes on alike. -/
theorem step (registry : ∀ {s t}, R s t → t.registry = s.registry) (h : R s t) (room : s.Room t)
    (keeps : ∀ c : Connection, ((s.note (.traversed c.id)).notify (.traverse c.id)).Room
      ((t.note (.traversed c.id)).notify (.traverse c.id))) (walk : Traversal) :
    Likens R (walk.step s) (walk.step t) := by
  unfold Traversal.step
  rw [l.active h]
  split
  · split
    · exact ⟨rfl, h⟩
    · split
      · exact l.visit (l.note h _) room (registry (l.note h _)) _ _
      · exact ⟨rfl, h⟩
  · split
    · exact l.advanceFrame h walk _
    · split
      · rename_i c _ _ _
        have told := l.notified (.traverse c.id) (l.note h (.traversed c.id))
        exact l.visit told (keeps c) (registry told) _ _
      · exact ⟨rfl, h⟩

end Traversals

end Likeness

end BlockGraph
