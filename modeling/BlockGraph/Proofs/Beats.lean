import BlockGraph.Proofs.Budget
/-!
Beats: a run as the small changes of its session, in the order in which they come about. A stop may be
asked for between any two of them, also where one move of the traversal makes many; so what a stop comes
to is told in beats. An element is put into the execution order before its start is told, and a visit is
told before it is counted; for that long they are owed.
-/
namespace BlockGraph

namespace Session

/-- Whether no visit that was told is still to be counted, and no element that was turned to is still to
be told of. -/
structure Settled (s : Session) : Prop where
  visits : s.steps = s.traversals + s.entrances
  starts : s.starts = s.processed

end Session

/-- One small change of a session in which a traversal is at work. -/
inductive Beat (s : Session) : Session → Prop
  | deed {s' : Session} : Deed s s' → Beat s s'
  | entered (id : String) : s.active = true → s.Settled → Beat s (s.note (.entered id))
  | traversed (c : Connection) : s.active = true → s.Settled → Beat s (s.traversing c)
  | counted : s.steps < s.traversals + s.entrances → Beat s s.counted
  /-- An element is put into the execution order. -/
  | turned (id : String) : s.active = true → s.starts = s.processed →
      Beat s { s with processed := s.processed ++ [id] }
  | started (id : String) : s.processed = s.starts ++ [id] →
      Beat s ((s.note (.started id)).hears (.start id))
  | opened (id : String) : Beat s (s.withSlots s.run (s.slots.opened id))
  | recorded (id : String) (e : Emission) : Beat s (s.record id e)
  | completed (id : String) : Beat s (s.completing id)
  | failed (f : RunFault) : (∀ steps limit, f ≠ .budget steps limit) → Beat s (s.note (.failed f))
  | spent : s.active = true → Beat s (s.note (.failed (.budget s.steps s.options.maxSteps)))

abbrev Beats : Session → Session → Prop := Relation.ReflTransGen Beat

theorem Deeds.beats {s s' : Session} (h : Deeds s s') : Beats s s' :=
  Relation.ReflTransGen.mono (fun _ _ => .deed) _ _ h

namespace Session

variable {s s' : Session}

theorem hears_history (e : Event) : (s.hears e).history = s.history := by
  unfold hears
  split <;> rfl

theorem hears_steps (e : Event) : (s.hears e).steps = s.steps := by
  unfold hears
  split <;> rfl

/-- A run that is active is under way. -/
theorem running_of_active (on : s.active = true) : s.running = true := by
  simp only [active, Bool.and_eq_true] at on
  exact on.1

theorem hears_running (e : Event) : (s.hears e).running = s.running := (s.hears_runsOn e).running

end Session

/-! ### Visits -/

namespace Traversal

variable {t : Traversal} {s s' : Session} {id : String} {m : Move}

/-- An element is started while the run is active. -/
theorem start_beats (on : s.active = true) (order : s.starts = s.processed) (e : Element)
    (logic : Logic) : Beats s (start s e logic).2 := by
  let turned : Session := { s with processed := s.processed ++ [e.id] }
  let said := turned.say ("Executing element " ++ e.id ++ " (" ++ e.type ++ ")")
  let told := (said.note (.started e.id)).notify (.start e.id)
  have running : turned.running = true := Session.running_of_active (s := s) on
  have lines : Deeds turned said := turned.say_deeds _
  have kept := lines.kept_of_running running
  have owed : said.processed = said.starts ++ [e.id] := by
    have same : said.starts = s.starts := by rw [Session.starts, kept.history]; rfl
    rw [kept.processed, same, order]
  have tells : Beats s told := by
    refine .trans (.single (.turned e.id on order)) (lines.beats.trans ?_)
    exact (Relation.ReflTransGen.single (.started e.id owed)).trans (Session.notify_deeds _ _).beats
  have opens : Beats told (told.contextOf e).2 := by
    unfold Session.contextOf
    refine .trans (.single (.opened e.id)) ?_
    cases (copyProps e.props).outcome with
    | mk props lines =>
        cases props with
        | error f => exact .single (.deed (.report _))
        | ok props => exact .single (.deed (.report _))
  have all := tells.trans opens
  unfold start
  simp only
  split <;> rename_i same <;> exact (congrArg Prod.snd same : (told.contextOf e).2 = _) ▸ all

/-- A visit that is owed is counted first. What it fails with is noted at once. -/
theorem visit_beats (t : Traversal) (owed : s.steps < s.traversals + s.entrances)
    (order : s.starts = s.processed) (id : String) : Beats s (Stage.settle (t.visit s id)).2 := by
  have counts : Beats s s.counted := .single (.counted owed)
  have failing : ∀ f s', Beats s s' → (∀ steps limit, f ≠ .budget steps limit) →
      Beats s (s'.note (.failed f)) := fun f s' before clean => before.tail (.failed f clean)
  have order : s.counted.starts = s.counted.processed := by
    have same : s.counted.starts = s.starts := by
      rw [Session.counted, Session.note_starts]
      exact List.append_nil _
    exact same.trans order
  unfold visit
  cases on : s.active with
  | false =>
      rw [begin_inactive on]
      exact counts
  | true =>
      by_cases beyond : s.options.maxSteps < ((s.steps + 1 : Nat) : Int)
      · rw [begin_overBudget on beyond]
        have active : s.counted.active = true := on
        exact counts.tail (.spent active)
      have within := Int.not_lt.mp beyond
      by_cases seen : id ∈ s.processed
      · rw [begin_seen on within seen]
        exact counts
      rw [begin_fresh on within seen]
      cases s.graph.element? id with
      | none => exact counts
      | some e =>
          simp only
          cases s.registry.find? e.type with
          | none => exact failing _ _ counts fun _ _ same => by cases same
          | some d =>
              have active : s.counted.active = true := on
              have starts := counts.trans (start_beats active order e d.logic)
              simp only
              cases begun : start s.counted e d.logic with
              | mk r s' =>
                  rw [begun] at starts
                  cases r with
                  | error f =>
                      have value : ∃ cause, f = .value cause := by
                        unfold start at begun
                        simp only at begun
                        split at begun
                        · cases begun
                          exact ⟨_, rfl⟩
                        · cases begun
                      obtain ⟨cause, rfl⟩ := value
                      exact failing _ _ starts fun _ _ same => by cases same
                  | ok frame? => cases frame? <;> exact starts

/-! ### Moves -/

/-- An element is over, between deeds. -/
theorem completed_beats {s₁ : Session} (before : Deeds s s₁) (after : Deeds (s₁.completing id) s') :
    Beats s s' := before.beats.trans ((Relation.ReflTransGen.single (.completed id)).trans after.beats)

/-- What a move comes to when nothing is left to fire. -/
theorem Moved.beats (h : t.Moved s m s') {frame : Frame} {outer : List Frame}
    (stack : t.stack = frame :: outer) (rest : frame.pending = []) :
    Beats s (Stage.settle (m, s')).2 := by
  cases h with
  | finished none _ => rw [stack] at none; cases none
  | entered _ _ none _ _ _ => rw [stack] at none; cases none
  | traversed _ _ _ _ here pending _ _ _ =>
      cases stack.symm.trans here
      rw [rest] at pending
      cases pending
  | cleared _ _ _ _ => exact .refl
  | waited _ _ _ _ _ _ => exact .refl
  | went _ _ _ _ _ deeds _ => exact deeds.beats
  | recorded _ _ _ e _ _ deeds _ => exact deeds.beats.tail (.recorded _ e)
  | ended _ _ _ _ before after => exact completed_beats before after
  | delayed _ _ _ _ deeds _ => exact deeds.beats
  | failed f _ deeds clean _ => exact deeds.beats.tail (.failed f clean)

end Traversal

/-- Whether a session has been led to a visit that is still to be counted. -/
structure Session.Owes (s lead : Session) : Prop where
  beats : Beats s lead
  visits : lead.traversals + lead.entrances = lead.steps + 1
  order : lead.starts = lead.processed

namespace Session.Settled

variable {s : Session}

/-- An active run turns to an entry point. -/
theorem entered (h : s.Settled) (on : s.active = true) (id : String) : s.Owes (s.note (.entered id)) := by
  have visits := h.visits
  refine ⟨.single (.entered id on h), ?_, ?_⟩
  · rw [Session.traversals, Session.entrances] at visits ⊢
    simp only [Session.note, List.countP_cons, Happening.isTraversal, Happening.isEntrance,
      Bool.false_eq_true, if_false, if_true]
    omega
  · rw [Session.note_starts]
    exact (List.append_nil _).trans h.starts

/-- An active run traverses a connection. -/
theorem traversed (h : s.Settled) (on : s.active = true) (c : Connection) :
    s.Owes ((s.note (.traversed c.id)).notify (.traverse c.id)) := by
  have visits := h.visits
  have running : (s.traversing c).running = true := by
    rw [Session.traversing, Session.hears_running]
    exact Session.running_of_active on
  have deeds := Session.notify_deeds (s.note (.traversed c.id)) (.traverse c.id)
  have kept : Kept (s.traversing c) _ := deeds.kept_of_running running
  have history : (s.traversing c).history = .traversed c.id :: s.history := Session.hears_history _
  refine ⟨.trans (.single (.traversed c on h)) deeds.beats, ?_, ?_⟩
  · rw [Session.traversals, Session.entrances] at visits ⊢
    rw [kept.history, kept.steps, history, Session.traversing_steps]
    simp only [List.countP_cons, Happening.isTraversal, Happening.isEntrance,
      Bool.false_eq_true, if_false, if_true]
    omega
  · rw [kept.processed, Session.starts, kept.history, history]
    show _ = (s.traversing c).processed
    rw [Session.traversing, Session.hears_processed]
    exact (s.note_starts (.traversed c.id)).trans ((List.append_nil _).trans h.starts)

end Session.Settled

namespace Traversal

variable {t : Traversal} {s : Session}

/-- A visit that a session was led to. -/
theorem owed_beats (t : Traversal) {lead : Session} (owes : s.Owes lead) (id : String) :
    Beats lead (Stage.settle (t.visit lead id)).2 :=
  t.visit_beats (by have visits := owes.visits; omega) owes.order id

theorem step_beats (stored : 0 < s.stores.size) (known : t.Known s)
    (settled : s.active = true → s.Settled) : Beats s (Stage.settle (t.step s)).2 := by
  have moved := step_moved stored known
  have visits : ∀ (t : Traversal) {lead : Session}, s.Owes lead → ∀ id, Beats s (Stage.settle (t.visit lead id)).2 :=
    fun t _ owes id => owes.beats.trans (t.owed_beats owes id)
  obtain ⟨entries, stack⟩ := t
  cases stack with
  | nil =>
      cases entries with
      | nil => exact .refl
      | cons id rest =>
          unfold step
          cases on : s.active with
          | false => exact .refl
          | true => exact visits ⟨rest, []⟩ ((settled on).entered on id) id
  | cons frame outer =>
      cases pending : frame.pending with
      | nil => exact moved.beats rfl pending
      | cons c rest =>
          unfold step
          simp only [pending]
          cases on : s.active with
          | false => exact .refl
          | true => exact visits _ ((settled on).traversed on c) c.target

end Traversal

namespace Stage

variable {st st' : Stage} {s s' : Session}

theorem next_beats (stored : 0 < s.stores.size) (sound : st.Sound s)
    (settled : s.active = true → s.Settled) (h : st.next s = some (st', s')) : Beats s s' := by
  have goes := next_goes stored sound h
  cases goes with
  | opened deeds => exact deeds.beats
  | barred _ deeds _ _ => exact deeds.beats
  | @moved t m s₁ _ =>
      have steps := t.step_beats stored sound.1 settled
      rw [Option.some.inj h] at steps
      exact steps
  | answered moved =>
      obtain ⟨_, _, frame, outer, stack, rest⟩ := sound
      exact moved.beats stack rest
  | worked deeds _ => exact deeds.beats
  | delayed before after => exact Traversal.completed_beats before after
  | torn _ deeds _ _ => exact deeds.beats
  | cancelled _ => exact .refl

end Stage

theorem Cut.beats {st st' : Stage} {s s' : Session} (sound : st.Sound s) (h : Cut st s st' s') :
    Beats s s' := by
  cases h with
  | interrupt t a given? => exact (a.process.interrupt_deeds sound.2.1).beats
  | interruptClosing t p e =>
      have deeds := p.interrupt_deeds sound.2
      have beats := deeds.beats
      generalize p.interrupt s = r at beats
      obtain ⟨pause, q, s'⟩ := r
      cases pause with
      | ended how => cases how <;> exact beats
      | _ => exact beats
  | _ => exact .refl

theorem Passes.beats {calm : Prop} {c c' : Course} (h : Passes calm c c') (sound : c.Sound)
    (settled : c.session.active = true → c.session.Settled) : Beats c.session c'.session := by
  cases h with
  | rest => exact .refl
  | next _ next => exact Stage.next_beats sound.1 sound.2 settled next
  | cut _ _ cut => exact cut.beats sound.2
  | aside _ _ _ deeds => exact deeds.beats

end BlockGraph
