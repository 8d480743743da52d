import BlockGraph.Proofs.Order
/-!
Habits: relations from a session to later ones that every small change respects. Whatever listeners, block
logic and traversals do to a session is a row of such changes, so that a habit holds across all of it; later
statements only say what their relation makes of a single change. Two kinds of change are left to them: what
logic stores, and what a traversal records.
-/
namespace BlockGraph

/-- The line that a stop is logged with. -/
def Session.stopWords : String := "Execution stopped by user request"

@[simp]
theorem Session.eq_stopWords {line : String} :
    line = stopWords ↔ line.toList = "Execution stopped by user request".toList := String.toList_inj.symm

/-- What is found out about a graph is no stop. -/
theorem Session.findings_apart {g : Graph} : ∀ line ∈ findings g, line ≠ stopWords := by
  intro line member
  unfold findings at member
  rcases List.mem_append.mp member with cycles | orphans
  · split at cycles
    · cases cycles
    · rcases List.mem_cons.mp cycles with rfl | cycle
      · simp
      · obtain ⟨⟨path, i⟩, -, rfl⟩ := List.mem_map.mp cycle
        simp
  · split at orphans
    · cases orphans
    · rw [List.mem_singleton.mp orphans]
      simp

/-- A relation that holds across whatever a listener does. -/
structure Reacts (R : Session → Session → Prop) : Prop where
  refl : ∀ s, R s s
  trans : ∀ {s₁ s₂ s₃}, R s₁ s₂ → R s₂ s₃ → R s₁ s₃
  reported : ∀ s journal, R s { s with journal }
  stopped : ∀ s line, s.active = true → R s { s with stopRequested := true, log := s.log.push line }
  told : ∀ s n line, R s { s with heard := s.heard.push (n, .log line) }
  reset : ∀ s, s.running = false → R s s.cleared

/-- A relation that holds across whatever block logic does, but for what it stores. It logs no stops itself. -/
structure Habit (R : Session → Session → Prop) : Prop extends Reacts R where
  logged : ∀ s line, line ≠ Session.stopWords → R s { s with log := s.log.push line }
  heard : ∀ s n e, (∀ f, e ≠ .error f) → R s { s with heard := s.heard.push (n, e) }
  noted : ∀ s x, R s (s.note x)
  altered : ∀ s registry draws, R s { s with registry, draws }

/-- A relation that holds across visits of elements, but for what these record. Elements are visited only
while a run is under way. -/
structure Visits (R : Session → Session → Prop) : Prop extends Habit R where
  counted : ∀ s, s.running = true → R s { s with steps := s.steps + 1 }
  joined : ∀ s id, s.running = true → R s { s with processed := s.processed ++ [id] }
  opened : ∀ s id, R s (s.withSlots s.run (s.slots.opened id))

variable {R : Session → Session → Prop}

/-! ### Listeners -/

namespace Reacts

variable (h : Reacts R)
include h

theorem react {stop : Session → Session} (stops : ∀ s, R s (stop s)) (e : Event)
    (reactions : List Reaction) (s : Session) : R s (Session.react stop e s reactions) := by
  induction reactions generalizing s with
  | nil => exact h.refl s
  | cons r rest ih =>
      cases r with
      | stop => exact h.trans (stops s) (ih _)
      | reset =>
          unfold Session.react Session.reset?
          split
          · rename_i s' free
            split at free
            · cases free
            · rename_i idle
              cases free
              exact h.trans (h.reset s (Bool.eq_false_iff.mpr idle)) (ih _)
          · exact h.reported s _
      | «raise» f => exact h.reported s _

/-- What a listener does after it was told is no more than that it was told. -/
theorem tell (depth : Nat) (s : Session) (options : Options) (l : Listener) (e : Event)
    (hears : R s { s with heard := s.heard.push (l.number, e) }) : R s (Session.tell depth s options l e) := by
  induction depth generalizing s options l e with
  | zero => exact h.refl s
  | succ depth ih =>
      have stops : ∀ s, R s (Session.stopBy (Session.tell depth) s) := by
        intro s
        unfold Session.stopBy
        split
        · rename_i on
          exact h.trans (h.stopped s _ on) (ih _ _ _ _ (h.told _ _ _))
        · exact h.refl s
      rw [Session.tell]
      split
      · exact h.trans hears (h.react stops e _ _)
      · exact h.refl s

/-- What a listener does after it was told. -/
theorem after (depth : Nat) {s : Session} {options : Options} (l : Listener) {e : Event}
    (listens : options.heard.contains e.kind = true) :
    R { s with heard := s.heard.push (l.number, e) } (Session.tell (depth + 1) s options l e) := by
  rw [Session.tell, if_pos listens]
  apply h.react
  intro s
  unfold Session.stopBy
  split
  · rename_i on
    exact h.trans (h.stopped s _ on) (h.tell depth _ _ _ _ (h.told _ _ _))
  · exact h.refl s

theorem stop (s : Session) : R s s.stop := by
  unfold Session.stop Session.stopBy
  split
  · rename_i on
    exact h.trans (h.stopped s _ on) (h.tell 2 _ _ _ _ (h.told _ _ _))
  · exact h.refl s

/-- What is logged is told. -/
theorem say {s : Session} {line : String} (logged : R s { s with log := s.log.push line }) : R s (s.say line) :=
  h.trans logged (h.tell 2 _ _ _ _ (h.told _ _ _))

end Reacts

/-! ### Block logic -/

/-- Whether a step stores something. -/
def Step.isStore : Step → Bool
  | .store .. | .storeInput .. | .storeGlobal .. => true
  | _ => false

/-- The steps that a process may still take, if it goes on in a session. -/
def Process.ahead (p : Process) (s : Session) : List Step :=
  match p.progress with
  | .fresh logic => (start p.context logic s).steps ++ (start p.context logic s).closing
  | .resting cursor => cursor.steps ++ cursor.closing
  | .over => []

/-- Whether a relation holds across what a process stores. -/
def Process.Stores (R : Session → Session → Prop) (p : Process) (s : Session) : Prop :=
  ∀ step ∈ p.ahead s, step.isStore = true → ∀ s', R s' (step.take p.context s').2

namespace Habit

variable (h : Habit R)
include h

theorem say (s : Session) (line : String) (other : line ≠ Session.stopWords) : R s (s.say line) :=
  h.toReacts.say (h.logged s line other)

theorem notify (s : Session) (e : Event) (other : ∀ f, e ≠ .error f) : R s (s.notify e) :=
  h.tell 2 s _ _ e (h.heard _ _ _ other)

theorem sayThen {c : Context} (s : Session) (line : Except Fault String) {next : Session → Taken × Session}
    (then_ : ∀ s, R s (next s).2) : R s (Step.sayThen c s line next).2 := by
  cases line with
  | error f => exact h.refl s
  | ok line => exact h.trans (h.say s _ (by simp)) (then_ _)

theorem turned {c : Context} (s : Session) (done : Nat) (limit : Number) (condition : Value) :
    R s (Step.turned c s done limit condition).2 := by
  have ends : ∀ s, R s (Step.turnsOver c s done).2 := fun s => h.sayThen s _ fun s => h.refl s
  unfold Step.turned
  split
  · exact h.sayThen s _ ends
  · split
    · exact h.sayThen s _ fun s => h.refl s
    · exact ends s

theorem take {c : Context} {step : Step} (stores : step.isStore = true → ∀ s, R s (step.take c s).2)
    (s : Session) : R s (step.take c s).2 := by
  cases step with
  | store key value => exact stores rfl s
  | storeInput key name => exact stores rfl s
  | storeGlobal name value => exact stores rfl s
  | log message =>
      rw [Step.take]
      unfold Context.line
      cases message.plainText with
      | error f => exact h.refl s
      | ok text => exact h.say s ("[" ++ c.elementId ++ "] " ++ text) (by simp)
  | stop => exact h.stop s
  | unregister type =>
      cases type with
      | text type => exact h.altered s _ _
      | _ => exact h.refl s
  | announce message => exact h.reported s _
  | useDraw => exact h.altered s _ _
  | count next limit =>
      rw [Step.take, Step.counted]
      split
      · exact h.sayThen s _ fun s => h.refl s
      · exact h.refl s
  | turns done limit condition => exact h.turned s done limit condition
  | _ => exact h.refl s

theorem advance {c : Context} {steps : List Step}
    (stores : ∀ step ∈ steps, step.isStore = true → ∀ s, R s (step.take c s).2) (s : Session) :
    R s (Cursor.advance c steps s).2.2 := by
  induction steps generalizing s with
  | nil => exact h.refl s
  | cons step rest ih =>
      have taken := h.take (stores step List.mem_cons_self) s
      rw [Cursor.advance]
      split <;> rename_i same <;> rw [same] at taken
      · exact h.trans taken (ih (fun step member => stores step (List.mem_cons_of_mem _ member)) _)
      all_goals exact taken

section Cursors

variable {c : Context} {cursor : Cursor} {s : Session}

theorem closeCursor {steps : List Step}
    (stores : ∀ step ∈ steps, step.isStore = true → ∀ s, R s (step.take c s).2) (e : Ending) (s : Session) :
    R s (Cursor.close c steps e s).2.2 := by
  have advanced := h.advance stores s
  unfold Cursor.close
  split <;> rename_i same <;> rwa [same] at advanced

theorem resumeCursor
    (stores : ∀ step ∈ cursor.steps ++ cursor.closing, step.isStore = true → ∀ s, R s (step.take c s).2) :
    R s (cursor.resume c s).2.2 := by
  have first := fun step member => stores step (List.mem_append_left _ member)
  have last := fun step member => stores step (List.mem_append_right _ member)
  unfold Cursor.resume
  split
  · exact h.closeCursor first _ s
  · have advanced := h.advance first s
    split <;> rename_i same <;> rw [same] at advanced
    · exact h.trans advanced (h.closeCursor last _ _)
    · exact advanced

theorem breakOff
    (stores : ∀ step ∈ cursor.steps ++ cursor.closing, step.isStore = true → ∀ s, R s (step.take c s).2)
    (e : Ending) : R s (cursor.breakOff c e s).2.2 := by
  unfold Cursor.breakOff
  split
  · exact h.refl s
  · exact h.closeCursor (fun step member => stores step (List.mem_append_right _ member)) _ s

end Cursors

variable {p : Process} {s : Session}

theorem resume (stores : p.Stores R s) : R s (p.resume s).2.2 := by
  obtain ⟨c, progress⟩ := p
  cases progress with
  | fresh logic => exact h.resumeCursor stores
  | resting cursor => exact h.resumeCursor stores
  | «over» => exact h.refl s

theorem close (stores : p.Stores R s) : R s (p.close s).2.2 := by
  obtain ⟨c, progress⟩ := p
  cases progress with
  | resting cursor => exact h.breakOff stores _
  | _ => exact h.refl s

theorem interrupt (stores : p.Stores R s) : R s (p.interrupt s).2.2 := by
  obtain ⟨c, progress⟩ := p
  cases progress with
  | resting cursor => exact h.breakOff stores _
  | _ => exact h.refl s

/-! ### The opening and the elements of a run -/

theorem diagnose (s : Session) : R s s.diagnose :=
  Session.diagnose_induct
    (fun t line member before => h.trans before (h.say t line (Session.findings_apart line member))) (h.refl s)

theorem opening (s : Session) : R s s.opening.2 := by
  have diagnosed : R s (if s.options.detectCycles then s.diagnose else s) := by
    split
    · exact h.diagnose s
    · exact h.refl s
  unfold Session.opening
  simp only
  generalize (if s.options.detectCycles then s.diagnose else s) = s₁ at diagnosed
  cases s₁.checkAll with
  | error f => exact diagnosed
  | ok _ =>
      cases s₁.graph.elements with
      | nil => exact h.trans diagnosed (h.say _ _ (by simp))
      | cons first rest =>
          simp only
          cases s₁.graph.entryPoints with
          | nil => exact h.trans diagnosed (h.trans (h.say _ _ (by simp)) (h.say _ _ (by simp)))
          | cons entry entries => exact h.trans diagnosed (h.say _ _ (by simp))

theorem completed (s : Session) (id : String) : R s (s.completed id) :=
  h.trans (h.trans (h.say s _ (by simp)) (h.noted _ _)) (h.notify _ _ nofun)

theorem blockFailed (s : Session) (e : Element) (cause : Fault) : R s (s.blockFailed e cause).2 := by
  have other : "Error executing element " ++ e.id ++ " (" ++ e.type ++ "): " ++ cause.message ≠ Session.stopWords := by
    simp
  exact h.say s _ other

theorem blockTimedOut (s : Session) (e : Element) : R s (s.blockTimedOut e).2 := h.say s _ (by simp)

/-- Logic that stores nothing out of the way does nothing out of the way. -/
theorem stores_of_withSlots (stores : ∀ s run slots, R s (s.withSlots run slots)) (p : Process)
    (s : Session) : p.Stores R s := by
  have puts : ∀ (c : Context) s r, R s (Step.withSlots c s r).2 := by
    intro c s r
    cases r with
    | error f => exact h.refl s
    | ok slots => exact stores s _ slots
  intro step _ writes s'
  cases step with
  | store key value => exact puts _ s' _
  | storeInput key name => exact puts _ s' _
  | storeGlobal name value => exact stores s' _ _
  | _ => cases writes

end Habit

/-! ### Traversals -/

/-- Whether a relation holds across what the innermost element under way records, and across what its logic
stores. -/
structure Traversal.Writes (R : Session → Session → Prop) (t : Traversal) (s : Session) : Prop where
  records : ∀ frame ∈ t.stack.head?, ∀ s e, R s (s.record frame.element.id e)
  stores : ∀ frame ∈ t.stack.head?, ∀ p ∈ frame.source.process?, p.Stores R s

/-- Putting back a source leaves the innermost element the same. -/
theorem Traversal.records_withSource {t : Traversal}
    (records : ∀ frame ∈ t.stack.head?, ∀ s e, R s (s.record frame.element.id e)) (source : Source) :
    ∀ frame ∈ (t.withSource source).stack.head?, ∀ s e, R s (s.record frame.element.id e) := by
  unfold withSource
  split
  · exact records
  · rename_i frame outer stack
    intro inner here
    obtain rfl : { frame with source } = inner := Option.some.inj here
    exact records frame (by rw [stack]; rfl)

namespace Visits

variable (h : Visits R) {s : Session} {t : Traversal}
include h

theorem contextOf (s : Session) (e : Element) : R s (s.contextOf e).2 := by
  unfold Session.contextOf
  simp only
  have noted := h.trans (h.opened s e.id) (h.reported _
    ((s.withSlots s.run (s.slots.opened e.id)).journal ++ (copyProps e.props).outcome.2))
  cases (copyProps e.props).outcome.1 <;> exact noted

theorem start (running : s.running = true) (e : Element) (logic : Logic) :
    R s (Traversal.start s e logic).2 := by
  have begun := h.trans (h.trans (h.trans (h.joined s e.id running) (h.say _ ("Executing element " ++
    e.id ++ " (" ++ e.type ++ ")") (by simp))) (h.noted _ (.started e.id))) (h.notify _ (.start e.id) nofun)
  unfold Traversal.start
  simp only
  generalize Session.notify _ _ = s₁ at begun ⊢
  have opened := h.trans begun (h.contextOf s₁ e)
  split <;> rename_i same <;> rwa [same] at opened

theorem begin (running : s.running = true) (id : String) : R s (Traversal.begin s id).2 := by
  have attempted := h.trans (h.counted s running) (h.noted _ (.attempted s.active))
  unfold Traversal.begin
  simp only
  split
  · exact attempted
  · split
    · exact attempted
    · split
      · exact attempted
      · split
        · exact attempted
        · split
          · exact attempted
          · exact h.trans attempted (h.start (by exact running) _ _)

theorem visit (running : s.running = true) (t : Traversal) (id : String) : R s (t.visit s id).2 := by
  have begun := h.begin running id
  unfold Traversal.visit
  split <;> rename_i same <;> rwa [same] at begun

theorem complete (t : Traversal) (s : Session) (id : String) : R s (t.complete s id).2 := by
  unfold Traversal.complete
  split
  · exact h.completed s id
  · exact h.refl s

theorem accept (records : ∀ frame ∈ t.stack.head?, ∀ s e, R s (s.record frame.element.id e)) (s : Session)
    (item : Value) : R s (t.accept s item).2 := by
  unfold Traversal.accept
  split
  · exact h.refl s
  · rename_i frame outer stack
    split
    · exact h.blockFailed s _ _
    · exact records frame (by rw [stack]; rfl) s _

theorem endWith (t : Traversal) (s : Session) (e : Ending) : R s (t.endWith s e).2 := by
  unfold Traversal.endWith
  split
  · exact h.refl s
  · split
    · simp only
      split
      · exact h.blockTimedOut s _
      · exact h.blockFailed s _ _
    · exact h.complete _ s _

theorem answer (records : ∀ frame ∈ t.stack.head?, ∀ s e, R s (s.record frame.element.id e)) (s : Session)
    (pause : Pause) (source : Source) : R s (t.answer s pause source).2 := by
  have records := Traversal.records_withSource records source
  unfold Traversal.answer
  cases pause with
  | item v => exact h.accept records s v
  | ended e => exact h.endWith _ s e
  | sleep length insists => exact h.refl s

theorem gather (t : Traversal) (frame : Frame) {p : Process} (stores : p.Stores R s)
    (collected : List Value) : R s (t.gather s frame p collected).2 := by
  have resumed := h.resume stores
  unfold Traversal.gather
  split <;> rename_i same <;> rw [same] at resumed
  · exact resumed
  · exact h.trans resumed (h.blockFailed _ _ _)
  · exact resumed
  · exact resumed

theorem advanceFrame {frame : Frame} {outer : List Frame} (writes : t.Writes R s)
    (stack : t.stack = frame :: outer) : R s (t.advance s frame).2 := by
  have here : frame ∈ t.stack.head? := by rw [stack]; rfl
  have stores := writes.stores frame here
  unfold Traversal.advance
  cases source : frame.source with
  | gathering p collected => exact h.gather t frame (stores p (by rw [source]; rfl)) collected
  | items rest =>
      cases rest with
      | nil => exact h.endWith t s .normal
      | cons v rest => exact h.accept (Traversal.records_withSource writes.records _) s v
  | sequence p =>
      have resumed := h.resume (stores p (by rw [source]; rfl))
      simp only
      split <;> rename_i same <;> rw [same] at resumed
      · exact resumed
      · exact h.trans resumed (h.answer writes.records _ _ _)
  | stream p => exact h.refl s
  | deferred p => exact h.refl s
  | busy => exact h.endWith t s .normal

theorem step (writes : t.Writes R s) : R s (t.step s).2 := by
  unfold Traversal.step
  split
  · split
    · exact h.refl s
    · split
      · rename_i id rest _ on
        exact h.trans (h.noted s _) (h.visit (s := s.note (.entered id)) (Session.running_of_active on) _ _)
      · exact h.refl s
  · rename_i frame outer stack
    split
    · exact h.advanceFrame writes stack
    · rename_i c rest _
      split
      · rename_i on
        have told := h.trans (h.noted s (.traversed c.id)) (h.notify _ (.traverse c.id) fun _ same => by cases same)
        have running : ((s.note (.traversed c.id)).notify (.traverse c.id)).running = true := by
          rw [(Session.notify_deeds _ _).runsOn.running, (Session.hears_runsOn _).running]
          exact Session.running_of_active on
        exact h.trans told (h.visit running _ _)
      · exact h.refl s

end Visits

end BlockGraph
