import BlockGraph.Proofs.Calls
import BlockGraph.Proofs.Calm
/-!
Stores. Logic writes to the slots of the run it was started in and to no others. A run that has started no
element has no slots, whatever logic of earlier runs is still at work.
-/
namespace BlockGraph

namespace Slots

theorem slot_cons (first : String × Entries) (rest : Slots) (id : String) :
    slot (first :: rest) id = if id == first.1 then first.2 else slot rest id := by
  unfold slot
  rw [List.lookup_cons]
  cases id == first.1 <;> rfl

/-- A slot that is opened is as empty as one that was not. -/
theorem slot_opened (slots : Slots) (other id : String) : (slots.opened other).slot id = slots.slot id := by
  unfold opened
  split
  · rfl
  · induction slots with
    | nil =>
        rw [List.nil_append, slot_cons]
        exact ite_self _
    | cons first rest ih =>
        have ih := ih (by simp_all)
        rw [List.cons_append, slot_cons, slot_cons, ih]

theorem mem_opened (slots : Slots) (id : String) : (slots.opened id).any (·.1 == id) = true := by
  unfold opened
  split
  · assumption
  · rw [List.any_append, List.any_cons, beq_self_eq_true, Bool.true_or, Bool.or_true]

theorem slot_replaced (slots : Slots) (other id : String) (f : Entries → Entries) :
    slot (slots.map fun s => if s.1 == other then (s.1, f s.2) else s) id =
      if id = other ∧ slots.any (·.1 == id) = true then f (slots.slot id) else slots.slot id := by
  induction slots with
  | nil => simp [slot]
  | cons first rest ih =>
      rw [List.map_cons, slot_cons, slot_cons, ih, List.any_cons]
      by_cases here : first.1 = id
      · subst here
        by_cases same : first.1 = other <;> simp [same]
      · by_cases same : first.1 = other
        · have apart : id ≠ other := fun also => here (same.trans also.symm)
          simp [same, apart]
        · rw [beq_false_of_ne here, Bool.false_or]
          simp [same, Ne.symm here]

theorem slot_write (slots : Slots) (other id : String) (key value : Value) :
    (slots.write other key value).slot id =
      if id = other then Entries.write (slots.slot id) key value else slots.slot id := by
  unfold write
  rw [slot_replaced (slots.opened other) other id fun entries => Entries.write entries key value, slot_opened]
  by_cases same : id = other
  · rw [if_pos ⟨same, same ▸ mem_opened slots id⟩, if_pos same]
  · rw [if_neg fun both => same both.1, if_neg same]

end Slots

/-- What a session that runs changes of its stores, when only those of one run are written to, and of that only
the slot of one element and the run-wide one. -/
structure Session.Confined (run : Nat) (owner : String) (s s' : Session) : Prop where
  running : s'.running = s.running
  size : s'.stores.size = s.stores.size
  others : ∀ other, other ≠ run → s'.slotsOf other = s.slotsOf other
  apart : ∀ id, id ≠ owner → id ≠ Slots.globalId → (s'.slotsOf run).slot id = (s.slotsOf run).slot id

namespace Session.Confined

variable {run : Nat} {owner : String} {s s₁ s' : Session}

theorem of_eq (running : s'.running = s.running) (stores : s'.stores = s.stores) : Confined run owner s s' :=
  have same : ∀ other, s'.slotsOf other = s.slotsOf other := fun other => by rw [slotsOf, stores]; rfl
  ⟨running, congrArg Array.size stores, fun other _ => same other, fun id _ _ => congrArg (·.slot id) (same run)⟩

theorem refl (s : Session) : Confined run owner s s := of_eq rfl rfl

theorem trans (h : Confined run owner s s₁) (h' : Confined run owner s₁ s') : Confined run owner s s' :=
  ⟨h'.running.trans h.running, h'.size.trans h.size,
    fun other apart => (h'.others other apart).trans (h.others other apart),
    fun id other shared => (h'.apart id other shared).trans (h.apart id other shared)⟩

theorem withSlots (s : Session) (run : Nat) {slots : Slots}
    (apart : ∀ id, id ≠ owner → id ≠ Slots.globalId → slots.slot id = (s.slotsOf run).slot id) :
    Confined run owner s (s.withSlots run slots) where
  running := rfl
  size := s.withSlots_size run slots
  others other apart := by
    simp only [slotsOf, Session.withSlots, Array.getD_eq_getD_getElem?, Array.getElem?_setIfInBounds,
      if_neg (Ne.symm apart)]
  apart id other shared := by
    by_cases inside : run < s.stores.size
    · have same : (s.withSlots run slots).slotsOf run = slots := by
        simp only [slotsOf, Session.withSlots, Array.getD_eq_getD_getElem?, Array.getElem?_setIfInBounds,
          if_true, inside, Option.getD_some]
      rw [same]
      exact apart id other shared
    · rw [Session.withSlots, Array.setIfInBounds_eq_of_size_le (Nat.not_lt.mp inside)]

/-- A run that is not written to keeps its slots. -/
theorem slots (h : Confined run owner s s') (other : s.run ≠ run) : s'.slots = s.slots := by
  have same : s'.run = s.run := congrArg (· - 1) h.size
  rw [Session.slots, Session.slots, same]
  exact h.others _ other

/-- A slot keeps what it holds when the logic of another element writes. -/
theorem slot (h : Confined run owner s s') {id : String} (other : s.run = run → id ≠ owner)
    (shared : id ≠ Slots.globalId) : s'.slots.slot id = s.slots.slot id := by
  by_cases here : s.run = run
  · have same : s'.run = s.run := congrArg (· - 1) h.size
    rw [Session.slots, Session.slots, same, here]
    exact h.apart id (other here) shared
  · exact congrArg (·.slot id) (h.slots here)

end Session.Confined

/-- Whether one session comes of another that runs without anything being written to the slots of its run. -/
abbrev Session.Unwritten (s s' : Session) : Prop := Confined (s.run + 1) Slots.globalId s s'

theorem Session.Unwritten.slots {s s' : Session} (h : s.Unwritten s') : s'.slots = s.slots :=
  Confined.slots h (Nat.ne_of_lt (Nat.lt_succ_self _))

namespace Session

variable {s : Session} {run : Nat} {owner : String}

/-! ### Telling writes to no store -/

theorem react_confined {stop : Session → Session} (stops : ∀ s, s.running = true → Confined run owner s (stop s))
    (e : Event) (reactions : List Reaction) (s : Session) (running : s.running = true) :
    Confined run owner s (react stop e s reactions) := by
  induction reactions generalizing s with
  | nil => exact .refl s
  | cons r rest ih =>
      cases r with
      | stop =>
          have stopped := stops s running
          exact stopped.trans (ih _ (stopped.running.trans running))
      | reset =>
          have refused : s.reset? = none := if_pos running
          rw [react, refused]
          exact .of_eq rfl rfl
      | «raise» f => exact .of_eq rfl rfl

/-- Whether a way to tell a listener writes to no store but that of one run. -/
def Confines (run : Nat) (owner : String) (tell : Telling) : Prop :=
  ∀ s options listener e, s.running = true → Confined run owner s (tell s options listener e)

theorem Confines.logBy {tell : Telling} (h : Confines run owner tell) {s₁ : Session} (before : Confined run owner s s₁)
    (running : s.running = true) (line : String) : Confined run owner s (logBy tell s₁ line) := by
  have logged : Confined run owner s₁ { s₁ with log := s₁.log.push line } := .of_eq rfl rfl
  exact (before.trans logged).trans (h _ _ _ _ (before.running.trans running))

theorem Confines.stopBy {tell : Telling} (h : Confines run owner tell) (s : Session) (running : s.running = true) :
    Confined run owner s (stopBy tell s) := by
  unfold Session.stopBy
  split
  · have asked : Confined run owner s { s with stopRequested := true } := .of_eq rfl rfl
    exact h.logBy asked running _
  · exact .refl s

theorem tell_confines (depth : Nat) : Confines run owner (tell depth) := by
  induction depth with
  | zero => exact fun s _ _ _ _ => .refl s
  | succ depth ih =>
      intro s options listener e running
      rw [tell]
      split
      · have heard : Confined run owner s { s with heard := s.heard.push (listener.number, e) } := .of_eq rfl rfl
        exact heard.trans (react_confined ih.stopBy e _ _ running)
      · exact .refl s

theorem say_confined (line : String) (running : s.running = true) : Confined run owner s (s.say line) :=
  (tell_confines 2).logBy (.refl s) running line

theorem diagnose_confined (running : s.running = true) : Confined run owner s s.diagnose :=
  diagnose_induct (fun _ line _ before => before.trans (say_confined line (before.running.trans running)))
    (.refl s)

theorem opening_confined (running : s.running = true) : Confined run owner s s.opening.2 := by
  have diagnosed : Confined run owner s (if s.options.detectCycles then s.diagnose else s) := by
    split
    · exact diagnose_confined running
    · exact .refl s
  unfold opening
  simp only
  generalize (if s.options.detectCycles then s.diagnose else s) = s₁ at diagnosed
  have lines : ∀ line, Confined run owner s (s₁.say line) := fun line =>
    diagnosed.trans (say_confined line (diagnosed.running.trans running))
  split
  · exact diagnosed
  · split
    · exact lines _
    · rename_i first rest elements
      cases s₁.graph.entryPoints with
      | nil =>
          have fell := lines ("No entry points found - falling back to element " ++ first.id)
          exact fell.trans (say_confined _ (fell.running.trans running))
      | cons id ids => exact lines _

/-- A run begins with nothing started. -/
theorem taken_processed (s : Session) (options : Options) (listener : Listener) (bindings : Entries) :
    (s.taken options listener bindings).processed = [] := by
  let s' := { s.cleared with
    options, listener, bindings, running := true, status := .running, started := true }
  have deeds : Deeds s' (s.taken options listener bindings) :=
    (s'.report_deeds _ _ _).trans (say_deeds _ _)
  exact (deeds.kept_of_running rfl).processed

end Session

/-! ### Logic -/

section Logic

open Session

variable {c : Context} {s : Session}

theorem Step.sayThen_confined {next : Session → Taken × Session} (line : Except Fault String)
    (then_ : ∀ s, s.running = true → Confined c.run c.elementId s (next s).2) (running : s.running = true) :
    Confined c.run c.elementId s (Step.sayThen c s line next).2 := by
  cases line with
  | error f => exact .refl s
  | ok line =>
      have said : Confined c.run c.elementId s _ := say_confined ("[" ++ c.elementId ++ "] " ++ line) running
      exact said.trans (then_ _ (said.running.trans running))

theorem Step.turned_confined (done : Nat) (limit : Number) (condition : Value) (running : s.running = true) :
    Confined c.run c.elementId s (Step.turned c s done limit condition).2 := by
  have ends : ∀ s, s.running = true → Confined c.run c.elementId s (Step.turnsOver c s done).2 := fun _ running =>
    sayThen_confined _ (fun s _ => .refl s) running
  unfold turned
  split
  · exact sayThen_confined _ ends running
  · split
    · exact sayThen_confined _ (fun s _ => .refl s) running
    · exact ends s running

theorem Step.store_confined (key value : Value) : Confined c.run c.elementId s
    (Step.withSlots c s ((s.slotsOf c.run).store c.elementId key value)).2 := by
  unfold Slots.store
  cases key.name? with
  | none => exact .refl s
  | some _ => exact .withSlots s c.run fun id other _ => (Slots.slot_write ..).trans (if_neg other)

/-- A step writes to the slot of its own element, or to the run-wide one. -/
theorem Step.take_confined (step : Step) (running : s.running = true) :
    Confined c.run c.elementId s (step.take c s).2 := by
  cases step with
  | store key value => exact store_confined key value
  | storeInput key name =>
      rw [take]
      cases c.input name .null with
      | error f => exact .refl s
      | ok value => exact store_confined key value
  | storeGlobal name value =>
      refine .withSlots s c.run fun id _ shared => ?_
      cases name.asKey with
      | error f => exact Slots.slot_opened ..
      | ok name => exact (Slots.slot_write ..).trans (if_neg shared)
  | log message =>
      rw [take]
      split
      · exact say_confined _ running
      · exact .refl s
  | stop => exact (tell_confines 2).stopBy s running
  | unregister type =>
      cases type with
      | text type => exact .of_eq rfl rfl
      | _ => exact .refl s
  | announce message => exact .of_eq rfl rfl
  | useDraw => exact .of_eq rfl rfl
  | count next limit =>
      rw [take, counted]
      split
      · exact sayThen_confined _ (fun s _ => .refl s) running
      · exact .refl s
  | turns done limit condition => exact turned_confined done limit condition running
  | _ => exact .refl s

namespace Cursor

theorem advance_confined (steps : List Step) (running : s.running = true) :
    Confined c.run c.elementId s (advance c steps s).2.2 := by
  induction steps generalizing s with
  | nil => exact .refl s
  | cons step rest ih =>
      have taken := step.take_confined (c := c) running
      rw [advance]
      split <;> rename_i same <;> rw [same] at taken
      · exact taken.trans (ih (taken.running.trans running))
      all_goals exact taken

theorem close_confined (steps : List Step) (pending : Ending) (running : s.running = true) :
    Confined c.run c.elementId s (close c steps pending s).2.2 := by
  have advanced := advance_confined (c := c) steps running
  rw [close]
  split <;> rename_i same <;> rwa [same] at advanced

theorem resume_confined (cursor : Cursor) (running : s.running = true) :
    Confined c.run c.elementId s (resume c cursor s).2.2 := by
  rw [resume]
  split
  · exact close_confined _ _ running
  · have advanced := advance_confined (c := c) cursor.steps running
    split <;> rename_i same <;> rw [same] at advanced
    · exact advanced.trans (close_confined _ _ (advanced.running.trans running))
    · exact advanced

theorem breakOff_confined (cursor : Cursor) (e : Ending) (running : s.running = true) :
    Confined c.run c.elementId s (breakOff c cursor e s).2.2 := by
  rw [breakOff]
  split
  · exact .refl s
  · exact close_confined _ _ running

end Cursor

theorem Process.resume_confined (p : Process) (running : s.running = true) :
    Confined p.context.run p.context.elementId s (p.resume s).2.2 := by
  unfold resume
  split
  · exact Cursor.resume_confined _ running
  · exact Cursor.resume_confined _ running
  · exact .refl s

theorem Process.interrupt_confined (p : Process) (running : s.running = true) :
    Confined p.context.run p.context.elementId s (p.interrupt s).2.2 := by
  unfold interrupt
  split
  · exact Cursor.breakOff_confined _ _ running
  · exact .refl s

/-- Logic that is known to a run which has started nothing is that of an earlier one. -/
theorem Process.Known.earlier {p : Process} (known : p.Known s) (unstarted : s.processed = []) :
    s.run ≠ p.context.run := by
  obtain ⟨inside, current⟩ := known
  intro same
  have last : p.context.run + 1 = s.stores.size := by
    rw [← same, Session.run]
    exact Nat.sub_add_cancel (Nat.lt_of_le_of_lt (Nat.zero_le _) inside)
  have started := current last
  rw [unstarted] at started
  cases started

end Logic

/-- What is said of a run at its end writes to no slot. -/
theorem Concludes.slots {s s' : Session} {st : Stage} {o : Outcome} (h : Concludes s st o s')
    (running : s.running = true) : s'.slots = s.slots := by
  have failed : ∀ s₁ f, s.Unwritten s₁ → s.Unwritten (s₁.failedWith f) := by
    intro s₁ f before
    let s₂ := { s₁ with errorCount := s₁.errorCount + 1, status := .failed, error? := some f.message }
    let line := "Execution failed: " ++ f.message
    have counted : s.Unwritten s₂ := before.trans (.of_eq rfl rfl)
    have said := counted.trans (Session.say_confined line (counted.running.trans running))
    have reported : s.Unwritten ((s₂.say line).report .error "engine" line) := said.trans (.of_eq rfl rfl)
    exact reported.trans (Session.tell_confines 2 _ _ _ _ (reported.running.trans running))
  suffices unwritten : s.Unwritten s' from unwritten.slots
  cases h with
  | finished =>
      unfold Session.finished
      split
      · have told : s.Unwritten { s with status := .stopped } := .of_eq rfl rfl
        exact told.trans (Session.say_confined _ running)
      · have told : s.Unwritten { s with status := .completed, successCount := s.successCount + 1 } :=
          .of_eq rfl rfl
        exact told.trans (Session.say_confined _ running)
  | failed f => exact failed s f (.refl s)
  | cancelled st =>
      have told : s.Unwritten { s with stopRequested := true, status := .stopped } := .of_eq rfl rfl
      exact told.trans (Session.say_confined _ running)
  | outOfTime st ms => exact failed { s with stopRequested := true } _ (.of_eq rfl rfl)

/-- Whether a command writes to no slot of a run in progress. -/
def Command.Spares {α : Type} : Command α → Prop
  | .act f => ∀ s, s.running = true → (f s).2.slots = s.slots
  | _ => True

namespace World

open Session (Confined)

variable {α : Type} {w w' : World α} {c : Course} {task : Nat}

/-! ### Turns beside a run that has started nothing -/

theorem attemptTurn_confined {a : Attempt} (here : w.work? task = some (.attempt a)) (cancelled : Bool)
    (running : w.session.running = true) : Confined a.process.context.run a.process.context.elementId w.session
      (w.attemptTurn task a cancelled).session := by
  rcases attemptTurn_session here cancelled with same | same | same
  · exact same ▸ .refl _
  · exact same ▸ a.process.resume_confined running
  · exact same ▸ a.process.interrupt_confined running

theorem begin_slots (w : World α) (task : Nat) (r : Request) (running : w.session.running = true) :
    ∃ e w', w.begin task r = (.inl e, w') ∧ w'.session.slots = w.session.slots ∧
      w'.session.running = true := by
  unfold World.begin
  cases r.options with
  | error f => exact ⟨_, _, rfl, rfl, running⟩
  | ok options =>
      simp only [running, if_true]
      have told : w.session.Unwritten (Session.tell 2 w.session options r.listener (.error .inProgress)) :=
        Session.tell_confines 2 _ _ _ _ running
      exact ⟨_, _, rfl, told.slots, told.running.trans running⟩

theorem runnerTurn_slots (w : World α) (task : Nat) {m : RunnerMode}
    (free : (Work.runner m : Work α).pending? = none) (cancelled : Bool) (running : w.session.running = true) :
    (w.runnerTurn task m cancelled).session.slots = w.session.slots := by
  cases m with
  | «over» e => rfl
  | pending p => cases free
  | fresh r =>
      cases cancelled with
      | true => exact congrArg Session.slots (w.runnerOver_quiet task _).session
      | false =>
          obtain ⟨e, w', begun, slots, _⟩ := w.begin_slots task r running
          unfold runnerTurn
          simp only [begun]
          exact (congrArg Session.slots (w'.runnerOver_quiet task e).session).trans slots

theorem command_slots (commands : List (Command α)) (proper : ∀ x ∈ commands, x.Proper)
    (spares : ∀ x ∈ commands, x.Spares) (w : World α) (task : Nat) (started : List Nat)
    (running : w.session.running = true) : (w.command task started commands).session.slots = w.session.slots := by
  induction commands generalizing w started with
  | nil => exact congrArg Session.slots (w.commandNil_quiet task started).session
  | cons x rest ih =>
      have first := proper x List.mem_cons_self
      have spared := spares x List.mem_cons_self
      have next : ∀ (w₁ : World α) started₁, w₁.session.slots = w.session.slots → w₁.session.running = true →
          (w₁.command task started₁ rest).session.slots = w.session.slots := by
        intro w₁ started₁ slots running
        exact (ih (fun x member => proper x (List.mem_cons_of_mem _ member))
          (fun x member => spares x (List.mem_cons_of_mem _ member)) w₁ started₁ running).trans slots
      cases x with
      | act f =>
          have acted : Deeds w.session (f w.session).2 := first w.session
          exact next ((w.withSession (f w.session).2).reply (.acted (f w.session).1)) started
            (spared w.session running) (acted.runsOn.running.trans running)
      | wait length =>
          unfold World.command
          exact congrArg Session.slots (sleep_quiet (w.withWork task _) task length).session
      | execute r =>
          obtain ⟨e, w', begun, slots, running'⟩ := w.begin_slots task r running
          unfold World.command
          simp only [begun]
          exact next (w'.reply (.executed e)) started slots running'
      | start r => exact next (w.spawn (.runner (.fresh r)) []).2 _ rfl running
      | cancel =>
          cases started with
          | nil => exact next w [] rfl running
          | cons runner older =>
              have quiet := w.cancel_quiet runner
              exact next (w.cancel runner) (runner :: older) (congrArg Session.slots quiet.session)
                ((congrArg Session.running quiet.session).trans running)
      | join =>
          cases started with
          | nil => exact next w [] rfl running
          | cons runner older =>
              cases ceased : w.execution? runner with
              | some e =>
                  simp only [World.command, ceased]
                  exact next (w.reply (.executed e)) older rfl running
              | none =>
                  have quiet := (w.park_quiet task).trans (watch_quiet _ runner [.wake task])
                  simp only [World.command, ceased]
                  exact congrArg Session.slots quiet.session

theorem callerTurn_slots (w : World α) (task : Nat) {k : Caller α} (free : (Work.caller k).pending? = none)
    (proper : ∀ x ∈ k.commands, x.Proper) (spares : ∀ x ∈ k.commands, x.Spares) (cancelled : Bool)
    (running : w.session.running = true) : (w.callerTurn task k cancelled).session.slots = w.session.slots := by
  obtain ⟨commands, mode, started⟩ := k
  cases mode with
  | «over» => rfl
  | ready => exact command_slots commands proper spares w task started running
  | waiting => exact command_slots commands proper spares (w.reply .waited) task started running
  | executing p => cases free
  | joining runner =>
      unfold callerTurn
      simp only
      split
      · exact command_slots commands proper spares (w.reply _) task started running
      · exact command_slots commands proper spares w task started running

/-- A turn of the traversal or the logic of a run that has started nothing leaves its slots alone, as long as the
traversal is to open or is over. -/
theorem Shows.works_slots (h : Shows none w c) {x : Work α} (here : w.work? task = some x) (inner : x.Inner)
    (cancelled : Bool) (running : w.session.running = true) (unstarted : w.session.processed = [])
    (shut : ∀ k, x = .walk k → k.mode = .opening ∨ ∃ e, k.mode = .over e) :
    (w.works task x cancelled).session.slots = w.session.slots := by
  cases inner with
  | attempt a =>
      have known : a.process.Known w.session := h.session ▸ h.known task a here
      exact (attemptTurn_confined here cancelled running).slots (known.earlier unstarted)
  | walk k =>
      obtain ⟨t, mode⟩ := k
      have ends : ∀ s e, ((w.withSession s).walkOver task e).session = s := fun s e => by
        obtain ⟨_, put, _⟩ := walkOver_comes here s e
        exact put.session
      rcases shut _ rfl with rfl | ⟨e, rfl⟩
      · cases cancelled with
        | true => exact congrArg Session.slots (ends w.session .cancelled)
        | false =>
            have opened : w.session.Unwritten w.session.opening.2 := Session.opening_confined running
            have slots := opened.slots
            show (w.walkTurn task ⟨t, .opening⟩ false).session.slots = w.session.slots
            unfold World.walkTurn
            simp only
            split <;> rename_i same <;> rw [same] at slots
            · exact slots
            · exact (congrArg Session.slots (ends _ _)).trans slots
      · rfl

/-- A step within a run leaves its traversal and its logic where they are, or is a turn of one of these. -/
theorem StepsOn.works (on : w.StepsOn w') (h : Shows none w c) :
    Beside w w' ∧ Deeds w.session w'.session ∧
      (w.Calls Command.Spares → w'.session.slots = w.session.slots) ∨
    ∃ w₁ task x cancelled, Quiet w w₁ ∧ Shows none w₁ c ∧ w₁.session.running = true ∧
      w₁.work? task = some x ∧ x.Inner ∧ w' = w₁.works task x cancelled := by
  rcases h.step_works on.step with quiet | ⟨w₁, task, x, cancelled, quiet, shown, here, rfl⟩
  · exact .inl ⟨.quiet quiet, quiet.session ▸ .refl, fun _ => congrArg Session.slots quiet.session⟩
  have running : w₁.session.running = true := quiet.session ▸ on.running
  have free := shown.unwaiting here cancelled running on.still (quiet.session ▸ on.run)
  have beside : ¬x.Inner → Beside w (w₁.works task x cancelled) := fun outer =>
    (Beside.quiet quiet).trans (shown.beside here outer cancelled running free)
  rw [← quiet.session]
  cases x with
  | caller k =>
      have proper := shown.proper task _ here
      exact .inl ⟨beside (Work.caller_outer k), w₁.callerTurn_deeds task free proper cancelled running,
        fun calls => w₁.callerTurn_slots task free proper (calls.quiet quiet task k here) cancelled running⟩
  | runner m =>
      exact .inl ⟨beside (Work.runner_outer m), w₁.runnerTurn_deeds task free cancelled running,
        fun _ => w₁.runnerTurn_slots task free cancelled running⟩
  | walk k => exact .inr ⟨w₁, task, _, cancelled, quiet, shown, running, here, .walk k, rfl⟩
  | attempt a => exact .inr ⟨w₁, task, _, cancelled, quiet, shown, running, here, .attempt a, rfl⟩

end World

/-! ### Runs that are to open -/

/-- No stage leads to the opening of a run. -/
theorem Goes.leaves {s s' : Session} {st st' : Stage} (h : Goes s st st' s') : st' ≠ .opening := by
  intro opening
  cases h with
  | torn _ _ ends =>
      rw [opening] at ends
      rcases ends with ends | ends <;> cases ends
  | @moved t m => cases m <;> cases opening
  | @answered t a given? m => cases m <;> cases opening
  | _ => cases opening

theorem Passes.opening {calm : Prop} {c c' : Course} (h : Passes calm c c') (sound : c.Sound)
    (opening : c'.stage = .opening) : c.stage = .opening := by
  cases h with
  | rest => exact opening
  | next _ next => exact absurd opening (Stage.next_goes sound.1 sound.2 next).leaves
  | cut _ _ cut => exact absurd opening (cut.goes sound.2).leaves
  | aside => exact opening

/-- Whether a run has started no element. -/
structure Session.Unstarted (s : Session) : Prop where
  processed : s.processed = []
  steps : s.steps = 0
  history : s.history = []

theorem Session.Unstarted.kept {s s' : Session} (h : s.Unstarted) (k : Kept s s') : s'.Unstarted :=
  ⟨k.processed.trans h.processed, k.steps.trans h.steps, k.history.trans h.history⟩

/-- A run that is to open has started nothing. -/
theorem unstarted_law (g : Graph) : Law g fun s st => st = .opening → s.Unstarted where
  begun fresh _ _ := ⟨fresh.processed, fresh.steps, fresh.history⟩
  kept kept unstarted opening := (unstarted opening).kept kept
  closed unstarted opening := { unstarted opening with }
  goes _ goes _ _ opening := absurd opening goes.leaves

namespace World

variable {α : Type} {w w' : World α} {c : Course} {task : Nat}

/-- The traversal of a run that is to open. -/
theorem AtStage.opening (h : w.AtStage .opening) : ∃ i t, w.walk? = some i ∧
    w.work? i = some (.walk ⟨t, .opening⟩) := by
  unfold AtStage at h
  split at h
  · cases h
  · rename_i i walk
    obtain ⟨⟨t, mode⟩, here, stage⟩ := h
    refine ⟨i, t, walk, ?_⟩
    cases mode <;> simp only [stageOf, Option.map_eq_some_iff, Option.some.injEq, reduceCtorEq, and_false,
      exists_false] at stage
    exact here

/-- A step within a run leaves the stage as it is, with deeds at most, or passes a turn of the course. -/
theorem StepsOn.passes (on : w.StepsOn w') (h : Shows none w c) : ∃ c', Shows none w' c' ∧
    (c'.stage = c.stage ∧ Deeds w.session w'.session ∨ Passes False c c') := by
  rcases on.works h with ⟨beside, deeds, _⟩ | ⟨w₁, task, x, cancelled, _, shown, _, here, inner, rfl⟩
  · obtain ⟨c', _, came⟩ := h.step on.step
    exact ⟨c', came, .inl ⟨AtStage.unique came.stage (beside.atStage h.stage), deeds⟩⟩
  · obtain ⟨c', passes, shown'⟩ := shown.works_passes here cancelled inner
    exact ⟨c', shown', .inr passes⟩

/-- A step within a run that has started nothing leaves its slots alone, as long as the traversal is to open
or is over. -/
theorem StepsOn.slots (on : w.StepsOn w') (h : Shows none w c) (calls : w.Calls Command.Spares)
    (unstarted : w.session.processed = [])
    (shut : ∀ i k, w.walk? = some i → w.work? i = some (.walk k) → k.mode = .opening ∨ ∃ e, k.mode = .over e) :
    w'.session.slots = w.session.slots := by
  rcases on.works h with ⟨_, _, slots⟩ | ⟨w₁, task, x, cancelled, quiet, shown, running, here, inner, rfl⟩
  · exact slots calls
  · rw [← quiet.session] at unstarted ⊢
    refine shown.works_slots here inner cancelled running unstarted ?_
    rintro k rfl
    by_cases walk : w₁.walk? = some task
    · exact shut task k (quiet.walk?.symm.trans walk) ((quiet.work task).symm.trans here)
    · exact .inr (shown.walks task k here (.inl walk))

section Run

variable {graph : Graph} {registry : Registry} {draws : List Double} {commands : List (Command α)}

theorem Leads.unstarted (steps : (ofCommands (Session.ofGraph graph registry draws) commands).Leads w)
    (proper : ∀ x ∈ commands, x.Proper) (running : w.session.running = true) (opening : w.AtStage .opening) :
    w.session.Unstarted := by
  obtain ⟨c, shown, holds⟩ := World.Leads.shows (unstarted_law graph) proper steps
  have unstarted := holds.here (holds.started (shown.session ▸ running))
  rw [← shown.session] at unstarted
  exact unstarted (AtStage.unique shown.stage opening)

end Run

end World

end BlockGraph
