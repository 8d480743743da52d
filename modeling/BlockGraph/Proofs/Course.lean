import BlockGraph.Proofs.Stage
/-!
Courses: a session, how far the traversal in it has come, and the executions that ended. A course takes
turns: the traversal goes on, logic and callers do their deeds beside it, and executions begin and end.
`Law` states what a property of runs has to survive; it then holds at every turn and at every end.
-/
namespace BlockGraph

structure Course where
  session : Session
  stage : Stage
  ended : List Execution

/-- How the execution of a run ends, and what it says about the run then. -/
inductive Concludes (s : Session) : Stage → Outcome → Session → Prop
  | finished : Concludes s (.over .normal) .finished s.finished
  | failed (f : RunFault) : Concludes s (.over (.failed f)) (.failed f) (s.failedWith f)
  | cancelled (st : Stage) : Concludes s st .cancelled s.aborted
  | outOfTime (st : Stage) (ms : Double) : Concludes s st (.failed (.runTimeout ms))
      (({ s with stopRequested := true }).failedWith (.runTimeout ms))

/-- How an execution ends that comes to no run. -/
inductive Outcome.Refusal : Outcome → Prop
  | options (f : OptionsFault) : Refusal (.refused f)
  | inProgress : Refusal (.failed .inProgress)
  | shuttingDown : Refusal (.failed .shuttingDown)
  | bindings (f : Fault) : Refusal (.failed (.value f))
  | cancelled : Refusal .cancelled

/-- A turn of the traversal, or of something beside it. A calm traversal is left to itself. -/
inductive Passes (calm : Prop) : Course → Course → Prop
  | rest (c : Course) : Passes calm c c
  | next {s s' : Session} {st st' : Stage} (ended : List Execution) :
      st.next s = some (st', s') → Passes calm ⟨s, st, ended⟩ ⟨s', st', ended⟩
  | cut {s s' : Session} {st st' : Stage} (ended : List Execution) : ¬calm →
      Cut st s st' s' → Passes calm ⟨s, st, ended⟩ ⟨s', st', ended⟩
  | aside {s s' : Session} (st : Stage) (ended : List Execution) : ¬calm →
      Deeds s s' → Passes calm ⟨s, st, ended⟩ ⟨s', st, ended⟩

/-- A turn. -/
inductive Turn : Course → Course → Prop
  | passed {c c' : Course} : Passes False c c' → Turn c c'
  | begun {s : Session} (e : WalkEnd) (ended : List Execution) (options : Options)
      (listener : Listener) (bindings : Entries) : s.running = false → 0 < options.maxSteps →
      Turn ⟨s, .over e, ended⟩ ⟨s.taken options listener bindings, .opening, ended⟩
  /-- The variables of a run were no mapping, which is noticed when the last run is forgotten. -/
  | spoiled {s : Session} (e : WalkEnd) (ended : List Execution) (options : Options)
      (listener : Listener) : s.running = false →
      Turn ⟨s, .over e, ended⟩ ⟨{ s.cleared with options, listener }, .over e, ended⟩
  | refused (c : Course) (e : Execution) : e.session = c.session → e.outcome.Refusal →
      Turn c { c with ended := e :: c.ended }
  | concluded {s s' : Session} (st : Stage) (ended : List Execution) (e : Execution) :
      s.running = true → Concludes s st e.outcome s' → e.session = s'.closed →
      Turn ⟨s, st, ended⟩ ⟨s'.closed, st, e :: ended⟩

abbrev Turns : Course → Course → Prop := Relation.ReflTransGen Turn

namespace Course

/-- The course of a session before its first run. -/
def ofSession (s : Session) : Course := ⟨s, .over .normal, []⟩

/-- Whether all logic of a course is known. -/
def Sound (c : Course) : Prop := 0 < c.session.stores.size ∧ c.stage.Sound c.session

end Course

theorem Stage.Sound.retains {st : Stage} {s s' : Session} (sound : st.Sound s) (h : s.Retains s') :
    st.Sound s' := by
  refine ⟨Traversal.Known.retains sound.1 h, ?_⟩
  cases st with
  | awaiting t a given? => exact ⟨h.knows sound.2.1, sound.2.2⟩
  | closing t p insists? e =>
      have here : p.Known s := sound.2
      exact h.knows here
  | _ => trivial

/-! ### Running goes on -/

/-- Whether one session runs the same graph just when another one does, and then in the same run. -/
structure Session.RunsOn (s s' : Session) : Prop where
  graph : s'.graph = s.graph
  running : s'.running = s.running
  lasts : s.running = true → s.started = true → s'.started = true
  began : s'.started = true → s.started = true

theorem Session.RunsOn.trans {s₁ s₂ s₃ : Session} (h : s₁.RunsOn s₂) (h' : s₂.RunsOn s₃) :
    s₁.RunsOn s₃ where
  graph := h'.graph.trans h.graph
  running := h'.running.trans h.running
  lasts running started := h'.lasts (h.running.trans running) (h.lasts running started)
  began started := h.began (h'.began started)

theorem Session.RunsOn.of_eq {s s' : Session} (graph : s'.graph = s.graph)
    (running : s'.running = s.running) (started : s'.started = s.started) : s.RunsOn s' :=
  ⟨graph, running, fun _ => started.trans, started.symm.trans⟩

theorem Kept.runsOn {s s' : Session} (h : Kept s s') : s.RunsOn s' :=
  .of_eq h.graph h.running h.started

namespace Deeds

theorem runsOn {s s' : Session} (h : Deeds s s') : s.RunsOn s' := by
  rcases h.kept with kept | gone
  · exact kept.runsOn
  · refine ⟨Session.graph_deeds h, gone.running.trans gone.idle.symm, fun running => ?_, fun started => ?_⟩
    · rw [gone.idle] at running
      cases running
    · rw [gone.started] at started
      cases started

/-- Deeds after which a run has begun have not forgotten it. -/
theorem kept_of_started {s s' : Session} (h : Deeds s s') (started : s'.started = true) :
    Kept s s' := by
  rcases h.kept with kept | gone
  · exact kept
  · rw [gone.started] at started
    cases started

/-- Deeds leave the status to the run. -/
theorem status {s s' : Session} (h : Deeds s s') (running : s.running = true) :
    s'.status = s.status := by
  refine (Deeds.induct (P := fun s' => s'.running = true ∧ s'.status = s.status) ?_ h
    ⟨running, rfl⟩).2
  intro s₁ s₂ d ⟨on, same⟩
  cases d with
  | reset idle => rw [idle] at on; cases on
  | _ => exact ⟨on, same⟩

end Deeds

namespace Session

variable {s : Session}

theorem hears_runsOn (e : Event) : s.RunsOn (s.hears e) := by
  unfold hears
  split <;> exact .of_eq rfl rfl rfl

theorem note_runsOn (h : Happening) : s.RunsOn (s.note h) := .of_eq rfl rfl rfl

theorem starting_runsOn (id : String) : s.RunsOn (s.starting id) := by
  unfold starting hears
  split <;> exact .of_eq rfl rfl rfl

theorem traversing_runsOn (c : Connection) : s.RunsOn (s.traversing c) :=
  (note_runsOn _).trans (hears_runsOn _)

theorem completing_runsOn (id : String) : s.RunsOn (s.completing id) :=
  (note_runsOn _).trans (hears_runsOn _)

end Session

theorem Traversal.Visited.runsOn {t : Traversal} {s s' : Session} {id : String} {m : Move}
    (h : t.Visited s id m s') : s.RunsOn s' := by
  cases h with
  | failed f _ kept => exact (Session.starting_runsOn id).trans kept.runsOn
  | started frame _ kept _ _ _ => exact (Session.starting_runsOn id).trans kept.runsOn
  | _ => exact .of_eq rfl rfl rfl

theorem Stage.settle_runsOn (m : Move) (s : Session) : s.RunsOn (Stage.settle (m, s)).2 := by
  cases m <;> exact .of_eq rfl rfl rfl

theorem Traversal.Moved.runsOn {t : Traversal} {s s' : Session} {m : Move} (h : t.Moved s m s') :
    s.RunsOn s' := by
  cases h with
  | entered id rest _ _ _ visited => exact (Session.note_runsOn _).trans visited.runsOn
  | traversed frame outer c rest _ _ _ kept visited =>
      exact ((Session.traversing_runsOn c).trans kept.runsOn).trans visited.runsOn
  | went _ _ _ _ _ deeds _ => exact deeds.runsOn
  | recorded _ _ _ _ _ _ deeds _ => exact deeds.runsOn.trans (.of_eq rfl rfl rfl)
  | ended _ _ _ _ before after =>
      exact (before.runsOn.trans (Session.completing_runsOn _)).trans after.runsOn
  | delayed _ _ _ _ deeds _ => exact deeds.runsOn
  | failed _ _ deeds _ _ => exact deeds.runsOn
  | _ => exact .of_eq rfl rfl rfl

theorem Goes.runsOn {st st' : Stage} {s s' : Session} (h : Goes s st st' s') : s.RunsOn s' := by
  cases h with
  | opened deeds => exact deeds.runsOn
  | barred e deeds _ _ => exact deeds.runsOn
  | moved h => exact h.runsOn.trans (Stage.settle_runsOn _ _)
  | answered h => exact h.runsOn.trans (Stage.settle_runsOn _ _)
  | worked deeds _ => exact deeds.runsOn
  | delayed before after => exact (before.runsOn.trans (Session.completing_runsOn _)).trans after.runsOn
  | torn _ deeds _ _ => exact deeds.runsOn
  | cancelled _ => exact .of_eq rfl rfl rfl

/-! ### Beginnings and ends -/

/-- A session that has just been taken for a run. -/
structure Session.Fresh (s : Session) : Prop where
  running : s.running = true
  started : s.started = true
  processed : s.processed = []
  steps : s.steps = 0
  history : s.history = []
  slots : s.slots = []
  budget : 0 < s.options.maxSteps

namespace Session

theorem cleared_slots (s : Session) : s.cleared.slots = [] := by
  simp only [slots, slotsOf, Session.run, cleared, Array.size_push, Nat.add_sub_cancel,
    Array.getD_eq_getD_getElem?, Array.getElem?_push_size, Option.getD_some]

theorem error_deeds (s : Session) (f : RunFault) : Deeds s (s.notify (.error f)) := by
  rw [notify]
  exact tell_discreet 2 _ _ _ _ (.inr rfl)

/-- A run begins with nothing done and a line in its log. -/
theorem taken_fresh (s : Session) {options : Options} (listener : Listener) (bindings : Entries)
    (budget : 0 < options.maxSteps) :
    ∃ s', s'.Fresh ∧ s'.graph = s.graph ∧ s'.stores.size = s.stores.size + 1 ∧
      Kept s' (s.taken options listener bindings) := by
  let s' := { s.cleared with
    options, listener, bindings, running := true, status := .running, started := true }
  have fresh : s'.Fresh := ⟨rfl, rfl, rfl, rfl, rfl, s.cleared_slots, budget⟩
  have size : s'.stores.size = s.stores.size + 1 := Array.size_push _
  exact ⟨s', fresh, rfl, size, s.taken_kept options listener bindings⟩

theorem taken_retains (s : Session) {options : Options} (listener : Listener) (bindings : Entries)
    (budget : 0 < options.maxSteps) : s.Retains (s.taken options listener bindings) := by
  obtain ⟨s', _, _, size, kept⟩ := s.taken_fresh listener bindings budget
  refine .of_lt ?_
  rw [kept.size, size]
  exact Nat.lt_succ_self _

theorem cleared_size (s : Session) : s.stores.size < s.cleared.stores.size := by
  simp only [cleared, Array.size_push]
  exact Nat.lt_succ_self _

end Session

theorem Stage.opening_sound (s : Session) : Stage.opening.Sound s :=
  ⟨fun _ member => (List.not_mem_nil member).elim, trivial⟩

namespace Concludes

variable {s s' : Session} {st : Stage} {o : Outcome}

theorem finished_deeds (s : Session) : ∃ s₁, Kept s s₁ ∧ Deeds s₁ s.finished ∧
    s₁.status = if s.stopRequested then .stopped else .completed := by
  unfold Session.finished
  split
  · exact ⟨{ s with status := .stopped }, { Kept.refl s with }, Session.say_deeds _ _, rfl⟩
  · exact ⟨{ s with status := .completed, successCount := s.successCount + 1 },
      { Kept.refl s with }, Session.say_deeds _ _, rfl⟩

theorem failedWith_deeds (s : Session) (f : RunFault) : ∃ s₁, Kept s s₁ ∧ s₁.running = s.running ∧
    Deeds s₁ (s.failedWith f) ∧ s₁.status = .failed := by
  let s₁ := { s with errorCount := s.errorCount + 1, status := .failed, error? := some f.message }
  let line := "Execution failed: " ++ f.message
  have told : Deeds ((s₁.say line).report .error "engine" line) (s.failedWith f) :=
    Session.error_deeds _ f
  have said : Deeds s₁ ((s₁.say line).report .error "engine" line) :=
    (s₁.say_deeds line).trans (Session.report_deeds _ _ _ _)
  exact ⟨s₁, { Kept.refl s with }, rfl, said.trans told, rfl⟩

/-- What is said at the end keeps the run. -/
theorem kept (h : Concludes s st o s') (running : s.running = true) : Kept s s' := by
  have failed : ∀ (s : Session) f, s.running = true → Kept s (s.failedWith f) := by
    intro s f running
    obtain ⟨s₁, before, same, deeds, _⟩ := failedWith_deeds s f
    exact before.trans (deeds.kept_of_running (same.trans running))
  cases h with
  | finished =>
      obtain ⟨s₁, before, deeds, _⟩ := finished_deeds s
      exact before.trans (deeds.kept_of_running (before.running.trans running))
  | failed f => exact failed s f running
  | cancelled st =>
      have before : Kept s { s with stopRequested := true, status := .stopped } :=
        { Kept.refl s with stop := fun _ => rfl }
      exact before.trans ((Session.say_deeds _ _).kept_of_running running)
  | outOfTime st ms =>
      have before : Kept s { s with stopRequested := true } :=
        { Kept.refl s with stop := fun _ => rfl }
      exact before.trans (failed _ _ running)

/-- A run is completed only when its traversal came to its end and no stop was asked for. -/
theorem completed (h : Concludes s st o s') (running : s.running = true)
    (done : s'.status = .completed) : st = .over .normal ∧ o = .finished ∧ s.stopRequested = false := by
  have failed : ∀ (s : Session) f, s.running = true → (s.failedWith f).status ≠ .completed := by
    intro s f running
    obtain ⟨s₁, _, same, deeds, status⟩ := failedWith_deeds s f
    rw [deeds.status (same.trans running), status]
    exact nofun
  cases h with
  | finished =>
      obtain ⟨s₁, before, deeds, status⟩ := finished_deeds s
      rw [deeds.status (before.running.trans running), status] at done
      refine ⟨rfl, rfl, ?_⟩
      cases stop : s.stopRequested with
      | false => rfl
      | true => rw [stop] at done; cases done
  | failed f => exact absurd done (failed s f running)
  | cancelled st =>
      have said := (Session.say_deeds { s with stopRequested := true, status := .stopped }
        "Execution cancelled").status running
      rw [Session.aborted, said] at done
      cases done
  | outOfTime st ms => exact absurd done (failed _ _ running)

end Concludes

/-! ### Laws of runs -/

/-- What a property of the runs of a graph has to survive: their beginning, all that happens beside the
traversal, each turn of the traversal, and their end. -/
structure Law (g : Graph) (J : Session → Stage → Prop) : Prop where
  begun : ∀ {s}, s.Fresh → s.graph = g → J s .opening
  kept : ∀ {s s' st}, Kept s s' → J s st → J s' st
  closed : ∀ {s st}, J s st → J s.closed st
  goes : ∀ {s s' st st'}, 0 < s.stores.size → Goes s st st' s' → s'.started = true → J s st → J s' st'

/-- What a law says of an execution that ended: of the run it ended, or of the session it was refused
in. -/
inductive Execution.Ends (J : Session → Stage → Prop) (e : Execution) : Prop
  | refused (st : Stage) : e.outcome.Refusal → (e.session.started = true → J e.session st) → Ends J e
  | concluded (s s' : Session) (st : Stage) : s.running = true → s.started = true → J s st →
      Concludes s st e.outcome s' → e.session = s'.closed → Ends J e

namespace Law

variable {g : Graph} {J : Session → Stage → Prop}

/-- Whether a law holds of a course and of all executions in it that ended. -/
structure Holds (g : Graph) (J : Session → Stage → Prop) (c : Course) : Prop where
  sound : c.Sound
  graph : c.session.graph = g
  started : c.session.running = true → c.session.started = true
  here : c.session.started = true → J c.session c.stage
  ended : ∀ e ∈ c.ended, e.session.graph = g ∧ e.Ends J

variable {c c' : Course}

/-- Two laws at once. -/
theorem and {J' : Session → Stage → Prop} (law : Law g J) (law' : Law g J') :
    Law g fun s st => J s st ∧ J' s st where
  begun fresh graph := ⟨law.begun fresh graph, law'.begun fresh graph⟩
  kept kept h := ⟨law.kept kept h.1, law'.kept kept h.2⟩
  closed h := ⟨law.closed h.1, law'.closed h.2⟩
  goes stored goes started h := ⟨law.goes stored goes started h.1, law'.goes stored goes started h.2⟩

/-- What a law says of the session that an execution leaves behind: of a run that it ended, and when it
finished, of one whose traversal came to its end. -/
theorem after (law : Law g J) {e : Execution} (h : e.Ends J) :
    (e.outcome.Refusal ∨ e.session.started = true) ∧
      (e.session.started = true → ∃ st, J e.session st) ∧
      (e.outcome = .finished → J e.session (.over .normal)) := by
  cases h with
  | refused st refusal here =>
      refine ⟨.inl refusal, fun started => ⟨st, here started⟩, fun finished => ?_⟩
      rw [finished] at refusal
      cases refusal
  | concluded s s' st running started here how same =>
      have kept := how.kept running
      have there : J e.session st := same ▸ law.closed (law.kept kept here)
      have started : e.session.started = true := by
        rw [same]
        exact kept.started.trans started
      refine ⟨.inr started, fun _ => ⟨st, there⟩, fun finished => ?_⟩
      rw [finished] at how
      cases how
      exact there

/-- A law holds after the traversal has gone on. -/
theorem Holds.goes (law : Law g J) (h : Holds g J c) {s' : Session} {st' : Stage}
    (goes : Goes c.session c.stage st' s') : Holds g J ⟨s', st', c.ended⟩ := by
  obtain ⟨sound, retains⟩ := goes.sound h.sound.2
  have runs := goes.runsOn
  refine ⟨⟨Nat.lt_of_lt_of_le h.sound.1 retains.size, sound⟩, runs.graph.trans h.graph, fun running => ?_, fun started => ?_,
    h.ended⟩
  · have running : c.session.running = true := runs.running.symm.trans running
    exact runs.lasts running (h.started running)
  · exact law.goes h.sound.1 goes started (h.here (runs.began started))

/-- A law holds after deeds beside the traversal. -/
theorem Holds.aside (law : Law g J) (h : Holds g J c) {s' : Session} (deeds : Deeds c.session s') :
    Holds g J { c with session := s' } := by
  have retains := deeds.retains
  have runs := deeds.runsOn
  refine ⟨⟨Nat.lt_of_lt_of_le h.sound.1 retains.size, h.sound.2.retains retains⟩,
    runs.graph.trans h.graph, fun running => ?_, fun started => ?_, h.ended⟩
  · have running : c.session.running = true := runs.running.symm.trans running
    exact runs.lasts running (h.started running)
  · exact law.kept (deeds.kept_of_started started) (h.here (runs.began started))

/-- A law holds after every turn. -/
theorem Holds.turn (law : Law g J) (h : Holds g J c) (turn : Turn c c') : Holds g J c' := by
  cases turn with
  | passed passes =>
      cases passes with
      | rest => exact h
      | next ended next => exact Holds.goes law h (Stage.next_goes h.sound.1 h.sound.2 next)
      | cut ended _ cut => exact Holds.goes law h (cut.goes h.sound.2)
      | aside st ended _ deeds => exact Holds.aside law h deeds
  | @begun s e ended options listener bindings _ budget =>
      have stored : 0 < (s.taken options listener bindings).stores.size :=
        Nat.lt_of_lt_of_le h.sound.1 (s.taken_retains listener bindings budget).size
      obtain ⟨s', fresh, same, _, kept⟩ := s.taken_fresh listener bindings budget
      have graph : s'.graph = g := same.trans h.graph
      exact ⟨⟨stored, Stage.opening_sound _⟩, kept.graph.trans graph,
        fun _ => kept.started.trans fresh.started, fun _ => law.kept kept (law.begun fresh graph), h.ended⟩
  | @spoiled s e ended options listener idle =>
      have stored : 0 < ({ s.cleared with options, listener } : Session).stores.size := by
        simp only [Session.cleared, Array.size_push]
        exact Nat.succ_pos _
      refine ⟨⟨stored, Stage.over_sound e _⟩, h.graph, fun running => ?_, (by cases ·), h.ended⟩
      have running : s.running = true := running
      rw [idle] at running
      cases running
  | refused _ e same refusal =>
      refine ⟨h.sound, h.graph, h.started, h.here, fun other member => ?_⟩
      rcases List.mem_cons.mp member with rfl | old
      · refine ⟨same ▸ h.graph, .refused c.stage refusal fun started => ?_⟩
        exact same ▸ h.here (same ▸ started)
      · exact h.ended other old
  | @concluded s s' st ended e running how same =>
      have kept := how.kept running
      have started := h.started running
      have closing : s'.Retains s'.closed := ⟨Nat.le_refl _, fun known => known⟩
      have retains := kept.retains.trans closing
      have graph : s'.closed.graph = g := kept.graph.trans h.graph
      refine ⟨⟨Nat.lt_of_lt_of_le h.sound.1 retains.size, h.sound.2.retains retains⟩, graph, (by cases ·),
        fun _ => law.closed (law.kept kept (h.here started)), fun other member => ?_⟩
      rcases List.mem_cons.mp member with rfl | old
      · refine ⟨same ▸ graph, ?_⟩
        exact .concluded s s' st running started (h.here started) how same
      · exact h.ended other old

/-- A law holds of a session before its first run, and so after any number of turns. -/
theorem Holds.turns (law : Law g J) (h : Holds g J c) (turns : Turns c c') : Holds g J c' := by
  induction turns with
  | refl => exact h
  | tail _ turn ih => exact Holds.turn law ih turn

end Law

end BlockGraph
