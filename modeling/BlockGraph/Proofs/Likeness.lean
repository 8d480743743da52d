import BlockGraph.Proofs.Moves
/-!
Likenesses: relations between sessions that differ in nothing that a run goes by, but in who listens, in what was
logged and told, in how many steps may be taken, and in what is registered. Whatever is done to a session in a run
is done alike to sessions that are related, once a relation passes on a few small moves.
-/
namespace BlockGraph

/-- Whether a line tells of what was found out about the graph before a run. -/
def isDiagnosis (line : String) : Bool :=
  ["Warning: Found ", "Cycle ", "Found "].any fun p => p.toList.isPrefixOf line.toList

namespace Session

/-- A session that is told of as another one is, with the blocks of that. -/
def toldAs (s t : Session) : Session :=
  { s with
    registry := t.registry, options := t.options, listener := t.listener, log := t.log, journal := t.journal
    heard := t.heard }

/-- Whether a session that is active has not used up its steps, or may take no fewer than another one. -/
def Room (s t : Session) : Prop :=
  s.active = true → t.options.maxSteps = s.options.maxSteps ∨
    ((s.steps + 1 : Nat) : Int) ≤ s.options.maxSteps

end Session

/-- Whether a relation between sessions is kept by the small moves of runs. -/
structure Likeness (R : Session → Session → Prop) : Prop where
  toldAs : ∀ {s t}, R s t → t = s.toldAs t
  /-- What is told and registered is all that a relation depends on. -/
  put : ∀ {s t s'}, R s t → s'.toldAs s = s' → R s' (s'.toldAs t)
  delays : ∀ {s t}, R s t → t.options.stepDelay = s.options.stepDelay
  patience : ∀ {s t}, R s t → t.options.blockTimeout = s.options.blockTimeout
  lasts : ∀ {s t}, R s t → t.options.maxTime = s.options.maxTime
  more : ∀ {s t}, R s t → s.options.maxSteps ≤ t.options.maxSteps
  /-- Elements pass, or fail, the same checks. -/
  checked : ∀ {s t}, R s t → t.checkAll = s.checkAll
  unregistered : ∀ {s t} type, R s t → R { s with registry := (s.registry.unregister type).2 }
    { t with registry := (t.registry.unregister type).2 }
  reported : ∀ {s t} (lines : List JournalEntry), R s t →
    R { s with journal := s.journal ++ lines } { t with journal := t.journal ++ lines }
  said : ∀ {s t} line, isDiagnosis line = false → R s t → R (s.say line) (t.say line)
  notified : ∀ {s t} e, R s t → R (s.notify e) (t.notify e)

/-- Whether two results are the same, in sessions that are related. -/
structure Likens (R : Session → Session → Prop) {β : Type} (r r' : β × Session) : Prop where
  result : r'.1 = r.1
  session : R r.2 r'.2

/-- Whether logic has paused with the same, in sessions that are related. -/
structure Halts (R : Session → Session → Prop) {β γ : Type} (r r' : β × γ × Session) : Prop where
  pause : r'.1 = r.1
  rest : r'.2.1 = r.2.1
  session : R r.2.2 r'.2.2

theorem Likens.split {R : Session → Session → Prop} {β : Type} {b : β} {s : Session} {r : β × Session}
    (h : Likens R (b, s) r) : ∃ t, r = (b, t) ∧ R s t := by
  obtain ⟨b', t⟩ := r
  obtain ⟨rfl, after⟩ := h
  exact ⟨t, rfl, after⟩

theorem Halts.split {R : Session → Session → Prop} {β γ : Type} {b : β} {x : γ} {s : Session}
    {r : β × γ × Session} (h : Halts R (b, x, s) r) : ∃ t, r = (b, x, t) ∧ R s t := by
  obtain ⟨b', x', t⟩ := r
  obtain ⟨rfl, rfl, after⟩ := h
  exact ⟨t, rfl, after⟩

namespace Likeness

variable {R : Session → Session → Prop} (l : Likeness R) {s t : Session}
include l

/-- What does not depend on what is told and registered is the same. -/
theorem reads {β : Type} (h : R s t) (f : Session → β) (blind : ∀ s t, f (s.toldAs t) = f s) : f t = f s := by
  rw [l.toldAs h, blind]

/-- A change that has nothing to do with what is told and registered. -/
theorem update (h : R s t) (f : Session → Session) (blind : ∀ s t, f (s.toldAs t) = (f s).toldAs t) :
    R (f s) (f t) := by
  rw [l.toldAs h, blind]
  exact l.put h (blind s s).symm

theorem active (h : R s t) : t.active = s.active := l.reads h Session.active fun _ _ => rfl

theorem running (h : R s t) : t.running = s.running := l.reads h Session.running fun _ _ => rfl

theorem slotsOf (h : R s t) (run : Nat) : t.slotsOf run = s.slotsOf run :=
  l.reads h (·.slotsOf run) fun _ _ => rfl

theorem note (h : R s t) (x : Happening) : R (s.note x) (t.note x) := l.update h (·.note x) fun _ _ => rfl

theorem withSlots (h : R s t) (run : Nat) (slots : Slots) : R (s.withSlots run slots) (t.withSlots run slots) :=
  l.update h (·.withSlots run slots) fun _ _ => rfl

theorem report (h : R s t) (severity : Severity) (source message : String) :
    R (s.report severity source message) (t.report severity source message) :=
  l.reported [⟨severity, source, message⟩] h

theorem asked (h : R s t) : R { s with stopRequested := true } { t with stopRequested := true } :=
  l.update h (fun s => { s with stopRequested := true }) fun _ _ => rfl

theorem stop (h : R s t) : R s.stop t.stop := by
  unfold Session.stop Session.stopBy
  rw [l.active h]
  split
  · exact l.said "Execution stopped by user request" (by decide) (l.asked h)
  · exact h

/-! ### What a run does to a session -/

theorem completed (h : R s t) (id : String) : R (s.completed id) (t.completed id) :=
  l.notified _ (l.note (l.said _ (by simp [isDiagnosis, List.isPrefixOf]) h) _)

theorem record (h : R s t) (id : String) (e : Emission) : R (s.record id e) (t.record id e) :=
  l.update h (·.record id e) fun _ _ => rfl

theorem fired (h : R s t) (id : String) (e : Emission) : t.fired id e = s.fired id e :=
  l.reads h (·.fired id e) fun _ _ => rfl

theorem blockFailed (h : R s t) (e : Element) (cause : Fault) :
    Likens R (s.blockFailed e cause) (t.blockFailed e cause) := by
  have line : isDiagnosis ("Error executing element " ++ e.id ++ " (" ++ e.type ++ "): " ++ cause.message) = false := by
    simp [isDiagnosis, List.isPrefixOf]
  exact ⟨rfl, l.said _ line h⟩

theorem blockTimedOut (h : R s t) (e : Element) : Likens R (s.blockTimedOut e) (t.blockTimedOut e) := by
  unfold Session.blockTimedOut
  rw [l.patience h]
  exact ⟨rfl, l.said _ (by simp [isDiagnosis, List.isPrefixOf]) h⟩

theorem contextOf (h : R s t) (e : Element) : Likens R (s.contextOf e) (t.contextOf e) := by
  have opened := l.update h (fun s => s.withSlots s.run (s.slots.opened e.id)) fun _ _ => rfl
  unfold Session.contextOf
  simp only
  generalize s.withSlots s.run (s.slots.opened e.id) = s at opened
  generalize t.withSlots t.run (t.slots.opened e.id) = t at opened
  cases (copyProps e.props).outcome with
  | mk props lines =>
      have told := l.reported lines opened
      cases props with
      | error f => exact ⟨rfl, told⟩
      | ok props =>
          have same := l.reads told (fun s => (⟨e.id, e.type, Entries.overlay (s.collectInputs e.id) props, e.props,
            s.bindings, s.run⟩ : Context)) fun _ _ => rfl
          exact ⟨congrArg Except.ok same, told⟩

/-! ### The opening and the end of a run -/

theorem opening (diagnosed : R (if s.options.detectCycles then s.diagnose else s)
    (if t.options.detectCycles then t.diagnose else t)) : Likens R s.opening t.opening := by
  unfold Session.opening
  simp only
  generalize (if s.options.detectCycles then s.diagnose else s) = s at diagnosed
  generalize (if t.options.detectCycles then t.diagnose else t) = t at diagnosed
  have graph : t.graph = s.graph := l.reads diagnosed Session.graph fun _ _ => rfl
  have starts : ∀ {s t : Session} (entries : List String), R s t →
      R (s.say ("Starting execution from " ++ entries.length.repr ++ " entry point(s): " ++ ", ".intercalate entries))
        (t.say ("Starting execution from " ++ entries.length.repr ++ " entry point(s): " ++
          ", ".intercalate entries)) := fun entries h =>
    l.said _ (by simp [isDiagnosis, List.isPrefixOf]) h
  rw [l.checked diagnosed, graph]
  cases s.checkAll with
  | error f => exact ⟨rfl, diagnosed⟩
  | ok _ =>
      simp only
      cases s.graph.elements with
      | nil => exact ⟨rfl, l.said "No elements to execute" (by decide) diagnosed⟩
      | cons first rest =>
          simp only
          cases s.graph.entryPoints with
          | nil =>
              have line : isDiagnosis ("No entry points found - falling back to element " ++ first.id) = false := by
                simp [isDiagnosis, List.isPrefixOf]
              exact ⟨rfl, starts _ (l.said _ line diagnosed)⟩
          | cons entry entries => exact ⟨rfl, starts _ diagnosed⟩

theorem finished (h : R s t) : R s.finished t.finished := by
  have summary : t.summary = s.summary := l.reads h Session.summary fun _ _ => rfl
  have stopped := l.update h (fun s => { s with status := .stopped }) fun _ _ => rfl
  have completed := l.update h (fun s => { s with status := .completed, successCount := s.successCount + 1 })
    fun _ _ => rfl
  have stop : t.stopRequested = s.stopRequested := l.reads h Session.stopRequested fun _ _ => rfl
  unfold Session.finished
  split
  · rename_i on
    rw [if_pos (stop.trans on)]
    show R (Session.say _ ("Execution stopped after processing " ++ s.summary))
      (Session.say _ ("Execution stopped after processing " ++ t.summary))
    rw [summary]
    exact l.said _ (by simp [isDiagnosis, List.isPrefixOf]) stopped
  · rename_i off
    rw [if_neg (stop ▸ off)]
    show R (Session.say _ ("Execution completed successfully. Processed " ++ s.summary))
      (Session.say _ ("Execution completed successfully. Processed " ++ t.summary))
    rw [summary]
    exact l.said _ (by simp [isDiagnosis, List.isPrefixOf]) completed

theorem failedWith (h : R s t) (f : RunFault) : R (s.failedWith f) (t.failedWith f) := by
  have fails := l.update h (fun s =>
    { s with errorCount := s.errorCount + 1, status := .failed, error? := some f.message }) fun _ _ => rfl
  have line : isDiagnosis ("Execution failed: " ++ f.message) = false := by simp [isDiagnosis, List.isPrefixOf]
  exact l.notified _ (l.report (l.said _ line fails) _ _ _)

theorem aborted (h : R s t) : R s.aborted t.aborted := by
  have stops := l.update h (fun s => { s with stopRequested := true, status := .stopped }) fun _ _ => rfl
  exact l.said "Execution cancelled" (by decide) stops

theorem closed (h : R s t) : R s.closed t.closed := by
  have closes := l.update h (fun s => { s with running := false, stopRequested := false, ended := true })
    fun _ _ => rfl
  have told : "Execution " ++ t.status.name = "Execution " ++ s.status.name :=
    l.reads h (fun s => "Execution " ++ s.status.name) fun _ _ => rfl
  show R (Session.report _ _ _ ("Execution " ++ s.status.name)) (Session.report _ _ _ ("Execution " ++ t.status.name))
  rw [told]
  exact l.report closes _ _ _

end Likeness

end BlockGraph
