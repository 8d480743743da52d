import BlockGraph.Proofs.Admission
import BlockGraph.Proofs.Calls
import BlockGraph.Proofs.HabitTurns
import BlockGraph.Run.Snapshot
/-!
Resets: what becomes of a session that was reset, until it is taken for another run. Logic of earlier runs that
is still at work may log, and what it handed over may be recorded; nothing else of a run comes to be seen. When
no such logic is left, the session stays as a new one.
-/
namespace BlockGraph

namespace Session

/-- Whether nothing of a run is to be seen in a session, but for its log and its slots. -/
structure Idle (s : Session) : Prop where
  running : s.running = false
  stopRequested : s.stopRequested = false
  status : s.status = .idle
  processed : s.processed = []
  steps : s.steps = 0
  started : s.started = false
  ended : s.ended = false
  error? : s.error? = none
  errorCount : s.errorCount = 0
  successCount : s.successCount = 0

/-- Whether nothing of a run is to be seen in a session at all. -/
structure Blank (s : Session) : Prop extends s.Idle where
  log : s.log = #[]
  slots : s.slots = []

theorem cleared_blank {s : Session} (idle : s.running = false) : s.cleared.Blank where
  running := idle
  stopRequested := rfl
  status := rfl
  processed := rfl
  steps := rfl
  started := rfl
  ended := rfl
  error? := rfl
  errorCount := rfl
  successCount := rfl
  log := rfl
  slots := s.cleared_slots

theorem ofGraph_blank (graph : Graph) (registry : Registry) (draws : List Double) :
    (ofGraph graph registry draws).Blank :=
  ⟨⟨rfl, rfl, rfl, rfl, rfl, rfl, rfl, rfl, rfl, rfl⟩, rfl, rfl⟩

/-- What is seen of an idle session is what is seen of a new one with its log and its slots. -/
theorem Idle.toValue_eq {s : Session} (h : s.Idle) (graph : Graph) (registry : Registry) (draws : List Double)
    (clock : Value) : s.toValue clock =
      { ofGraph graph registry draws with log := s.log, stores := #[s.slots] }.toValue clock := by
  simp only [toValue, processedSorted, showsEnd, timed, h.running, h.status, h.processed, h.steps, h.started,
    h.ended, h.error?, h.errorCount, h.successCount]
  rfl

/-- What is seen of a blank session is what is seen of a new one. -/
theorem Blank.toValue_eq {s : Session} (h : s.Blank) (graph : Graph) (registry : Registry) (draws : List Double)
    (clock : Value) : s.toValue clock = (ofGraph graph registry draws).toValue clock := by
  rw [h.toIdle.toValue_eq graph registry draws, h.log, h.slots]
  rfl

/-! ### Small changes -/

/-- Whether sessions stay as a test wants them unless they run. -/
def Stays (P : Session → Prop) (s s' : Session) : Prop := P s ∨ s.running = true → P s' ∨ s'.running = true

namespace Stays

variable {P : Session → Prop} {s s' : Session}

theorem of_imp (passes : P s → P s') (running : s'.running = s.running) : Stays P s s' := by
  rintro (before | on)
  · exact .inl (passes before)
  · exact .inr (running.trans on)

/-- What happens only in a session that runs. -/
theorem of_running (on : s'.running = true) : Stays P s s' := fun _ => .inr on

theorem reacts {P : Session → Prop} (cleared : ∀ s : Session, s.running = false → P s.cleared)
    (reported : ∀ (s : Session) journal, P s → P { s with journal })
    (told : ∀ (s : Session) heard, P s → P { s with heard }) : Reacts (Stays P) where
  refl _ := id
  trans h h' before := h' (h before)
  reported s journal := of_imp (reported s journal) rfl
  stopped s line active := by
    have on : s.running = true := running_of_active active
    exact of_running on
  told s n line := of_imp (told s _) rfl
  reset s idle _ := .inl (cleared s idle)

theorem begins {P : Session → Prop} (reacts : Reacts (Stays P)) (told : ∀ (s : Session) heard, P s → P { s with heard })
    (spoiled : ∀ (s : Session) options listener, s.running = false → P { s.cleared with options, listener }) :
    Begins (Stays P) where
  toReacts := reacts
  refused s _ _ := of_imp (told s _) rfl
  spoiled s options listener idle _ := .inl (spoiled s options listener idle)
  taken s options listener bindings _ := of_running (World.taken_running s options listener bindings)

theorem idle_visits : Visits (Stays Idle) where
  toReacts := reacts (fun _ idle => (cleared_blank idle).toIdle) (fun _ _ h => { h with })
    fun _ _ h => { h with }
  logged _ _ _ := of_imp (fun h => { h with }) rfl
  heard _ _ _ _ := of_imp (fun h => { h with }) rfl
  noted _ _ := of_imp (fun h => { h with }) rfl
  altered _ _ _ := of_imp (fun h => { h with }) rfl
  counted _ on := of_running on
  joined _ _ on := of_running on
  opened _ _ := of_imp (fun h => { h with }) rfl

theorem idle_begins : Begins (Stays Idle) :=
  begins idle_visits.toReacts (fun _ _ h => { h with }) fun _ _ _ idle => { cleared_blank idle with }

theorem blank_begins : Begins (Stays Blank) :=
  begins (reacts (fun _ => cleared_blank) (fun _ _ h => { h with }) fun _ _ h => { h with })
    (fun _ _ h => { h with }) fun _ _ _ idle => { cleared_blank idle with }

end Stays

end Session

open Session (Stays)

/-! ### Steps -/

/-- Whether logic that works at this is over. -/
def Work.Ceased {α : Type} : Work α → Prop
  | .attempt a => ∃ y, a.mode = .over y
  | .walk k => ∃ e, k.mode = .over e
  | _ => True

namespace World

variable {α : Type} {w w' : World α} {c : Course} {task : Nat}

/-- Whether all traversals and all logic in a world are over. -/
def Vacated (w : World α) : Prop := ∀ i x, w.work? i = some x → x.Ceased

/-- Logic that is over does nothing in its turn. -/
theorem works_ceased {x : Work α} (inner : x.Inner) (ceased : x.Ceased) (cancelled : Bool) :
    w.works task x cancelled = w := by
  cases inner with
  | walk k =>
      obtain ⟨t, mode⟩ := k
      obtain ⟨e, rfl⟩ := ceased
      rfl
  | attempt a =>
      obtain ⟨p, collected?, mode⟩ := a
      obtain ⟨y, rfl⟩ := ceased
      rfl

/-- In a world whose session does not run nobody waits for an execution. -/
theorem Shows.unawaited (h : Shows none w c) (idle : w.session.running = false) {x : Work α}
    (here : w.work? task = some x) : x.pending? = none := by
  rw [Option.eq_none_iff_forall_ne_some]
  intro p waits
  have pending : w.pending? task = some p := by rw [pending?, here]; exact waits
  have running := (h.waiting pending).1
  rw [← h.session, idle] at running
  cases running

/-- A turn of a caller, or of an execution beside it, in a world whose session does not run. -/
theorem Shows.outer_begins {R : Session → Session → Prop} (begins : BlockGraph.Begins R)
    (altered : ∀ s registry, R s { s with registry }) (h : Shows none w c) (calls : w.Calls Command.Handles)
    (idle : w.session.running = false) {x : Work α} (here : w.work? task = some x) (outer : ¬x.Inner)
    (cancelled : Bool) : R w.session (w.works task x cancelled).session := by
  have free := h.unawaited idle here
  cases x with
  | walk k => exact absurd (.walk k) outer
  | attempt a => exact absurd (.attempt a) outer
  | runner m => exact begins.runnerTurn free cancelled
  | caller k =>
      exact begins.callerTurn free (fun y member => (calls task k here y member).respects begins.toReacts altered) cancelled

/-- An idle session stays so in a step, unless it is taken for a run. -/
theorem Shows.step_idle (h : Shows none w c) (calls : w.Calls Command.Handles) (idle : w.session.Idle)
    (step : w.step = some w') : w'.session.Idle ∨ w'.session.running = true := by
  rcases h.step_works step with quiet | ⟨w₁, task, x, cancelled, quiet, shown, here, rfl⟩
  · exact .inl (quiet.session.symm ▸ idle)
  have idle : w₁.session.Idle := quiet.session.symm ▸ idle
  suffices Stays Session.Idle w₁.session (w₁.works task x cancelled).session from this (.inl idle)
  by_cases inner : x.Inner
  · exact World.works_drifts here inner cancelled _ Stays.idle_visits fun _ _ _ =>
      .of_imp (fun h => { h with }) rfl
  · exact shown.outer_begins Stays.idle_begins (fun _ _ => .of_imp (fun h => { h with }) rfl)
      (calls.quiet quiet) idle.running here inner cancelled

/-- A blank session in which no logic is left stays so in a step, unless it is taken for a run. -/
theorem Shows.step_blank (h : Shows none w c) (calls : w.Calls Command.Handles) (blank : w.session.Blank)
    (vacated : w.Vacated) (step : w.step = some w') :
    w'.session.Blank ∧ w'.Vacated ∨ w'.session.running = true := by
  have still : ∀ {w'}, Quiet w w' → w'.session.Blank ∧ w'.Vacated := fun quiet =>
    ⟨quiet.session.symm ▸ blank, fun i x here => vacated i x ((quiet.work i).symm.trans here)⟩
  rcases h.step_works step with quiet | ⟨w₁, task, x, cancelled, quiet, shown, here, rfl⟩
  · exact .inl (still quiet)
  obtain ⟨blank, vacated⟩ := still quiet
  have outer : ¬x.Inner → (w₁.works task x cancelled).session.Blank ∧ (w₁.works task x cancelled).Vacated ∨
      (w₁.works task x cancelled).session.running = true := by
    intro outer
    have stays := shown.outer_begins Stays.blank_begins (fun _ _ => .of_imp (fun h => { h with }) rfl)
      (calls.quiet quiet) blank.running here outer cancelled (.inl blank)
    refine stays.imp_left fun blank => ⟨blank, fun i y there => ?_⟩
    have inherits : Inherits Work.Inner w₁ (w₁.works task x cancelled) :=
      .works (fun _ inner => inner) outer cancelled fun _ => blank.running
    cases y with
    | walk k => exact vacated i _ (inherits i _ (.walk k) there)
    | attempt a => exact vacated i _ (inherits i _ (.attempt a) there)
    | _ => exact trivial
  by_cases inner : x.Inner
  · rw [works_ceased inner (vacated task x here)]
    exact .inl ⟨blank, vacated⟩
  · exact outer inner

/-- What a step leaves as it is unless the session is taken for a run, any number of steps leave so. -/
theorem LeadsIdly.keeps {P : World α → Prop} (leads : w.LeadsIdly w') (here : P w)
    (step : ∀ {w₁ w₂ : World α}, w.LeadsIdly w₁ → P w₁ → w₁.step = some w₂ → P w₂ ∨ w₂.session.running = true) :
    P w' ∨ w'.session.running = true := by
  induction leads with
  | refl => exact .inl here
  | tail leads next ih =>
      obtain ⟨idle, next⟩ := next
      rcases ih with before | on
      · exact step leads before next
      · rw [idle] at on
        cases on

theorem LeadsIdly.leads (leads : w.LeadsIdly w') : w.Leads w' :=
  Relation.ReflTransGen.mono (fun _ _ step => step.2) _ _ leads

end World

/-- After a reset, in the same turn of a caller, a session is blank until it is taken for a run. From then on,
and until it is taken for another one, only its log and its slots may still change, whatever older logic does;
when no older logic is at work, they do not. -/
theorem run_stays_idle {α : Type} {graph : Graph} {registry : Registry} {draws : List Double}
    {commands : List (Command α)} (handles : ∀ x ∈ commands, x.Handles) {w : World α}
    (steps : (World.ofCommands (Session.ofGraph graph registry draws) commands).Leads w) :
    (∀ s', w.session.reset? = some s' → ∀ task started (rest : List (Command α)), (∀ x ∈ rest, x.Handles) →
      let after := ((w.withSession s').command task started rest).session
      after.Blank ∨ after.running = true) ∧
    (w.session.Idle → ∀ w', w.LeadsIdly w' → w'.session.running = false →
      w'.session.Idle ∧
      (∀ clock, w'.session.toValue clock = { Session.ofGraph graph registry draws with
        log := w'.session.log, stores := #[w'.session.slots] }.toValue clock) ∧
      (w.session.Blank → w.Vacated →
        ∀ clock, w'.session.toValue clock = (Session.ofGraph graph registry draws).toValue clock)) := by
  have stored : 0 < (Session.ofGraph graph registry draws).stores.size := Nat.succ_pos 0
  have proper : ∀ x ∈ commands, x.Proper := fun x member => (handles x member).proper
  constructor
  · intro s' free task started rest handles
    obtain ⟨idle, rfl⟩ := Session.cleared_of_reset? free
    have acts : ∀ x ∈ rest, x.Respects (Stays Session.Blank) := fun x member =>
      (handles x member).respects Stays.blank_begins.toReacts fun _ _ => .of_imp (fun h => { h with }) rfl
    exact Stays.blank_begins.command rest acts _ task started (.inl (Session.cleared_blank idle))
  · intro idle w' leads still
    have shows : ∀ {w₁}, w.LeadsIdly w₁ → (∃ c, World.Shows none w₁ c) ∧ w₁.Calls Command.Handles := by
      intro w₁ leads
      have steps := steps.trans leads.leads
      obtain ⟨c, _, shown⟩ := (World.ofCommands_shows stored proper).leads steps
      exact ⟨⟨c, shown⟩, World.Leads.calls stored proper handles steps⟩
    have off : w'.session.running ≠ true := by
      rw [still]
      exact Bool.false_ne_true
    have idle : w'.session.Idle := by
      refine (leads.keeps (P := fun w => w.session.Idle) idle fun before idle step => ?_).resolve_right off
      obtain ⟨⟨c, shown⟩, calls⟩ := shows before
      exact shown.step_idle calls idle step
    refine ⟨idle, idle.toValue_eq graph registry draws, fun blank vacated => ?_⟩
    have kept : w'.session.Blank ∧ w'.Vacated := by
      refine (leads.keeps (P := fun w => w.session.Blank ∧ w.Vacated) ⟨blank, vacated⟩
        fun before both step => ?_).resolve_right off
      obtain ⟨⟨c, shown⟩, calls⟩ := shows before
      exact shown.step_blank calls both.1 both.2 step
    exact kept.1.toValue_eq graph registry draws

/-! ### Logic that outlives its run -/

/-- A block that sleeps on when it is cancelled, and then logs. -/
def BlockDefinition.late : BlockDefinition :=
  { BlockDefinition.one with logic := .script .stream [.insist (.ms 100), .log (.text "late")] [] }

namespace World

/-- A caller resets a session. -/
def resetting : Command Unit := .act fun s => ((), s.reset?.getD s)

/-- A world in which a run of two such elements is cancelled, and the session is reset at once and once more
when all logic is over. -/
def forgotten : World Unit :=
  ofCommands (.ofGraph .pair ⟨[("one", .late)]⟩ [])
    [.start .plain, .wait (.ms 10), .cancel, .join, resetting, .wait (.ms 1000), resetting, .wait (.ms 10)]

theorem forgotten_handles : ∀ x ∈ [Command.start .plain, .wait (.ms 10), .cancel, .join, resetting,
    .wait (.ms 1000), resetting, .wait (.ms 10)], x.Handles := by
  have plain : Request.plain.Proper := Request.plain_proper (.execute .plain) List.mem_cons_self
  have resets : resetting.Handles := by
    intro s
    show s.Handled (s.reset?.getD s)
    cases free : s.reset? with
    | none => exact .seen
    | some s' => exact .reset free
  simp only [List.mem_cons, List.not_mem_nil, or_false, forall_eq_or_imp, forall_eq]
  exact ⟨plain, trivial, trivial, trivial, resets, trivial, resets, trivial⟩

/-- Whether a world takes some steps in which its session does not run. -/
def idlesOn : Nat → World Unit → Bool
  | 0, _ => true
  | n + 1, w => match w.step with
    | none => false
    | some w' => !w.session.running && idlesOn n w'

theorem leadsIdly_run {n : Nat} {w : World Unit} (h : idlesOn n w = true) : w.LeadsIdly (run n w) := by
  induction n generalizing w with
  | zero => exact .refl
  | succ n ih =>
      unfold idlesOn at h
      unfold run
      split at h
      · cases h
      · rename_i w' step
        obtain ⟨idle, rest⟩ := Bool.and_eq_true_iff.mp h
        simp only [step]
        exact .head ⟨by simpa using idle, step⟩ (ih rest)

/-- Whether the session of a world is found to be idle. -/
def isIdle (w : World Unit) : Bool :=
  let s := w.session
  !s.running && !s.stopRequested && s.status == .idle && s.processed.isEmpty && s.steps == 0 && !s.started &&
    !s.ended && s.error?.isNone && s.errorCount == 0 && s.successCount == 0

theorem idle_of_isIdle {w : World Unit} (h : w.isIdle = true) : w.session.Idle := by
  simp only [isIdle, Bool.and_eq_true, Bool.not_eq_true', beq_iff_eq, List.isEmpty_iff, Option.isNone_iff_eq_none,
    and_assoc] at h
  obtain ⟨running, stopRequested, status, processed, steps, started, ended, error?, errorCount, successCount⟩ := h
  exact { running, stopRequested, status, processed, steps, started, ended, error?, errorCount, successCount }

/-- Whether all logic of a world is found to be over. -/
def isVacated (w : World Unit) : Bool :=
  w.tasks.toList.all fun t => match t.work with
    | .attempt ⟨_, _, .over _⟩ | .walk ⟨_, .over _⟩ | .caller _ | .runner _ => true
    | _ => false

theorem vacated_of_isVacated {w : World Unit} (h : w.isVacated = true) : w.Vacated := by
  intro i x here
  obtain ⟨t, found, rfl⟩ := Option.map_eq_some_iff.mp here
  have ceased := List.all_eq_true.mp h t (Array.mem_toList_iff.mpr (Array.mem_of_getElem? found))
  split at ceased
  · rename_i work
    exact work ▸ ⟨_, rfl⟩
  · rename_i work
    exact work ▸ ⟨_, rfl⟩
  · rename_i work
    exact work ▸ trivial
  · rename_i work
    exact work ▸ trivial
  · cases ceased

/-- After the first reset the older logic logs a line; after the second one there is none left. -/
theorem forgotten_runs : (run 18 forgotten).isIdle = true ∧ idlesOn 6 (run 18 forgotten) = true ∧
    (run 6 (run 18 forgotten)).session.running = false ∧ (run 6 (run 18 forgotten)).session.log.size = 1 ∧
    (run 36 forgotten).isIdle = true ∧ (run 36 forgotten).session.log = #[] ∧
    (run 36 forgotten).session.slots.isEmpty = true ∧ (run 36 forgotten).isVacated = true ∧
    idlesOn 4 (run 36 forgotten) = true ∧ (run 4 (run 36 forgotten)).session.running = false := by
  decide +kernel

end World

/-- What is seen after the two resets: the line of the older logic and nothing else, and then nothing. -/
theorem run_stays_idle_forgotten :
    (∀ clock, (World.run 6 (World.run 18 .forgotten)).session.toValue clock =
      { Session.ofGraph .pair ⟨[("one", .late)]⟩ [] with
        log := (World.run 6 (World.run 18 .forgotten)).session.log,
        stores := #[(World.run 6 (World.run 18 .forgotten)).session.slots] }.toValue clock) ∧
    (World.run 6 (World.run 18 .forgotten)).session.log.size = 1 ∧
    ∀ clock, (World.run 4 (World.run 36 .forgotten)).session.toValue clock =
      (Session.ofGraph .pair ⟨[("one", .late)]⟩ []).toValue clock := by
  obtain ⟨idle, idles, still, logged, idle', log, slots, vacated, idles', still'⟩ := World.forgotten_runs
  have first := (run_stays_idle World.forgotten_handles (World.leads_run 18 World.forgotten)).2
    (World.idle_of_isIdle idle) _ (World.leadsIdly_run idles) still
  have idle' := World.idle_of_isIdle idle'
  have second := (run_stays_idle World.forgotten_handles (World.leads_run 36 World.forgotten)).2
    idle' _ (World.leadsIdly_run idles') still'
  exact ⟨first.2.1, logged, second.2.2 ⟨idle', log, List.isEmpty_iff.mp slots⟩
    (World.vacated_of_isVacated vacated)⟩

end BlockGraph
