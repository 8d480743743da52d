import BlockGraph.Proofs.Executions
/-!
The turns of callers, and the steps of a world: whatever a world comes to, it shows a course that has
taken turns from the start.
-/
namespace BlockGraph
namespace World

variable {α : Type} {task : Nat} {w : World α} {c : Course}

namespace Shows

/-- What an execution under way can rely on: the session runs, and nothing else waits for it. -/
theorem waiting (h : Shows none w c) {p : Pending} (waits : w.pending? task = some p) :
    c.session.running = true ∧ w.walk? = some p.walk ∧ ∀ i, i ≠ task → w.pending? i = none := by
  obtain ⟨running, walk⟩ := h.pending task p nofun waits
  refine ⟨running, walk, fun i other => Option.eq_none_iff_forall_ne_some.mpr fun q waits' => ?_⟩
  exact other (h.single i task q p nofun nofun waits' waits)

/-- A task of a caller comes to its end. -/
theorem putOver (h : Shows (some task) w c) {x : Work α} (outer : ¬x.Inner) (proper : x.Proper)
    (pending : x.pending? = none) (ended : ∀ e, x = .runner (.over e) → e ∈ c.ended) :
    Shows none ((w.withWork task x).finish task) c := by
  have shown := h.put outer proper (fun p waits => by rw [pending] at waits; cases waits) ended
  refine shown.quiet (finish_quiet _ task fun y here => ?_)
  rw [withWork_work, if_pos rfl] at here
  obtain ⟨_, _, rfl⟩ := Option.map_eq_some_iff.mp here
  exact fun k same => (outer (same ▸ .walk k)).elim

/-! ### Executions that run beside their caller -/

theorem runnerOver (h : Shows (some task) w c) {e : Execution} (ended : e ∈ c.ended) :
    Shows none (World.runnerOver task (e, w)) c :=
  h.putOver (Work.runner_outer _) trivial rfl fun e' same => by
    cases same
    exact ended

theorem runnerTurn (h : Shows none w c) {m : RunnerMode} (here : w.work? task = some (.runner m))
    (cancelled : Bool) : ∃ c', Turns c c' ∧ Shows none (w.runnerTurn task m cancelled) c' := by
  have turning : Shows (some task) w c := h.except fun x there => by
    cases Option.some.inj (here.symm.trans there)
    exact Work.runner_outer m
  cases m with
  | «over» e => exact ⟨c, .refl, h⟩
  | fresh r =>
      have proper : r.Proper := h.proper task _ here
      cases cancelled with
      | true =>
          obtain ⟨c', turn, shown, ended⟩ := turning.refused
            (e := ⟨.cancelled, w.session, 0, r.listener.number⟩) rfl .cancelled
          exact ⟨c', .single turn, shown.runnerOver ended⟩
      | false =>
          obtain ⟨c', turns, shown, _, begun⟩ := turning.begin here proper
          refine ⟨c', turns, ?_⟩
          unfold World.runnerTurn
          simp only
          split
          · rename_i e w' same
            rw [same] at shown begun
            exact shown.runnerOver begun
          · rename_i p w' same
            rw [same] at shown begun
            refine shown.put (Work.runner_outer _) trivial (fun q waits => ?_) fun e same => ?_
            · cases waits
              exact begun
            · cases same
  | pending p =>
      have waits : w.pending? task = some p := by rw [World.pending?, here]; rfl
      obtain ⟨running, walk, alone⟩ := h.waiting waits
      obtain ⟨c', turn, shown, ended⟩ := turning.conclude running walk alone cancelled
      exact ⟨c', .single turn, shown.runnerOver ended⟩

/-! ### The caller -/

/-- A caller starts an execution beside it. -/
theorem spawn (h : Shows (some task) w c) {r : Request}
    (proper : r.Proper) : Shows (some task) (w.spawn (.runner (.fresh r)) []).2 c := by
  have waits : ∀ i p, (w.spawn (.runner (.fresh r)) []).2.pending? i = some p →
      w.pending? i = some p := by
    intro i p here
    obtain ⟨x, here, waits⟩ := Option.bind_eq_some_iff.mp here
    rcases spawn_old here with ⟨_, rfl⟩ | old
    · cases waits
    · exact Option.bind_eq_some_iff.mpr ⟨x, old, waits⟩
  constructor
  case session => exact h.session
  case sound => exact h.sound
  case stage => exact h.stage.of_work rfl fun i x _ old => spawn_kept old _ _
  case walks =>
    intro i k here away
    rcases spawn_old here with ⟨_, same⟩ | old
    · cases same
    · exact h.walks i k old (away.imp_right (spawn_hasEnded w _ _ i))
  case known =>
    intro i a here
    rcases spawn_old here with ⟨_, same⟩ | old
    · cases same
    · exact h.known i a old
  case pending => exact fun i p apart here => h.pending i p apart (waits i p here)
  case single =>
    exact fun i j p q apart apart' here here' =>
      h.single i j p q apart apart' (waits i p here) (waits j q here')
  case ended =>
    rintro e (replied | ⟨i, here⟩)
    · exact h.ended e (.inl replied)
    · rcases spawn_old ((execution?_eq _ i e).mp here) with ⟨_, same⟩ | old
      · cases same
      · exact h.ended e (.inr ⟨i, (execution?_eq w i e).mpr old⟩)
  case proper =>
    intro i x here
    rcases spawn_old here with ⟨_, rfl⟩ | old
    · exact proper
    · exact h.proper i x old
  case outer =>
    intro i x turn here
    rcases spawn_old here with ⟨_, rfl⟩ | old
    · exact Work.runner_outer _
    · exact h.outer i x turn old

/-- A caller comes to wait. -/
theorem putCaller (h : Shows (some task) w c) {k : Caller α} (proper : ∀ x ∈ k.commands, x.Proper)
    (pending : ∀ p, k.mode = .executing p → c.session.running = true ∧ w.walk? = some p.walk ∧
      ∀ i, i ≠ task → w.pending? i = none) : Shows none (w.withWork task (.caller k)) c := by
  refine h.put (Work.caller_outer k) proper (fun p waits => ?_) fun e same => ?_
  · obtain ⟨commands, mode, started⟩ := k
    cases mode with
    | executing q =>
        cases waits
        exact pending p rfl
    | _ => cases waits
  · cases same

/-- What a caller does until it has to wait. -/
theorem command (h : Shows (some task) w c) {y : Work α} (there : w.work? task = some y)
    (started : List Nat) (commands : List (Command α)) (proper : ∀ x ∈ commands, x.Proper) :
    ∃ c', Turns c c' ∧ Shows none (w.command task started commands) c' := by
  induction commands generalizing w c started with
  | nil =>
      refine ⟨c, .refl, h.putOver (Work.caller_outer _) proper rfl fun e same => ?_⟩
      cases same
  | cons x rest ih =>
      have first := proper x List.mem_cons_self
      have others : ∀ x ∈ rest, x.Proper := fun x member => proper x (List.mem_cons_of_mem _ member)
      cases x with
      | act f =>
          obtain ⟨c₁, turn, shown⟩ := h.aside (first w.session)
          have told := shown.reply (r := .acted (f w.session).1) fun e same => by cases same
          obtain ⟨c₂, turns, shown⟩ := ih told there started others
          exact ⟨c₂, turns.head turn, shown⟩
      | wait length =>
          have waits := h.putCaller (k := ⟨rest, .waiting, started⟩) others fun p same => by cases same
          exact ⟨c, .refl, waits.quiet (sleep_quiet _ _ _)⟩
      | execute r =>
          obtain ⟨c₁, turns, shown, there, begun⟩ := h.begin there first
          unfold World.command
          split
          · rename_i e w' same
            rw [same] at shown there begun
            have told := shown.reply (r := .executed e) fun e' same => by
              cases same
              exact begun
            obtain ⟨c₂, turns', shown⟩ := ih told there started others
            exact ⟨c₂, turns.trans turns', shown⟩
          · rename_i p w' same
            rw [same] at shown there begun
            refine ⟨c₁, turns, shown.putCaller others fun q same => ?_⟩
            cases same
            exact begun
      | start r =>
          exact ih (h.spawn first) (spawn_kept there _ _) _ others
      | cancel =>
          cases started with
          | nil => exact ih h there [] others
          | cons runner older =>
              have leaving := w.cancel_quiet runner
              exact ih (h.quiet leaving) ((leaving.work task).trans there) (runner :: older) others
      | join =>
          cases started with
          | nil => exact ih h there [] others
          | cons runner older =>
              cases ceased : w.execution? runner with
              | some e =>
                  have told := h.reply (r := .executed e) fun e' same => by
                    cases same
                    exact h.ended e (.inr ⟨runner, ceased⟩)
                  simp only [World.command, ceased]
                  exact ih told there older others
              | none =>
                  have watched := (w.park_quiet task).trans (watch_quiet _ runner [.wake task])
                  have joins := (h.quiet watched).putCaller (k := ⟨rest, .joining runner, older⟩)
                    others fun p same => by cases same
                  simp only [World.command, ceased]
                  exact ⟨c, .refl, joins⟩

theorem callerTurn (h : Shows none w c) {k : Caller α} (here : w.work? task = some (.caller k))
    (cancelled : Bool) : ∃ c', Turns c c' ∧ Shows none (w.callerTurn task k cancelled) c' := by
  have turning : Shows (some task) w c := h.except fun x there => by
    cases Option.some.inj (here.symm.trans there)
    exact Work.caller_outer k
  have proper : ∀ x ∈ k.commands, x.Proper := h.proper task _ here
  obtain ⟨commands, mode, started⟩ := k
  cases mode with
  | «over» => exact ⟨c, .refl, h⟩
  | ready => exact turning.command here started commands proper
  | waiting =>
      have told := turning.reply (r := .waited) fun e same => by cases same
      exact told.command here started commands proper
  | executing p =>
      have waits : w.pending? task = some p := by rw [World.pending?, here]; rfl
      obtain ⟨running, walk, alone⟩ := h.waiting waits
      obtain ⟨c₁, turn, shown, ended⟩ := turning.conclude running walk alone cancelled
      have told := shown.reply (r := .executed (w.conclude task p cancelled).1) fun e same => by
        cases same
        exact ended
      have there := (conclude_work w task p cancelled task).trans here
      obtain ⟨c₂, turns, shown⟩ := told.command there started commands proper
      exact ⟨c₂, turns.head turn, shown⟩
  | joining runner =>
      unfold World.callerTurn
      simp only
      split
      · rename_i e ceased
        have told := turning.reply (r := .executed e) fun e' same => by
          cases same
          exact h.ended e (.inr ⟨runner, ceased⟩)
        exact told.command here started commands proper
      · exact turning.command here started commands proper

end Shows

/-! ### Steps of a world -/

/-- A world in which a task has its turn: it no longer stands in a queue, and was not cancelled. -/
def atTurn (w : World α) (task : Nat) : World α :=
  w.change task fun t =>
    { t with cancelled := false, standing := if t.standing == .over then .over else .queued }

theorem atTurn_quiet (w : World α) (task : Nat) : Quiet w (w.atTurn task) := by
  refine w.change_quiet task (fun _ => rfl) fun t same => ?_
  simp only at same
  split at same
  · rename_i ceased
    exact eq_of_beq ceased
  · cases same

/-- What a task does in its turn. -/
def works (w : World α) (task : Nat) (x : Work α) (cancelled : Bool) : World α :=
  match x with
  | .caller c => w.callerTurn task c cancelled
  | .runner m => w.runnerTurn task m cancelled
  | .walk k => w.walkTurn task k cancelled
  | .attempt a => w.attemptTurn task a cancelled

theorem turn_eq {t : Task α} (found : w.tasks[task]? = some t) : w.turn task =
    (w.atTurn task).works task t.work (t.cancelled || t.standing == .interrupted) := by
  unfold World.turn
  simp only [found]
  cases t.work <;> rfl

theorem Shows.turn (h : Shows none w c) (task : Nat) :
    ∃ c', Turns c c' ∧ Shows none (w.turn task) c' := by
  cases found : w.tasks[task]? with
  | none =>
      unfold World.turn
      simp only [found]
      exact ⟨c, .refl, h⟩
  | some t =>
      have quiet := w.atTurn_quiet task
      have shown := h.quiet quiet
      have here : w.work? task = some t.work := by rw [work?, found]; rfl
      have here := (quiet.work task).trans here
      rw [turn_eq found]
      generalize (t.cancelled || t.standing == .interrupted) = cancelled
      generalize w.atTurn task = w₁ at shown here
      cases work : t.work with
      | caller k => exact shown.callerTurn (work ▸ here) cancelled
      | runner m => exact shown.runnerTurn (work ▸ here) cancelled
      | walk k =>
          have walked : Walked False task k w₁ (w₁.walkTurn task k cancelled) c :=
            shown.walkTurn (work ▸ here) cancelled False.elim
          obtain ⟨c', _, advances, shown, _⟩ := walked
          exact ⟨c', .single (.passed advances.passes), shown⟩
      | attempt a =>
          have worked : Worked False task a w₁ (w₁.attemptTurn task a cancelled) c :=
            shown.attemptTurn (work ▸ here) cancelled False.elim
          obtain ⟨c', _, passes, shown, _⟩ := worked
          exact ⟨c', .single (.passed passes), shown⟩

/-- What a world does when no task is ready. -/
def idles (w : World α) : Option (World α) :=
  match w.phase, w.callerOver with
  | .live, true =>
    let w := { w with phase := .lastRound }
    some ((if w.next.isEmpty then none else w.nextRound).getD w)
  | .lastRound, _ => some { w.cancelAll with phase := .draining }
  | _, _ => w.nextRound

theorem step_busy (w : World α) {task : Nat} (busy : w.busy? = some task) :
    w.step = some ({ w with busy? := none }.turn task) := by
  rw [step, busy]

theorem step_due (w : World α) {d : Due} {rest : List Due} (free : w.busy? = none)
    (round : w.round = d :: rest) : w.step = some ({ w with round := rest }.due d) := by
  rw [step, free, round]

theorem step_idles (w : World α) (free : w.busy? = none) (round : w.round = []) : w.step = w.idles := by
  unfold step
  split
  · rename_i busy
    rw [free] at busy
    cases busy
  · split
    · rename_i due
      rw [round] at due
      cases due
    · rfl

theorem release_quiet (w : World α) (task ticket : Nat) : Quiet w (w.due (.release task ticket)) := by
  unfold due
  simp only
  split
  · split
    · exact (w.stand_quiet task .released nofun).trans (later_quiet _ _)
    · exact .refl w
  · exact .refl w

/-- What a world comes to when no task is ready. -/
inductive Idles (w : World α) : World α → Prop
  | still (phase : Phase) : phase = w.phase ∨ w.callerOver = true → Idles w { w with phase }
  | round (phase : Phase) {w' : World α} : phase = w.phase ∨ w.callerOver = true →
      { w with phase }.nextRound = some w' → Idles w w'
  | drain : w.phase ≠ .live → Idles w { w.cancelAll with phase := .draining }

theorem idles_cases {w' : World α} (h : w.idles = some w') : w.Idles w' := by
  unfold idles at h
  split at h
  · rename_i ceased
    cases h
    split
    · exact .still .lastRound (.inr ceased)
    · cases next : World.nextRound { w with phase := .lastRound } with
      | none => exact .still .lastRound (.inr ceased)
      | some w' => exact .round .lastRound (.inr ceased) next
  · rename_i last
    cases h
    exact .drain (by rw [last]; exact nofun)
  · exact .round w.phase (.inl rfl) h

theorem idles_quiet {w' : World α} (h : w.idles = some w') : Quiet w w' := by
  have phased : ∀ phase, Quiet w { w with phase } := fun _ => { Quiet.refl w with }
  cases idles_cases h with
  | still phase => exact phased phase
  | round phase _ next => exact (phased phase).trans (nextRound_quiet _ next)
  | drain => exact { w.cancelAll_quiet with }

/-- A step of a world is a quiet one, or gives one task its turn. -/
theorem step_cases {w' : World α} (step : w.step = some w') :
    Quiet w w' ∨ ∃ w₁ task, Quiet w w₁ ∧ w₁.tasks = w.tasks ∧ w' = w₁.turn task := by
  cases busy : w.busy? with
  | some task =>
      rw [w.step_busy busy] at step
      cases step
      exact .inr ⟨{ w with busy? := none }, task, { Quiet.refl w with }, rfl, rfl⟩
  | none =>
      cases round : w.round with
      | nil =>
          rw [w.step_idles busy round] at step
          exact .inl (idles_quiet step)
      | cons d rest =>
          have quiet : Quiet w { w with round := rest } := { Quiet.refl w with }
          rw [w.step_due busy round] at step
          cases step
          cases d with
          | turn task => exact .inr ⟨_, task, quiet, rfl, rfl⟩
          | release task ticket => exact .inl (quiet.trans (release_quiet _ task ticket))

theorem Shows.step (h : Shows none w c) {w' : World α} (step : w.step = some w') :
    ∃ c', Turns c c' ∧ Shows none w' c' := by
  rcases step_cases step with quiet | ⟨w₁, task, quiet, _, rfl⟩
  · exact ⟨c, .refl, h.quiet quiet⟩
  · exact (h.quiet quiet).turn task

/-- Any number of steps. -/
abbrev Leads : World α → World α → Prop := Relation.ReflTransGen fun w w' => w.step = some w'

theorem Shows.leads (h : Shows none w c) {w' : World α} (steps : w.Leads w') :
    ∃ c', Turns c c' ∧ Shows none w' c' := by
  induction steps with
  | refl => exact ⟨c, .refl, h⟩
  | tail _ step ih =>
      obtain ⟨c₁, turns, shown⟩ := ih
      obtain ⟨c₂, turns', shown⟩ := shown.step step
      exact ⟨c₂, turns.trans turns', shown⟩

/-- A world in which a caller is about to carry out commands shows the course of a session before its
first run. -/
theorem ofCommands_shows {s : Session} (stored : 0 < s.stores.size) {commands : List (Command α)}
    (proper : ∀ x ∈ commands, x.Proper) : Shows none (ofCommands s commands) (.ofSession s) := by
  have work : ∀ i x, (ofCommands s commands).work? i = some x →
      x = .caller ⟨commands, .ready, []⟩ := by
    intro i x here
    cases i with
    | zero => exact (Option.some.inj here).symm
    | succ i => cases here
  have waits : ∀ i p, (ofCommands s commands).pending? i ≠ some p := by
    intro i p waits
    obtain ⟨x, here, waits⟩ := Option.bind_eq_some_iff.mp waits
    rw [work i x here] at waits
    cases waits
  constructor
  case session => rfl
  case sound => exact ⟨stored, Stage.over_sound .normal s⟩
  case stage => rfl
  case walks =>
    intro i k here
    cases work i _ here
  case known =>
    intro i a here
    cases work i _ here
  case pending => exact fun i p _ here => (waits i p here).elim
  case single => exact fun i _ p _ _ _ here _ => (waits i p here).elim
  case ended =>
    rintro e (replied | ⟨i, here⟩)
    · exact (Array.not_mem_empty _ replied).elim
    · cases work i _ ((execution?_eq _ i e).mp here)
  case proper =>
    intro i x here
    rw [work i x here]
    exact proper
  case outer =>
    intro i x turn
    cases turn

/-! ### Running -/

/-- A world leads to whatever it is run to. -/
theorem leads_run (n : Nat) (w : World α) : w.Leads (run n w) := by
  induction n generalizing w with
  | zero => exact .refl
  | succ n ih =>
      unfold run
      split
      · exact .refl
      · rename_i step
        exact .head step (ih _)

/-- Whether a caller was first told of an execution that passes a test. -/
def tells (w : World α) (test : Execution → Bool) : Bool :=
  match w.replies.toList with
  | .executed e :: _ => test e
  | _ => false

theorem ended_of_tells {test : Execution → Bool} (h : w.tells test = true) :
    ∃ e, w.Ended e ∧ test e = true := by
  unfold tells at h
  split at h
  · rename_i e _ told
    have here : .executed e ∈ w.replies := Array.mem_toList_iff.mp (told ▸ List.mem_cons_self)
    exact ⟨e, .inl here, h⟩
  · cases h

end World

/-- A world that comes of commands on a session shows a course in which a law holds. -/
theorem World.Leads.shows {g : Graph} {J : Session → Stage → Prop} (law : Law g J) {α : Type}
    {registry : Registry} {draws : List Double} {commands : List (Command α)}
    (proper : ∀ x ∈ commands, x.Proper) {w : World α}
    (steps : (World.ofCommands (Session.ofGraph g registry draws) commands).Leads w) :
    ∃ c, World.Shows none w c ∧ Law.Holds g J c := by
  have stored : 0 < (Session.ofGraph g registry draws).stores.size := Nat.succ_pos 0
  obtain ⟨c, turns, shown⟩ := (World.ofCommands_shows stored proper).leads steps
  have start : Law.Holds g J (.ofSession (Session.ofGraph g registry draws)) :=
    ⟨⟨stored, Stage.over_sound .normal _⟩, rfl, nofun, nofun, fun e member =>
      (List.not_mem_nil member).elim⟩
  exact ⟨c, shown, Law.Holds.turns law start turns⟩

/-- What a law says holds of every world that a session comes to under its caller's commands, and of
every execution that ended. -/
theorem Law.everywhere {g : Graph} {J : Session → Stage → Prop} (law : Law g J) {α : Type}
    {registry : Registry} {draws : List Double} {commands : List (Command α)}
    (proper : ∀ x ∈ commands, x.Proper) {w : World α}
    (steps : (World.ofCommands (Session.ofGraph g registry draws) commands).Leads w) :
    (w.session.graph = g ∧ (w.session.started = true → ∃ st, J w.session st)) ∧
      ∀ e, w.Ended e → e.session.graph = g ∧ e.Ends J := by
  obtain ⟨c, shown, holds⟩ := World.Leads.shows law proper steps
  rw [shown.session]
  exact ⟨⟨holds.graph, fun started => ⟨c.stage, holds.here started⟩⟩, fun e ended =>
    holds.ended e (shown.ended e ended)⟩

/-! ### Two elements -/

/-- A block that hands on a number. -/
def BlockDefinition.one : BlockDefinition where
  displayName := "One"
  category := .data
  inputs := ["input"]
  outputs := ["output"]
  defaultProps := []
  logic := .script .stream [.emit (.text "output") (.int 1)] []
  check _ := .ok .null
  render _ := .ok (.other .null)
  version := "1.0.0"
  description := ""
  color? := none
  icon? := none
  author? := none
  isCircular := false
  supplied := ⟨true, false, false⟩

namespace Graph

/-- An element that leads to another. -/
def pair : Graph where
  elements := [⟨"first", "one", .int 0, .int 0, []⟩, ⟨"second", "one", .int 1, .int 0, []⟩]
  connections := [⟨"link", "first", "second", some "output", none⟩]

/-- A session in which it has not been run yet. -/
def pairSession : Session := .ofGraph pair ⟨[("one", .one)]⟩ []

end Graph

namespace Options

/-- When nothing is given, all options have their defaults. -/
theorem ofGiven_nil : ofGiven [] = .ok .default := by
  have unread : ∀ {α : Type} (name : String) (reader : Value → Except Problem α) (a : α),
      read [] name reader a = (a, []) := fun _ _ _ => rfl
  have unheard : ∀ kind, listens [] kind = (false, []) := fun _ => rfl
  unfold ofGiven
  simp [unread, unheard, EventKind.all, strays, default]

theorem default_valid : default.Valid := ⟨[], ofGiven_nil⟩

/-- The names of the options, as the editor spells them. -/
theorem names_editor : names.map editorName = ["maxExecutionTime", "maxSteps", "stepDelay", "blockTimeout",
    "enableCycleDetection", "onElementStart", "onElementComplete", "onConnectionTraversed", "onLog",
    "onError"] := by
  simp +decide [names, valueNames, EventKind.all, EventKind.optionName, editorName, String.splitOn,
    String.splitOnAux]

theorem given?_nil (name : String) : given? [] name = none := rfl

theorem given?_cons (key : String) (v : GivenOption) (g : Given) (name : String) :
    given? ((.text key, v) :: g) name = if key = name then some v else given? g name := by
  have same : (Value.text key).eq (.text name) = (key == name) := rfl
  simp only [given?, List.find?_cons, same]
  by_cases found : key = name
  · simp [found]
  · simp [found, beq_eq_false_iff_ne.mpr found]

/-- Options with listeners for what is logged and for failures. -/
def watched (detectCycles : Bool) : Options := { default with detectCycles, heard := [.log, .error] }

theorem ofGiven_watched (detectCycles : Bool) :
    ofGiven [(.text "enable_cycle_detection", .value (.bool detectCycles)), (.text "on_log", .listener),
      (.text "on_error", .listener)] = .ok (watched detectCycles) := by
  have editor := names_editor
  simp only [names, valueNames, EventKind.all, EventKind.optionName, List.cons_append, List.nil_append,
    List.map_cons, List.map_nil, List.cons.injEq, and_true] at editor
  have switch : Lenient.bool (.bool detectCycles) = .ok detectCycles := rfl
  unfold ofGiven
  simp [read, listens, strays, spelling?, names, valueNames, EventKind.all, EventKind.optionName, given?_cons,
    given?_nil, editor, switch, default, watched]

theorem watched_valid (detectCycles : Bool) : (watched detectCycles).Valid := ⟨_, ofGiven_watched detectCycles⟩

end Options

/-- The request of a run with default options, and nothing else. -/
def Request.plain : Request := ⟨.ok .default, .null, .silent⟩

theorem Request.plain_proper : ∀ x ∈ [Command.execute (α := Unit) .plain], x.Proper := by
  intro x member
  rw [List.mem_singleton.mp member]
  intro options accepted
  rw [← Except.ok.inj accepted]
  exact Options.default_valid

/-- Whether the run of an execution was completed. -/
def Execution.completes (e : Execution) : Bool :=
  match e.outcome with
  | .finished => e.session.started && e.session.status == .completed
  | _ => false

theorem Execution.of_completes {e : Execution} (h : e.completes = true) :
    e.outcome = .finished ∧ e.session.started = true ∧ e.session.status = .completed := by
  unfold completes at h
  split at h
  · rename_i finished
    obtain ⟨started, completed⟩ := Bool.and_eq_true_iff.mp h
    exact ⟨finished, started, beq_iff_eq.mp completed⟩
  · cases h

namespace World

/-- A world in which a caller is about to run the two elements. -/
def pair : World Unit := ofCommands Graph.pairSession [.execute .plain]

/-- It comes to an execution that completed the run. -/
theorem pair_completes : (run 50 pair).tells (·.completes) = true := by decide +kernel

end World

end BlockGraph
