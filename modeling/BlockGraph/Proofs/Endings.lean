import BlockGraph.Proofs.Lulls
/-!
Endings: a run ends with its execution, also when the traversal of it or the logic in it is still at work
then. From that moment until a session is taken for another run, no element is started, no connection is
traversed and no visit is counted.
-/
namespace BlockGraph

/-! ### The run goes on -/

/-- A session that runs goes on running, and in the same run. -/
theorem Beat.sameRun {s s' : Session} (h : Beat s s') (running : s.running = true) :
    s'.running = true ∧ s'.run = s.run := by
  have heard : ∀ (s : Session) e, (s.hears e).run = s.run := fun s e => by
    unfold Session.hears
    split <;> rfl
  cases h with
  | deed d =>
      have kept := (Relation.ReflTransGen.single d |> Deeds.kept_of_running) running
      exact ⟨kept.running.trans running, congrArg (· - 1) kept.size⟩
  | traversed c _ _ => exact ⟨(s.traversing_runsOn c).running.trans running, heard _ _⟩
  | started id _ => exact ⟨(Session.hears_running _).trans running, heard _ _⟩
  | opened id => exact ⟨running, s.withSlots_run _ _⟩
  | recorded id e => exact ⟨running, s.withSlots_run _ _⟩
  | completed id => exact ⟨(s.completing_runsOn id).running.trans running, heard _ _⟩
  | _ => exact ⟨running, rfl⟩

theorem Beats.sameRun {s s' : Session} (h : Beats s s') (running : s.running = true) :
    s'.running = true ∧ s'.run = s.run := by
  induction h with
  | refl => exact ⟨running, rfl⟩
  | tail _ beat ih =>
      obtain ⟨running', same⟩ := beat.sameRun ih.1
      exact ⟨running', same.trans ih.2⟩

namespace World

variable {α : Type} {task : Nat} {w w' : World α} {c : Course}

/-- A step of a world is a quiet one, or what one task does in its turn. -/
theorem Shows.step_works (h : Shows none w c) (step : w.step = some w') : Quiet w w' ∨
    ∃ w₁ task x cancelled, Quiet w w₁ ∧ Shows none w₁ c ∧ w₁.work? task = some x ∧
      w' = w₁.works task x cancelled := by
  rcases step_cases step with quiet | ⟨w₁, task, quiet, _, rfl⟩
  · exact .inl quiet
  · cases found : w₁.tasks[task]? with
    | none =>
        left
        unfold World.turn
        simp only [found]
        exact quiet
    | some t =>
        have turning := w₁.atTurn_quiet task
        have here : w₁.work? task = some t.work := by rw [work?, found]; rfl
        exact .inr ⟨w₁.atTurn task, task, t.work, _, quiet.trans turning, (h.quiet quiet).quiet turning,
          (turning.work task).trans here, turn_eq found⟩

/-- What a task does in a run passes the turn of the course. -/
theorem Shows.works_passes (h : Shows none w c) {x : Work α} (here : w.work? task = some x)
    (cancelled : Bool) (inner : x.Inner) :
    ∃ c', Passes False c c' ∧ Shows none (w.works task x cancelled) c' := by
  cases inner with
  | walk k =>
      have walked : Walked False task k w (w.walkTurn task k cancelled) c :=
        h.walkTurn here cancelled False.elim
      obtain ⟨c', _, advances, shown, _⟩ := walked
      exact ⟨c', advances.passes, shown⟩
  | attempt a =>
      have worked : Worked False task a w (w.attemptTurn task a cancelled) c :=
        h.attemptTurn here cancelled False.elim
      obtain ⟨c', _, passes, shown, _⟩ := worked
      exact ⟨c', passes, shown⟩

/-! ### Steps of a world whose session does not run -/

/-- The task of an execution that is over comes to its end. -/
theorem runnerOver_quiet (w : World α) (task : Nat) (e : Execution) :
    Quiet (w.withWork task (.runner (.over e))) (runnerOver task (e, w)) :=
  finish_quiet _ task fun y here k same => by
    rw [withWork_work, if_pos rfl] at here
    obtain ⟨_, _, rfl⟩ := Option.map_eq_some_iff.mp here
    cases same

theorem runnerTurn_lapses (h : Shows none w c) {m : RunnerMode}
    (here : w.work? task = some (.runner m)) (cancelled : Bool) (idle : w.session.running = false) :
    (w.runnerTurn task m cancelled).Lapses w.session := by
  cases m with
  | «over» e => exact .of_lulls .refl
  | fresh r =>
      cases cancelled with
      | true => exact .of_lulls ((w.runnerOver_quiet task _).session.symm ▸ .refl)
      | false =>
          unfold runnerTurn
          rcases w.begin_lapses task r idle with ⟨e, w', same, lulls, _⟩ | ⟨p, w', same, taken⟩
          · simp only [same]
            exact .of_lulls ((w'.runnerOver_quiet task e).session.symm ▸ lulls)
          · simp only [same]
            exact ⟨w.session, .refl, .inr taken⟩
  | pending p =>
      have waits : w.pending? task = some p := by rw [World.pending?, here]; rfl
      have running := (h.waiting waits).1
      rw [← h.session, idle] at running
      cases running

theorem callerTurn_lapses (h : Shows none w c) {k : Caller α}
    (here : w.work? task = some (.caller k)) (cancelled : Bool) (idle : w.session.running = false) :
    (w.callerTurn task k cancelled).Lapses w.session := by
  have proper : ∀ x ∈ k.commands, x.Proper := h.proper task _ here
  obtain ⟨commands, mode, started⟩ := k
  cases mode with
  | «over» => exact .of_lulls .refl
  | ready => exact command_lapses commands proper w task started idle
  | waiting => exact command_lapses commands proper (w.reply .waited) task started idle
  | executing p =>
      have waits : w.pending? task = some p := by rw [World.pending?, here]; rfl
      have running := (h.waiting waits).1
      rw [← h.session, idle] at running
      cases running
  | joining runner =>
      unfold callerTurn
      simp only
      split
      · exact command_lapses commands proper (w.reply _) task started idle
      · exact command_lapses commands proper w task started idle

theorem step_lapses (h : Shows none w c) (step : w.step = some w') (idle : w.session.running = false) :
    w'.Lapses w.session := by
  rcases h.step_works step with quiet | ⟨w₁, task, x, cancelled, quiet, shown, here, rfl⟩
  · exact .of_lulls (quiet.session ▸ .refl)
  · have same := quiet.session
    have idle := (congrArg Session.running same).trans idle
    rw [← same]
    have passed : x.Inner → (w₁.works task x cancelled).Lapses w₁.session := by
      intro inner
      obtain ⟨c', passes, shown'⟩ := shown.works_passes here cancelled inner
      have beats := passes.beats shown.sound fun on => by
        rw [← shown.session] at on
        rw [Session.running_of_active on] at idle
        cases idle
      exact .of_lulls (shown.session ▸ shown'.session ▸ beats.lulls)
    cases x with
    | caller k => exact callerTurn_lapses shown here cancelled idle
    | runner m => exact runnerTurn_lapses shown here cancelled idle
    | walk k => exact passed (.walk k)
    | attempt a => exact passed (.attempt a)

/-- Any number of steps of a world, for as long as its session does not run. -/
abbrev LeadsIdly : World α → World α → Prop :=
  Relation.ReflTransGen fun w w' => w.session.running = false ∧ w.step = some w'

theorem taken_running (s : Session) (options : Options) (listener : Listener) (bindings : Entries) :
    (s.taken options listener bindings).running = true := (s.taken_kept options listener bindings).running

/-- What came of a session while it did not run comes of it for as long as it does not. -/
theorem LeadsIdly.lapses (h : Shows none w c) {s : Session} (lapses : w.Lapses s)
    (leads : w.LeadsIdly w') : w'.Lapses s := by
  suffices both : w'.Lapses s ∧ ∃ c, Shows none w' c from both.1
  induction leads with
  | refl => exact ⟨lapses, c, h⟩
  | @tail w₁ w₂ _ step ih =>
      obtain ⟨⟨s', lulls, has⟩, c₁, shown⟩ := ih
      obtain ⟨idle, step⟩ := step
      obtain ⟨c₂, _, shown₂⟩ := shown.step step
      refine ⟨?_, c₂, shown₂⟩
      rcases has with same | ⟨options, listener, bindings, same⟩
      · exact .head (same ▸ lulls) (step_lapses shown step idle)
      · rw [same, taken_running] at idle
        cases idle

/-! ### Steps of a world whose session runs -/

/-- A world in which a run has gone on, or its execution has ended. -/
def GoesOnOrEnds (s : Session) (st : Stage) (w' : World α) : Prop :=
  Beats s w'.session ∨
    ∃ e, w'.Ended e ∧ (∃ s', Concludes s st e.outcome s' ∧ e.session = s'.closed) ∧ w'.Lapses e.session

/-- Beginning an execution while the session runs is refused. -/
theorem begin_running (w : World α) (task : Nat) (r : Request) (running : w.session.running = true) :
    ∃ e w', w.begin task r = (.inl e, w') ∧ Deeds w.session w'.session := by
  unfold World.begin
  cases r.options with
  | error f => exact ⟨_, _, rfl, .refl⟩
  | ok options =>
      simp only [running, if_true]
      exact ⟨_, _, rfl, Session.tell_discreet 2 _ _ _ _ (.inr rfl)⟩

/-- What a caller does while the session runs leaves the run to itself. -/
theorem command_running (commands : List (Command α)) (proper : ∀ x ∈ commands, x.Proper) (w : World α)
    (task : Nat) (started : List Nat) (running : w.session.running = true) :
    Deeds w.session (w.command task started commands).session := by
  have still : ∀ {s s' : Session}, s' = s → Deeds s s' := fun same => same ▸ .refl
  induction commands generalizing w started with
  | nil => exact still (w.commandNil_quiet task started).session
  | cons x rest ih =>
      have first := proper x List.mem_cons_self
      have others : ∀ x ∈ rest, x.Proper := fun x member => proper x (List.mem_cons_of_mem _ member)
      have next : ∀ (w₁ : World α) started₁, Deeds w.session w₁.session →
          Deeds w.session (w₁.command task started₁ rest).session := by
        intro w₁ started₁ deeds
        exact deeds.trans (ih others w₁ started₁ (deeds.runsOn.running.trans running))
      cases x with
      | act f =>
          have acted : Deeds w.session (f w.session).2 := first w.session
          exact next ((w.withSession (f w.session).2).reply (.acted (f w.session).1)) started acted
      | wait length =>
          have quiet := sleep_quiet (w.withWork task (.caller ⟨rest, .waiting, started⟩)) task length
          unfold World.command
          exact still quiet.session
      | execute r =>
          obtain ⟨e, w', begun, deeds⟩ := w.begin_running task r running
          unfold World.command
          simp only [begun]
          exact next (w'.reply (.executed e)) started deeds
      | start r => exact next (w.spawn (.runner (.fresh r)) []).2 _ .refl
      | cancel =>
          cases started with
          | nil => exact next w [] .refl
          | cons runner older =>
              exact next (w.cancel runner) (runner :: older) (still (w.cancel_quiet runner).session)
      | join =>
          cases started with
          | nil => exact next w [] .refl
          | cons runner older =>
              cases ceased : w.execution? runner with
              | some e =>
                  simp only [World.command, ceased]
                  exact next (w.reply (.executed e)) older .refl
              | none =>
                  have quiet := (w.park_quiet task).trans (watch_quiet _ runner [.wake task])
                  simp only [World.command, ceased]
                  exact still quiet.session

/-- How an execution under way ends. -/
theorem Shows.concludes (h : Shows (some task) w c) {p : Pending} (walk : w.walk? = some p.walk)
    (cancelled : Bool) : ∃ s', Concludes w.session c.stage (w.conclude task p cancelled).1.outcome s' ∧
      (w.conclude task p cancelled).1.session = s'.closed ∧
      (w.conclude task p cancelled).2.session = s'.closed := by
  have ends : ∀ e, (w.unschedule task).walkEnd? p.walk = some e → c.stage = .over e := by
    intro e ceased
    obtain ⟨t, here⟩ := (walkEnd?_eq w p.walk e).mp ceased
    exact (Option.some.inj (h.came walk here)).symm
  unfold World.conclude
  simp only
  split
  · exact ⟨_, .cancelled c.stage, rfl, rfl⟩
  · split
    · rename_i ceased
      exact ⟨_, ends _ ceased ▸ .finished, rfl, rfl⟩
    · rename_i f ceased
      exact ⟨_, ends _ ceased ▸ .failed f, rfl, rfl⟩
    · exact ⟨_, .cancelled c.stage, rfl, rfl⟩
    · exact ⟨_, .outOfTime c.stage _, rfl, rfl⟩

/-! ### Replies -/

/-- Nothing is replied by beginning an execution. -/
theorem begin_replies (w : World α) (task : Nat) (r : Request) :
    (w.begin task r).2.replies = w.replies := by
  unfold World.begin
  simp only
  split
  · rfl
  · split
    · rfl
    · split
      · rfl
      · split
        · rfl
        · exact (schedule_quiet _ _ _ _).replies

/-- What was replied stays replied. -/
theorem command_replies (commands : List (Command α)) (w : World α) (task : Nat) (started : List Nat)
    {reply : Reply α} (replied : reply ∈ w.replies) : reply ∈ (w.command task started commands).replies := by
  induction commands generalizing w started with
  | nil => exact (w.commandNil_quiet task started).replies ▸ replied
  | cons x rest ih =>
      have more : ∀ (w₁ : World α) r started, w₁.replies = w.replies →
          reply ∈ ((w₁.reply r).command task started rest).replies := by
        intro w₁ r started same
        exact ih (w₁.reply r) started (Array.mem_push.mpr (.inl (same ▸ replied)))
      cases x with
      | act f => exact more (w.withSession (f w.session).2) _ started rfl
      | wait length =>
          have quiet := sleep_quiet (w.withWork task (.caller ⟨rest, .waiting, started⟩)) task length
          unfold World.command
          exact quiet.replies ▸ replied
      | execute r =>
          have kept := w.begin_replies task r
          unfold World.command
          split <;> rename_i same <;> rw [same] at kept
          · exact more _ _ started kept
          · exact kept.symm ▸ replied
      | start r => exact ih (w.spawn (.runner (.fresh r)) []).2 _ replied
      | cancel =>
          cases started with
          | nil => exact ih w [] replied
          | cons runner older =>
              exact ih (w.cancel runner) (runner :: older) ((w.cancel_quiet runner).replies ▸ replied)
      | join =>
          cases started with
          | nil => exact ih w [] replied
          | cons runner older =>
              cases ceased : w.execution? runner with
              | some e =>
                  simp only [World.command, ceased]
                  exact more w _ older rfl
              | none =>
                  have quiet := (w.park_quiet task).trans (watch_quiet _ runner [.wake task])
                  simp only [World.command, ceased]
                  exact quiet.replies ▸ replied

/-! ### A step of a world whose session runs -/

/-- An execution beside its caller that waits for nothing comes to no run. -/
theorem runnerTurn_deeds (w : World α) (task : Nat) {m : RunnerMode}
    (free : (Work.runner m : Work α).pending? = none) (cancelled : Bool) (running : w.session.running = true) :
    Deeds w.session (w.runnerTurn task m cancelled).session := by
  cases m with
  | «over» e => exact .refl
  | pending p => cases free
  | fresh r =>
      cases cancelled with
      | true => exact (w.runnerOver_quiet task _).session.symm ▸ .refl
      | false =>
          obtain ⟨e, w', begun, deeds⟩ := w.begin_running task r running
          unfold runnerTurn
          simp only [begun]
          exact (w'.runnerOver_quiet task e).session.symm ▸ deeds

theorem runnerTurn_goesOnOrEnds (h : Shows none w c) {m : RunnerMode}
    (here : w.work? task = some (.runner m)) (cancelled : Bool) (running : w.session.running = true) :
    GoesOnOrEnds w.session c.stage (w.runnerTurn task m cancelled) := by
  cases m with
  | «over» e => exact .inl .refl
  | fresh r => exact .inl (w.runnerTurn_deeds task rfl cancelled running).beats
  | pending p =>
      right
      have waits : w.pending? task = some p := by rw [World.pending?, here]; rfl
      have turning : Shows (some task) w c := h.except fun x there => by
        cases Option.some.inj (here.symm.trans there)
        exact Work.runner_outer _
      obtain ⟨s', how, told, after⟩ := turning.concludes (h.waiting waits).2.1 cancelled
      have there := (Shows.conclude_work w task p cancelled task).trans here
      have quiet := (w.conclude task p cancelled).2.runnerOver_quiet task (w.conclude task p cancelled).1
      refine ⟨(w.conclude task p cancelled).1, .inr ⟨task, ?_⟩, ⟨s', how, told⟩, .of_lulls ?_⟩
      · rw [execution?_eq]
        refine (quiet.work task).trans ?_
        rw [withWork_work, if_pos rfl, there]
        rfl
      · rw [told, ← after]
        exact quiet.session.symm ▸ .refl

/-- A caller that waits for no execution leaves the run to itself. -/
theorem callerTurn_deeds (w : World α) (task : Nat) {k : Caller α} (free : (Work.caller k).pending? = none)
    (proper : ∀ x ∈ k.commands, x.Proper) (cancelled : Bool) (running : w.session.running = true) :
    Deeds w.session (w.callerTurn task k cancelled).session := by
  obtain ⟨commands, mode, started⟩ := k
  cases mode with
  | «over» => exact .refl
  | ready => exact command_running commands proper w task started running
  | waiting => exact command_running commands proper (w.reply .waited) task started running
  | executing p => cases free
  | joining runner =>
      unfold callerTurn
      simp only
      split
      · exact command_running commands proper (w.reply _) task started running
      · exact command_running commands proper w task started running

theorem callerTurn_goesOnOrEnds (h : Shows none w c) {k : Caller α}
    (here : w.work? task = some (.caller k)) (cancelled : Bool) (running : w.session.running = true) :
    GoesOnOrEnds w.session c.stage (w.callerTurn task k cancelled) := by
  have proper : ∀ x ∈ k.commands, x.Proper := h.proper task _ here
  have turning : Shows (some task) w c := h.except fun x there => by
    cases Option.some.inj (here.symm.trans there)
    exact Work.caller_outer k
  obtain ⟨commands, mode, started⟩ := k
  cases mode with
  | executing p =>
      right
      have waits : w.pending? task = some p := by rw [World.pending?, here]; rfl
      obtain ⟨s', how, told, after⟩ := turning.concludes (h.waiting waits).2.1 cancelled
      unfold callerTurn
      simp only
      generalize w.conclude task p cancelled = r at how told after
      obtain ⟨e, w'⟩ := r
      have idle : (w'.reply (.executed e)).session.running = false := congrArg Session.running after
      have lapses := command_lapses commands proper (w'.reply (.executed e)) task started idle
      refine ⟨e, .inl ?_, ⟨s', how, told⟩, ?_⟩
      · exact command_replies commands _ task started (Array.mem_push.mpr (.inr rfl))
      · rw [told, ← after]
        exact lapses
  | _ => exact .inl (w.callerTurn_deeds task rfl proper cancelled running).beats

theorem step_goesOnOrEnds (h : Shows none w c) (step : w.step = some w')
    (running : w.session.running = true) (settled : w.session.Settled) :
    GoesOnOrEnds w.session c.stage w' := by
  rcases h.step_works step with quiet | ⟨w₁, task, x, cancelled, quiet, shown, here, rfl⟩
  · exact .inl (quiet.session ▸ .refl)
  · have same := quiet.session
    have running := (congrArg Session.running same).trans running
    rw [← same]
    have passed : x.Inner → GoesOnOrEnds w₁.session c.stage (w₁.works task x cancelled) := by
      intro inner
      obtain ⟨c', passes, shown'⟩ := shown.works_passes here cancelled inner
      have beats := passes.beats shown.sound fun _ => shown.session ▸ same ▸ settled
      exact .inl (shown.session ▸ shown'.session ▸ beats)
    cases x with
    | caller k => exact callerTurn_goesOnOrEnds shown here cancelled running
    | runner m => exact runnerTurn_goesOnOrEnds shown here cancelled running
    | walk k => exact passed (.walk k)
    | attempt a => exact passed (.attempt a)

end World

/-! ### Every run -/

/-- What is counted and what is told of a run agree in every world that comes of it. -/
theorem Stage.Budgeted.settled {s : Session} {st st' : Stage} (h : st.Budgeted s)
    (h' : st'.Lifecycle s) : s.Settled := by
  obtain ⟨⟨_, account, _⟩, _⟩ := h
  obtain ⟨_, _, tidy, _⟩ := h'
  exact ⟨account.split, tidy.order⟩

namespace World

variable {α : Type} {graph : Graph} {registry : Registry} {draws : List Double}
  {commands : List (Command α)} {w : World α}

/-- Until the session is taken for another run, nothing goes on in a run that ended. -/
theorem Leads.rests {w' : World α} {e : Execution} {s' : Session} {st : Stage}
    (steps : (ofCommands (Session.ofGraph graph registry draws) commands).Leads w)
    (proper : ∀ x ∈ commands, x.Proper) (running : w.session.running = true) (step : w.step = some w')
    (how : Concludes w.session st e.outcome s') (same : e.session = s'.closed)
    (lapses : w'.Lapses e.session) {w'' : World α} (leads : w'.LeadsIdly w'') :
    ∃ s, s.running = false ∧ e.session.Ceased s ∧ w''.Has s := by
  have law := (lifecycle_law graph).and (budget_law graph)
  obtain ⟨c, shown, holds⟩ := World.Leads.shows law proper steps
  obtain ⟨c', _, shown'⟩ := shown.step step
  have kept := how.kept running
  have here := holds.here (holds.started (shown.session ▸ running))
  rw [← shown.session] at here
  obtain ⟨lifecycle, budgeted⟩ := law.closed (law.kept kept here)
  have idle : e.session.running = false := same ▸ rfl
  have settled : e.session.Settled := same ▸ budgeted.settled lifecycle
  obtain ⟨s, lulls, has⟩ := LeadsIdly.lapses shown' lapses leads
  exact ⟨s, (lulls.ceased idle settled).1, (lulls.ceased idle settled).2, has⟩

end World

/-- A step of a world leaves the run under way, or its execution has ended. Whatever its traversal and
the logic in it do then, no element is started, no connection is traversed and no visit is counted
until the session is taken for another run. -/
theorem run_ceases {α : Type} {graph : Graph} {registry : Registry} {draws : List Double}
    {commands : List (Command α)} (proper : ∀ x ∈ commands, x.Proper) {w w' : World α}
    (steps : (World.ofCommands (Session.ofGraph graph registry draws) commands).Leads w)
    (running : w.session.running = true) (step : w.step = some w') :
    (w'.session.running = true ∧ w'.session.run = w.session.run) ∨
      ∃ e, w'.Ended e ∧ (∃ st s, Concludes w.session st e.outcome s ∧ e.session = s.closed) ∧
        ∀ w'', w'.LeadsIdly w'' → ∃ s, s.running = false ∧ e.session.Ceased s ∧ w''.Has s := by
  have law := (lifecycle_law graph).and (budget_law graph)
  obtain ⟨c, shown, holds⟩ := World.Leads.shows law proper steps
  obtain ⟨lifecycle, budgeted⟩ := holds.here (holds.started (shown.session ▸ running))
  have settled : w.session.Settled := shown.session ▸ budgeted.settled lifecycle
  rcases World.step_goesOnOrEnds shown step running settled with
    beats | ⟨e, ended, ⟨s, how, same⟩, lapses⟩
  · exact .inl (beats.sameRun running)
  · exact .inr ⟨e, ended, ⟨_, s, how, same⟩, fun _ leads =>
      steps.rests proper running step how same lapses leads⟩

/-! ### A run that is cancelled -/

/-- A block that sleeps on when it is cancelled, and then hands over a number. -/
def BlockDefinition.stubborn : BlockDefinition :=
  { BlockDefinition.one with
    logic := .script .stream [.insist (.ms 100), .emit (.text "output") (.int 1)] [] }

namespace World

/-- A world in which a caller starts a run of two such elements and cancels it soon after. -/
def abandoned : World Unit :=
  ofCommands (.ofGraph .pair ⟨[("one", .stubborn)]⟩ [])
    [.start .plain, .wait (.ms 10), .cancel, .join, .wait (.ms 1000)]

/-- The run is under way until then. -/
theorem abandoned_runs : (run 14 abandoned).session.running = true := by decide +kernel

theorem abandoned_ends : (run 14 abandoned).step.map (·.session.running) = some false := by decide +kernel

theorem abandoned_proper : ∀ x ∈ [Command.start (α := Unit) .plain, .wait (.ms 10), .cancel, .join,
    .wait (.ms 1000)], x.Proper := by
  have plain : Request.plain.Proper := Request.plain_proper (.execute .plain) List.mem_cons_self
  simp only [List.mem_cons, List.not_mem_nil, or_false, forall_eq_or_imp, forall_eq]
  exact ⟨plain, trivial, trivial, trivial, trivial⟩

end World

/-- The element that sleeps on when its run is cancelled leads to no other one. -/
theorem run_ceases_abandoned : (World.run 14 .abandoned).session.running = true ∧
    ∃ w' e, (World.run 14 .abandoned).step = some w' ∧ w'.Ended e ∧
      ∀ w'', w'.LeadsIdly w'' → ∃ s, s.running = false ∧ e.session.Ceased s ∧ w''.Has s := by
  obtain ⟨w', step, idle⟩ := Option.map_eq_some_iff.mp World.abandoned_ends
  rcases run_ceases World.abandoned_proper (World.leads_run 14 World.abandoned) World.abandoned_runs step
    with ⟨running, _⟩ | ⟨e, ended, _, rests⟩
  · rw [running] at idle
    cases idle
  · exact ⟨World.abandoned_runs, w', e, step, ended, rests⟩

end BlockGraph
