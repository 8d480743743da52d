import BlockGraph.Proofs.Failures
import BlockGraph.Proofs.Lockstep
/-!
Runs with more steps to take. What comes about in a run comes about in the same run with a higher limit on its
steps before anything else does, and both end in the same way unless the first uses up its steps.
-/
namespace BlockGraph

/-- Whether an execution used up its steps, and failed for that unless it was cut short before it could. -/
def Execution.Spent (e : Execution) : Prop := ∃ steps limit, .failed (.budget steps limit) ∈ e.session.history ∧
  (e.outcome = .failed (.budget steps limit) ∨ e.outcome = .cancelled ∨ ∃ ms, e.outcome = .failed (.runTimeout ms))

/-- A session that is taken for a run with another limit on its steps. -/
theorem Session.taken_alike (s : Session) {options : Options} {listener : Listener} (records : listener.Records)
    {limit : Int} (more : options.maxSteps ≤ limit) (bindings : Entries) :
    (s.taken options listener bindings).Alike
      (s.taken { options with maxSteps := limit } listener bindings) := by
  have started : Session.Alike
      { s.cleared with options, listener, bindings, running := true, status := .running, started := true }
      { s.cleared with
        options := { options with maxSteps := limit }, listener, bindings, running := true
        status := .running, started := true } :=
    ⟨⟨limit, s.cleared.log, s.cleared.heard, rfl⟩, rfl, records, more⟩
  exact (Session.Alike.likeness.report started _ _ _).logBy 2 _ _

namespace World

variable {α : Type} {w w₀ w₁ w₂ w' : World α} {c c' : Course} {e : Execution}

/-! ### Runs that have used up their steps -/

/-- Nothing more comes about in a run that has used up its steps. -/
theorem StepsOn.spent (on : w.StepsOn w₁) (h : Shows none w c) (budgeted : c.stage.Budgeted c.session)
    (spent : w.session.Spent) : Kept w.session w₁.session := by
  obtain ⟨steps, limit, failed⟩ := spent
  obtain ⟨e, ends⟩ : ∃ e, c.stage.ending? = some e :=
    (budgeted.ending (h.session ▸ failed)).elim (⟨_, ·⟩) (⟨_, ·⟩)
  obtain ⟨c', shown, ⟨_, deeds⟩ | passes⟩ := on.passes h
  · exact deeds.kept_of_running on.running
  · have deeds := passes.torn_deeds h.sound ends
    rw [← h.session, ← shown.session] at deeds
    exact deeds.kept_of_running on.running

/-! ### Runs -/

/-- A run goes on in one way only. -/
theorem stepsOn_unique : Relator.RightUnique (StepsOn (α := α)) := fun _ _ _ on on' =>
  Option.some.inj (on.step.symm.trans on'.step)

/-- A run that ends has come to all that it ever comes to. -/
theorem EndsIn.last (ends : w.EndsIn e w') (on : w₀.LeadsOn w) (on₁ : w₀.LeadsOn w₁) : w₁.LeadsOn w := by
  rcases Relation.ReflTransGen.total_of_right_unique stepsOn_unique on₁ on with ahead | behind
  · exact ahead
  · rcases Relation.ReflTransGen.cases_head behind with rfl | ⟨w₂, step, _⟩
    · exact .refl
    · cases ends.step.symm.trans step.step
      exact absurd step ends.leaves

/-- What comes about in a run has come about in its execution. -/
theorem EndsIn.visits (ends : w.EndsIn e w') :
    e.session.visits = w.session.visits ∧ e.session.heardVisits = w.session.heardVisits := by
  obtain ⟨st, s, _, how, same⟩ := ends.how
  have kept := how.kept ends.running
  rw [same]
  exact ⟨kept.visits, kept.heard⟩

/-- Executions end alike when their runs have kept up with one another to the end. -/
theorem Alike.ends (alike : w.Alike w') (h : Shows none w c) (h' : Shows none w' c')
    (running : w.session.running = true) (step : w.step = some w₁) (leaves : ¬w.StepsOn w₁) :
    ∃ e e' w₁', w.EndsIn e w₁ ∧ w'.EndsIn e' w₁' ∧ e.Alike e' := by
  rcases alike.like.step step with
    ⟨_, _, quiet, _⟩ | ⟨u, u', task, x, x', cancelled, quiet, quiet', like, here, here', plain, rfl, step'⟩
  · exact absurd ⟨running, step, quiet.session ▸ running, congrArg Session.run quiet.session⟩ leaves
  · cases waits : x.pending? with
    | none =>
        have grows := (h.quiet quiet).works_grows here cancelled (quiet.session ▸ running) waits
        rw [quiet.session] at grows
        exact absurd ⟨running, step, grows.running.trans running, grows.run⟩ leaves
    | some p =>
        rcases Work.eq_of_plain plain with rfl | ⟨_, _, rfl, _⟩
        · exact ⟨_, _, _, h.endsIn_works quiet here waits cancelled running step,
            h'.endsIn_works quiet' here' waits cancelled (alike.session.running.trans running) step',
            like.alike.conclude task p cancelled⟩
        · cases waits

/-- An execution whose run has used up its steps. -/
theorem EndsIn.spent (ends : w.EndsIn e w') (h : Shows none w c) (budgeted : c.stage.Budgeted c.session)
    (spent : w.session.Spent) : e.Spent := by
  obtain ⟨steps, limit, failed⟩ := spent
  obtain ⟨st, s, stage, how, same⟩ := ends.how
  cases AtStage.unique stage h.stage
  have history : e.session.history = w.session.history := by
    rw [same]
    exact (how.kept ends.running).history
  rw [← h.session] at budgeted
  exact ⟨steps, limit, history ▸ failed, budgeted.concluded how failed⟩

section Run

variable {graph : Graph} {registry : Registry} {draws : List Double} {commands commands' : List (Command α)}

theorem LeadsOn.precedes (on : w.LeadsOn w₁)
    (steps : (ofCommands (Session.ofGraph graph registry draws) commands).Leads w)
    (proper : ∀ x ∈ commands, x.Proper) (running : w.session.running = true) : w.session.Precedes w₁.session :=
  (LeadsOn.beats on steps proper).precedes running

/-- A run keeps up with one that may take more steps, as long as it goes on. -/
theorem LeadsOn.follows (on : w.LeadsOn w₁)
    (steps : (ofCommands (Session.ofGraph graph registry draws) commands).Leads w)
    (steps' : (ofCommands (Session.ofGraph graph registry draws) commands').Leads w')
    (proper : ∀ x ∈ commands, x.Proper) (proper' : ∀ x ∈ commands', x.Proper)
    (blind : ∀ x ∈ commands, x.Blind) (alike : w.Alike w') :
    ∃ w₂, w'.LeadsOn w₂ ∧ w₁.Follows w₂ := by
  have stored : 0 < (Session.ofGraph graph registry draws).stores.size := Nat.succ_pos 0
  induction on with
  | refl => exact ⟨w', .refl, .inl alike⟩
  | @tail w₁ w₂ on step ih =>
      obtain ⟨w₁', on', follows⟩ := ih
      have steps₁ := steps.trans (LeadsOn.leads on)
      obtain ⟨c, shown, holds⟩ := World.Leads.shows ((lifecycle_law graph).and (budget_law graph)) proper steps₁
      rcases follows with alike | ⟨spent, precedes⟩
      · have running' := alike.session.running.trans step.running
        obtain ⟨c', shown', settled'⟩ := Leads.settled (steps'.trans (LeadsOn.leads on')) proper' running'
        obtain ⟨w₂', step', follows⟩ :=
          step.follows shown shown' settled' (Leads.calls stored proper blind steps₁) alike
        exact ⟨w₂', on'.tail step', follows⟩
      · obtain ⟨_, budgeted⟩ := holds.here (holds.started (shown.session ▸ step.running))
        have kept := step.spent shown budgeted spent
        obtain ⟨steps, limit, failed⟩ := spent
        exact ⟨w₁', on', .inr ⟨⟨steps, limit, kept.history ▸ failed⟩,
          (Session.Precedes.of_eq kept.visits.symm kept.heard.symm).trans precedes⟩⟩

end Run

end World

/-- A run and the same run with a higher limit on its steps, with listeners that only listen. At any time,
what has come about in the first has come about in the second before anything else; they have come to the same,
unless the first has used up its steps. When its execution ends, that of the second ends in the same way and in
the same state, unless the first failed because it had used up its steps, or was cut short after that. -/
theorem run_extends {α : Type} {graph : Graph} {registry : Registry} {draws : List Double}
    {commands commands' : List (Command α)} (proper : ∀ x ∈ commands, x.Proper)
    (proper' : ∀ x ∈ commands', x.Proper) (blind : ∀ x ∈ commands, x.Blind) {w w' : World α}
    (steps : (World.ofCommands (Session.ofGraph graph registry draws) commands).Leads w)
    (steps' : (World.ofCommands (Session.ofGraph graph registry draws) commands').Leads w')
    {s : Session} {options : Options} {listener : Listener} {bindings : Entries} {limit : Int}
    (records : listener.Records) (more : options.maxSteps ≤ limit)
    (taken : w.session = s.taken options listener bindings)
    (twin : w' = w.withSession (s.taken { options with maxSteps := limit } listener bindings)) :
    (∀ w₁, w.LeadsOn w₁ → ∃ w₂, w'.LeadsOn w₂ ∧ w₁.session.Precedes w₂.session ∧
      (w₁.session.Alike w₂.session ∨ w₁.session.Spent)) ∧
    ∀ w₁ x, w.LeadsOn w₁ → w₁.step = some x → ¬w₁.StepsOn x → ∃ e, w₁.EndsIn e x ∧
      (∀ w₂ e' x', w'.LeadsOn w₂ → w₂.EndsIn e' x' → e.session.Precedes e'.session) ∧
      ((∃ w₂ e' x', w'.LeadsOn w₂ ∧ w₂.EndsIn e' x' ∧ e.Alike e') ∨ e.Spent) := by
  have running : w.session.running = true := taken ▸ World.taken_running _ _ _ _
  have alike : w.Alike w' := by
    subst twin
    exact ⟨taken ▸ s.taken_alike records more bindings, rfl⟩
  have follows : ∀ {w₁}, w.LeadsOn w₁ → ∃ w₂, w'.LeadsOn w₂ ∧ w₁.Follows w₂ := fun on =>
    on.follows steps steps' proper proper' blind alike
  refine ⟨fun w₁ on => ?_, fun w₁ x on step leaves => ?_⟩
  · obtain ⟨w₂, on', follows⟩ := follows on
    exact ⟨w₂, on', follows.precedes, follows.imp (·.session) And.left⟩
  · obtain ⟨w₂, on', follows⟩ := follows on
    have running₁ := World.LeadsOn.running on running
    have steps₂ := steps'.trans (World.LeadsOn.leads on')
    obtain ⟨c, shown, holds⟩ := World.Leads.shows ((lifecycle_law graph).and (budget_law graph)) proper
      (steps.trans (World.LeadsOn.leads on))
    obtain ⟨_, budgeted⟩ := holds.here (holds.started (shown.session ▸ running₁))
    have before : ∀ e, w₁.EndsIn e x → ∀ w₃ e' x', w'.LeadsOn w₃ → w₃.EndsIn e' x' →
        e.session.Precedes e'.session := by
      intro e ends w₃ e' x' on₃ ends'
      have later := (ends'.last on₃ on').precedes steps₂ proper'
        (World.LeadsOn.running on' (alike.session.running.trans running))
      obtain ⟨visits, heard⟩ := ends.visits
      obtain ⟨visits', heard'⟩ := ends'.visits
      exact (((Session.Precedes.of_eq visits.symm heard.symm).trans follows.precedes).trans later).trans
        (.of_eq visits' heard')
    rcases follows with alike | ⟨spent, _⟩
    · obtain ⟨c', shown', _⟩ := World.Leads.settled steps₂ proper' (alike.session.running.trans running₁)
      obtain ⟨e, e', x', ends, ends', same⟩ := alike.ends shown shown' running₁ step leaves
      exact ⟨e, ends, before e ends, .inl ⟨w₂, e', x', on', ends', same⟩⟩
    · obtain ⟨e, ends⟩ := shown.endsIn running₁ step leaves
      exact ⟨e, ends, before e ends, .inr (ends.spent shown budgeted spent)⟩

/-! ### Two elements and one step -/

namespace Options

theorem limitedInt_ok {limit : Nat} {n : Int} (pos : 0 < n) (within : n ≤ limit) :
    limitedInt limit (.int n) = .ok n := by
  unfold limitedInt
  have read : Lenient.int (.int n) = .ok n := rfl
  simp only [read, bind, Except.bind, if_neg (Int.not_lt.mpr within), if_neg (Int.not_le.mpr pos)]
  rfl

/-- Options with a short time and a limit on the steps. -/
def brief (limit : Int) : Options := { default with maxTime := .ofRatio false 50 1, maxSteps := limit }

theorem brief_eq (limit limit' : Int) : brief limit' = { brief limit with maxSteps := limit' } := by
  unfold brief
  generalize default = o
  generalize Double.ofRatio false 50 1 = maxTime
  rfl

theorem ofGiven_brief {limit : Int} (pos : 0 < limit) (within : limit ≤ Settings.maxStepsLimit) :
    ofGiven [(.text "max_steps", .value (.int limit)), (.text "max_execution_time", .value (.int 50))] =
      .ok (brief limit) := by
  have editor := names_editor
  simp only [names, valueNames, EventKind.all, EventKind.optionName, List.cons_append, List.nil_append,
    List.map_cons, List.map_nil, List.cons.injEq, and_true] at editor
  have time : limitedDouble false Settings.maxTimeLimit (.int 50) = .ok (.ofRatio false 50 1) := by
    decide +kernel
  have steps := limitedInt_ok pos within
  generalize given : [(Value.text "max_steps", GivenOption.value (.int limit)),
    (.text "max_execution_time", .value (.int 50))] = g
  have spelt : ∀ name, given? g name = if "max_steps" = name then some (.value (.int limit)) else
      if "max_execution_time" = name then some (.value (.int 50)) else none := by
    intro name
    rw [← given, given?_cons, given?_cons, given?_nil]
  have maxSteps : read g "max_steps" (limitedInt Settings.maxStepsLimit) default.maxSteps = (limit, []) := by
    simp [read, spelling?, spelt, editor, steps]
  have maxTime : read g "max_execution_time" (limitedDouble false Settings.maxTimeLimit) default.maxTime =
      (.ofRatio false 50 1, []) := by
    simp [read, spelling?, spelt, editor, time]
  have used : (names.filterMap fun name => (spelling? g name).map (·.1)) = ["max_execution_time", "max_steps"] := by
    simp only [names, valueNames, EventKind.all, EventKind.optionName, List.cons_append, List.nil_append,
      List.map_cons, List.map_nil]
    simp [spelling?, spelt, editor]
  have known : strays g = [] := by
    rw [strays, used, ← given]
    simp
  unfold ofGiven
  rw [maxSteps, maxTime, known]
  simp [read, listens, spelling?, spelt, EventKind.all, EventKind.optionName, editor]
  rfl

theorem brief_valid {limit : Int} (pos : 0 < limit) (within : limit ≤ Settings.maxStepsLimit) :
    (brief limit).Valid := ⟨_, ofGiven_brief pos within⟩

end Options

/-- The request of a run with such options. -/
def Request.brief (limit : Int) : Request := ⟨.ok (.brief limit), .null, .silent⟩

theorem Request.brief_accepts {limit : Int} (pos : 0 < limit) (within : limit ≤ Settings.maxStepsLimit) :
    (brief limit).Accepts (.brief limit) [] := ⟨rfl, Options.brief_valid pos within, rfl⟩

namespace World

variable {α : Type}

/-- A world in which two elements are about to be run with such options. -/
def brief (logic : BlockDefinition) (limit : Int) : World Unit :=
  ofCommands (.ofGraph .pair ⟨[("one", logic)]⟩ []) [.execute (.brief limit)]

theorem brief_proper {limit : Int} (pos : 0 < limit) (within : limit ≤ Settings.maxStepsLimit) :
    ∀ x ∈ [Command.execute (α := Unit) (.brief limit)], x.Proper := by
  intro x member
  rw [List.mem_singleton.mp member]
  intro options accepted
  rw [← Except.ok.inj accepted]
  exact Options.brief_valid pos within

/-- Worlds in which a run has just begun differ in their sessions only, whatever the limits are. -/
theorem lone_withSession (s s' : Session) (o : Options) (limit : Int) : lone (α := α) s
    { o with maxSteps := limit } 0 unopened (.parked 0) [] [.turn 1] =
      (lone s' o 0 unopened (.parked 0) [] [.turn 1]).withSession s := rfl

theorem brief_begins (logic : BlockDefinition) {limit : Int} (pos : 0 < limit)
    (within : limit ≤ Settings.maxStepsLimit) : run 1 (brief logic limit) =
      lone ((Session.ofGraph .pair ⟨[("one", logic)]⟩ []).taken (.brief limit) .silent []) (.brief limit) 0
        unopened (.parked 0) [] [.turn 1] := by
  rw [run, brief, execute_begins (Request.brief_accepts pos within) rfl]
  rfl

/-- With one step only the first element is started, with two steps both are. -/
theorem brief_runs : staysOn 16 (run 1 (brief .one 1)) = true ∧ staysOn 37 (run 1 (brief .one 2)) = true ∧
    (run 16 (run 1 (brief .one 1))).session.processed = ["first"] ∧
    (run 37 (run 1 (brief .one 2))).session.processed = ["first", "second"] ∧
    (run 37 (run 1 (brief .one 2))).session.running = true ∧
    (run 16 (run 1 (brief .one 1))).step.map (·.session.running) = some false ∧
    (run 37 (run 1 (brief .one 2))).step.map (·.session.running) = some false := by decide +kernel

end World

/-- A run of two elements that may take one step comes before the one that may take two. -/
theorem run_extends_pair : ∃ e e' x x', (World.run 16 (World.run 1 (.brief .one 1))).EndsIn e x ∧
    (World.run 37 (World.run 1 (.brief .one 2))).EndsIn e' x' ∧ e.session.processed = ["first"] ∧
    e'.session.processed = ["first", "second"] ∧ e.session.Precedes e'.session := by
  have proper : ∀ x ∈ [Command.execute (α := Unit) (.brief 1)], x.Proper :=
    World.brief_proper (by decide) (by decide)
  have proper' : ∀ x ∈ [Command.execute (α := Unit) (.brief 2)], x.Proper :=
    World.brief_proper (by decide) (by decide)
  have blind : ∀ x ∈ [Command.execute (α := Unit) (.brief 1)], x.Blind := by
    intro x member
    rw [List.mem_singleton.mp member]
    trivial
  have stored : 0 < (Session.ofGraph .pair ⟨[("one", .one)]⟩ []).stores.size := Nat.succ_pos 0
  have records : Listener.silent.Records := fun _ => rfl
  have more : (Options.brief 1).maxSteps ≤ 2 := by decide
  obtain ⟨stays, stays', order, order', on', idle, idle'⟩ := World.brief_runs
  have begins := World.brief_begins .one (show (0 : Int) < 1 by decide) (by decide)
  have begins' := World.brief_begins .one (show (0 : Int) < 2 by decide) (by decide)
  rw [Options.brief_eq 1 2] at begins'
  generalize Options.brief 1 = o at begins begins' more
  have twin := begins'.trans (World.lone_withSession _
    ((Session.ofGraph .pair ⟨[("one", .one)]⟩ []).taken o .silent []) o 2)
  rw [← begins] at twin
  have steps : (World.brief .one 1).Leads (World.run 1 (.brief .one 1)) := World.leads_run 1 _
  have steps' : (World.brief .one 2).Leads (World.run 1 (.brief .one 2)) := World.leads_run 1 _
  have leads := World.leadsOn_run stays
  have leads' := World.leadsOn_run stays'
  obtain ⟨_, _, shown⟩ := (World.ofCommands_shows stored proper').leads
    (steps'.trans (World.LeadsOn.leads leads'))
  obtain ⟨x, step, off⟩ := Option.map_eq_some_iff.mp idle
  obtain ⟨e', x', ends'⟩ := shown.endsIn_idle on' idle'
  obtain ⟨_, endings⟩ := run_extends proper proper' blind steps steps' records more
    (congrArg World.session begins) twin
  obtain ⟨e, ends, precedes, _⟩ := endings _ x leads step fun stays => by
    rw [stays.still] at off
    cases off
  exact ⟨e, e', x, x', ends, ends', ends.order.trans order, ends'.order.trans order',
    precedes _ _ _ leads' ends'⟩

/-! ### A run that is cut short -/

/-- A block that hands on a number and takes its time to end. -/
def BlockDefinition.lingering : BlockDefinition :=
  { BlockDefinition.one with logic := .script .stream [.emit (.text "output") (.int 1)] [.sleep (.ms 100)] }

namespace World

/-- Whether a world has replied that the time of an execution ran out, before which so many visits were told
of and these elements were started. -/
def repliesTimeout (w : World Unit) (visits : Nat) (order : List String) : Bool :=
  w.replies.any fun r => match r with
    | .executed e => match e.outcome with
      | .failed (.runTimeout _) => e.session.visits.length == visits && e.session.processed == order
      | _ => false
    | _ => false

theorem ended_of_replies {w : World Unit} {visits : Nat} {order : List String}
    (replies : w.repliesTimeout visits order = true) : ∃ e ms, w.Ended e ∧ e.outcome = .failed (.runTimeout ms) ∧
      e.session.visits.length = visits ∧ e.session.processed = order := by
  obtain ⟨r, member, tells⟩ := Array.any_eq_true'.mp replies
  split at tells
  · rename_i e
    split at tells
    · rename_i ms outcome
      simp only [Bool.and_eq_true, beq_iff_eq] at tells
      exact ⟨e, ms, .inl member, outcome, tells⟩
    · cases tells
  · cases tells

theorem lingering_replies : (run 17 (brief .lingering 1)).repliesTimeout 2 ["first"] = true ∧
    (run 26 (brief .lingering 2)).repliesTimeout 3 ["first", "second"] = true := by decide +kernel

end World

/-- The time of a run may be up while it is being torn down for lack of steps. With one more step it comes to
more, though neither run fails for lack of steps. -/
theorem run_outlasted : ∃ e e' ms ms', (World.run 17 (World.brief .lingering 1)).Ended e ∧
    (World.run 26 (World.brief .lingering 2)).Ended e' ∧ e.outcome = .failed (.runTimeout ms) ∧
    e'.outcome = .failed (.runTimeout ms') ∧ e.session.visits ≠ e'.session.visits ∧
    e.session.processed ≠ e'.session.processed := by
  obtain ⟨e, ms, ended, outcome, visits, order⟩ := World.ended_of_replies World.lingering_replies.1
  obtain ⟨e', ms', ended', outcome', visits', order'⟩ := World.ended_of_replies World.lingering_replies.2
  refine ⟨e, e', ms, ms', ended, ended', outcome, outcome', fun same => ?_, ?_⟩
  · rw [same, visits'] at visits
    cases visits
  · rw [order, order']
    decide

end BlockGraph
