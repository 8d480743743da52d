import BlockGraph.Proofs.Failures
import BlockGraph.Proofs.Gated
import BlockGraph.Proofs.Inputs
import BlockGraph.Proofs.ViewMoves
/-!
Starts: the steps of a run in which an element is started, and what it is given then. An element is started
by the visit of an entry point or of a connection's target, and its inputs are read in the same step.
-/
namespace BlockGraph

namespace Traversal

variable {t t' : Traversal} {s s₁ : Session} {id : String}

/-- Whether a step of a traversal is the visit of an element. -/
inductive Visits (t : Traversal) (s : Session) : Traversal → Session → String → Prop
  | entered (id : String) (rest : List String) : t.stack = [] → t.entries = id :: rest → s.active = true →
      Visits t s { t with entries := rest } (s.note (.entered id)) id
  | traversed (frame : Frame) (outer : List Frame) (c : Connection) (rest : List Connection) :
      t.stack = frame :: outer → frame.pending = c :: rest → s.active = true →
      Visits t s { t with stack := { frame with pending := rest } :: outer }
        ((s.note (.traversed c.id)).notify (.traverse c.id)) c.target

/-- A step that adds to the execution order is a visit. -/
theorem step_visits (known : t.Known s) (running : s.running = true)
    (grown : (t.step s).2.processed ≠ s.processed) :
    ∃ t' s₁ id, t.Visits s t' s₁ id ∧ t.step s = t'.visit s₁ id := by
  obtain ⟨entries, stack⟩ := t
  cases stack with
  | nil =>
      cases entries with
      | nil => exact absurd rfl grown
      | cons id rest =>
          cases on : s.active with
          | false =>
              unfold step at grown
              simp only [on, Bool.false_eq_true, if_false] at grown
              exact absurd rfl grown
          | true =>
              refine ⟨_, _, id, .entered id rest rfl rfl on, ?_⟩
              unfold step
              simp only [on, if_true]
  | cons frame outer =>
      cases pending : frame.pending with
      | nil =>
          have advanced : step ⟨entries, frame :: outer⟩ s = advance ⟨entries, frame :: outer⟩ s frame := by
            unfold step
            simp only [pending]
          have moved := advance_moved (t := ⟨entries, frame :: outer⟩) rfl pending
            (known frame List.mem_cons_self)
          rw [advanced] at grown
          exact absurd (moved.still rfl pending running) grown
      | cons c rest =>
          cases on : s.active with
          | false =>
              unfold step at grown
              simp only [pending, on, Bool.false_eq_true, if_false] at grown
              exact absurd rfl grown
          | true =>
              refine ⟨_, _, _, .traversed frame outer c rest rfl pending on, ?_⟩
              unfold step
              simp only [pending, on, if_true]

theorem Visits.kept (h : t.Visits s t' s₁ id) (running : s.running = true) :
    s₁.running = true ∧ s₁.stores.size = s.stores.size ∧ s₁.graph = s.graph ∧ s₁.processed = s.processed := by
  cases h with
  | entered id rest _ _ _ => exact ⟨running, rfl, rfl, rfl⟩
  | traversed frame outer c rest _ _ _ =>
      have before : Session.RunsOn s (s.traversing c) ∧ (s.traversing c).stores.size = s.stores.size :=
        ⟨s.traversing_runsOn c, s.traversing_size c⟩
      have kept := (Session.notify_deeds (s.note (.traversed c.id)) (.traverse c.id)).kept_of_running
        (before.1.running.trans running)
      refine ⟨kept.running.trans (before.1.running.trans running), kept.size.trans before.2,
        kept.graph.trans before.1.graph, kept.processed.trans (Session.hears_processed _)⟩

/-- A traversal goes on with an element when its context could be made, and fails otherwise. -/
def startWith (t : Traversal) (e : Element) (logic : Logic) : Except Fault Context × Session → Move × Session
  | (.error f, s) => (.fail (.value f) t, s)
  | (.ok c, s) => (.go { t with stack := ⟨e, Source.ofLogic c logic, []⟩ :: t.stack }, s)

/-- A visit that adds to the execution order starts its element. -/
theorem visit_starts (stored : 0 < s.stores.size) (grown : (t.visit s id).2.processed ≠ s.processed) :
    (t.visit s id).2.processed = s.processed ++ [id] ∧ ∃ e ∈ s.graph.elements, e.id = id ∧ ∃ logic,
      t.visit s id = t.startWith e logic ((s.counted.startTold e).contextOf e) := by
  constructor
  · have visited := t.visit_visited stored id
    generalize (t.visit s id).1 = m at visited
    generalize (t.visit s id).2 = s' at visited grown
    cases visited with
    | failed f _ kept => exact kept.processed.trans (s.starting_processed id)
    | started frame _ kept _ _ _ => exact kept.processed.trans (s.starting_processed id)
    | _ => exact absurd rfl grown
  · unfold visit at grown ⊢
    cases on : s.active with
    | false =>
        rw [begin_inactive on] at grown
        exact absurd rfl grown
    | true =>
        by_cases beyond : s.options.maxSteps < ((s.steps + 1 : Nat) : Int)
        · rw [begin_overBudget on beyond] at grown
          exact absurd rfl grown
        have within := Int.not_lt.mp beyond
        by_cases seen : id ∈ s.processed
        · rw [begin_seen on within seen] at grown
          exact absurd rfl grown
        rw [begin_fresh on within seen] at grown ⊢
        cases found : s.graph.element? id with
        | none =>
            simp only [found] at grown
            exact absurd rfl grown
        | some e =>
            obtain ⟨member, same⟩ := Graph.element?_some found
            cases type : s.registry.find? e.type with
            | none =>
                simp only [found, type] at grown
                exact absurd rfl grown
            | some d =>
                refine ⟨e, member, same, d.logic, ?_⟩
                simp only [type]
                rw [start_eq]
                cases (s.counted.startTold e).contextOf e with
                | mk r s' => cases r <;> rfl

end Traversal

namespace World

variable {α : Type} {w w' : World α} {c : Course}

/-- Whether an element has just been started, with what is in a context. -/
def Starts (w : World α) (e : Element) (c : Context) : Prop := ∃ t frame outer p,
  w.AtStage (.walking t) ∧ t.stack = frame :: outer ∧ frame.element = e ∧
    frame.source.process? = some p ∧ p.context = c

/-- Whether the run is about to fail because the properties of an element cannot be copied. -/
def Spoils (w : World α) (e : Element) : Prop := ∃ f lines t,
  (copyProps e.props).outcome = (.error f, lines) ∧ w.AtStage (.unwinding t (.failed (.value f)))

/-- A step that adds to the execution order is a visit of the traversal. -/
theorem StepsOn.visits (on : w.StepsOn w') (h : Shows none w c)
    (grown : w'.session.processed ≠ w.session.processed) : ∃ t t' s₁ id, w.AtStage (.walking t) ∧
      t.Visits w.session t' s₁ id ∧ (t'.visit s₁ id).2.processed ≠ s₁.processed ∧
      w'.AtStage (Stage.settle (t'.visit s₁ id)).1 ∧ w'.session = (Stage.settle (t'.visit s₁ id)).2 := by
  rcases h.step_works on.step with quiet | ⟨w₁, task, x, cancelled, quiet, shown, here, rfl⟩
  · exact absurd (congrArg Session.processed quiet.session) grown
  have running : w₁.session.running = true := quiet.session ▸ on.running
  have free := shown.unwaiting here cancelled running on.still (quiet.session ▸ on.run)
  rw [← quiet.session] at grown ⊢
  by_cases walks : ∃ t, x = .walk ⟨t, .walking⟩ ∧ cancelled = false
  · obtain ⟨t, rfl, rfl⟩ := walks
    have walk : w₁.walk? = some task := Decidable.byContradiction fun other => by
      obtain ⟨_, ended⟩ := shown.walks task _ here (.inl other)
      cases ended
    have stage : .walking t = c.stage := Option.some.inj (shown.came walk here)
    have known : t.Known w₁.session := by
      have sound := shown.sound.2
      rw [← stage, ← shown.session] at sound
      exact sound.1
    have turn : w₁.works task (.walk ⟨t, .walking⟩) false = w₁.walkMove task (t.step w₁.session) := rfl
    rw [turn] at grown ⊢
    rw [w₁.walkMove_session] at grown ⊢
    have settled : ∀ r : Move × Session, (Stage.settle r).2.processed = r.2.processed := fun ⟨m, s⟩ => by
      cases m <;> rfl
    obtain ⟨t', s₁, id, visits, moves⟩ := Traversal.step_visits known running (settled _ ▸ grown)
    have stored : 0 < w₁.session.stores.size := shown.session ▸ shown.sound.1
    have goes := Goes.sound (.moved (Traversal.step_moved stored known)) ⟨known, trivial⟩
    have comes : (w₁.walkMove task (t.step w₁.session)).AtStage (Stage.settle (t.step w₁.session)).1 :=
      Comes.atStage (walkMove_comes here _ goes.1) walk
    rw [moves] at comes
    refine ⟨t, t', s₁, id, stage ▸ h.stage, visits, ?_, moves ▸ comes, moves ▸ rfl⟩
    rw [← moves, (visits.kept running).2.2.2]
    exact settled _ ▸ grown
  · refine absurd (shown.works_still here cancelled running free fun t => ?_) grown
    by_cases same : x = .walk ⟨t, .walking⟩
    · exact .inr (by simpa using fun off => walks ⟨t, same, off⟩)
    · exact .inl same

/-- A step that adds to the execution order starts an element, or fails because its properties cannot be
copied. -/
theorem StepsOn.starts (on : w.StepsOn w') (h : Shows none w c)
    (grown : w'.session.processed ≠ w.session.processed) : ∃ e ∈ w.session.graph.elements,
      w'.session.processed = w.session.processed ++ [e.id] ∧
        (w'.Spoils e ∨ ∃ given, ∃ s : Session, w'.Starts e given ∧ s.contextOf e = (.ok given, w'.session)) := by
  obtain ⟨t, t', s₁, id, _, visits, more, stage, session⟩ := on.visits h grown
  obtain ⟨_, size, graph, processed⟩ := visits.kept on.running
  have stored : 0 < s₁.stores.size := size ▸ h.session ▸ h.sound.1
  obtain ⟨order, e, member, rfl, logic, starts⟩ := Traversal.visit_starts stored more
  refine ⟨e, graph ▸ member, ?_, ?_⟩
  · rw [session, ← processed, ← order]
    generalize t'.visit s₁ e.id = r
    obtain ⟨m, s⟩ := r
    cases m <;> rfl
  · rw [starts] at stage session
    cases made : (s₁.counted.startTold e).contextOf e with
    | mk r s =>
        rw [made] at stage session
        cases r with
        | error f =>
            obtain ⟨lines, copies⟩ := Session.contextOf_error made
            exact .inl ⟨f, lines, t', copies, stage⟩
        | ok given =>
            refine .inr ⟨given, s₁.counted.startTold e, ⟨_, _, t'.stack, _, stage, rfl, rfl,
              Source.ofLogic_process given logic, rfl⟩, ?_⟩
            rw [session]
            exact made

end World

/-! ### What elements are given -/

namespace World

section Run

variable {α : Type} {graph : Graph} {registry : Registry} {draws : List Double} {commands : List (Command α)}
  {w w' : World α} {id : String}

/-- An element that is started in a run has had its context made from the session as it is then. -/
theorem StepsOn.started (on : w.StepsOn w') (proper : ∀ x ∈ commands, x.Proper)
    (steps : (ofCommands (Session.ofGraph graph registry draws) commands).Leads w)
    (order : w'.session.processed = w.session.processed ++ [id]) :
    ∃ e ∈ graph.elements, e.id = id ∧ w'.session.graph = graph ∧
      (w'.Spoils e ∨ ∃ given, ∃ s : Session, w'.Starts e given ∧ s.contextOf e = (.ok given, w'.session)) := by
  have stored : 0 < (Session.ofGraph graph registry draws).stores.size := Nat.succ_pos 0
  obtain ⟨c, _, shown⟩ := (ofCommands_shows stored proper).leads steps
  have grown : w'.session.processed ≠ w.session.processed := by simp [order]
  obtain ⟨e, member, order', starts⟩ := on.starts shown grown
  refine ⟨e, Leads.graph_eq steps proper ▸ member, ?_, Leads.graph_eq (steps.tail on.step) proper, starts⟩
  simpa using order'.symm.trans order

end Run

/-- Properties that there are none of can be copied. -/
theorem Spoils.bare {α : Type} {w : World α} {e : Element} (h : w.Spoils e) : e.props ≠ [] := by
  intro bare
  obtain ⟨f, lines, _, copies, _⟩ := h
  rw [bare] at copies
  cases copies

/-- A world that stays in a run for a step goes on within it. -/
theorem stepsOn_run {w : World Unit} (stays : staysOn 1 w = true) : w.StepsOn (run 1 w) := by
  unfold staysOn at stays
  cases step : w.step with
  | none => simp [step] at stays
  | some w' =>
      simp only [step, Bool.and_eq_true, beq_iff_eq] at stays
      have same : run 1 w = w' := by rw [run, step]; rfl
      exact same ▸ ⟨stays.1.1.1, step, stays.1.1.2, stays.1.2⟩

end World

/-- What reaches the elements of a run through connections. Of the connections that lead to a port without a
property the last that delivers anything counts. One that names an output port delivers what is recorded under
it, unless its source has recorded values under other ports only. -/
theorem run_delivers {α : Type} {graph : Graph} {registry : Registry} {draws : List Double}
    {commands : List (Command α)} (proper : ∀ x ∈ commands, x.Proper) {w w' : World α}
    (steps : (World.ofCommands (Session.ofGraph graph registry draws) commands).Leads w) (on : w.StepsOn w')
    {id : String} (started : w'.session.processed = w.session.processed ++ [id]) :
    ∃ e ∈ graph.elements, e.id = id ∧ (w'.Spoils e ∨ ∃ given, w'.Starts e given ∧
      ∀ port, Entries.carried? e.props port = none →
        Entries.field? given.inputs port = ((graph.incoming id).filter (·.targetPort == port)).reverse.findSome?
          w'.session.delivered? ∧
        ∀ c ∈ graph.incoming id, ∀ p, c.output? = some p → (w'.session.slots.slot c.source = [] ∨
            Entries.field? (w'.session.slots.slot c.source) p ≠ none) →
          w'.session.delivered? c = Entries.field? (w'.session.slots.slot c.source) p) := by
  obtain ⟨e, member, rfl, same, starts⟩ := on.started proper steps started
  refine ⟨e, member, rfl, starts.imp_right ?_⟩
  rintro ⟨given, s, starts, made⟩
  refine ⟨given, starts, fun port free => ⟨?_, fun c _ p named => Session.delivered?_named named⟩⟩
  rw [Session.contextOf_delivered made free, same]

/-- The two elements have no properties. -/
theorem Graph.pair_bare : ∀ e ∈ Graph.pair.elements, e.props = [] := by
  intro e member
  rcases List.mem_cons.mp member with rfl | last
  · rfl
  · rw [List.mem_singleton.mp last]

/-- The second of two elements finds under its input port what the first has recorded. -/
theorem run_delivers_pair : ∃ e given, (World.run 1 (World.run 11 .pair)).Starts e given ∧ e.id = "second" ∧
    Entries.field? given.inputs "input" =
      Entries.field? ((World.run 1 (World.run 11 .pair)).session.slots.slot "first") "output" := by
  have on : (World.run 11 World.pair).StepsOn _ := World.stepsOn_run (by decide +kernel)
  have started : (World.run 1 (World.run 11 World.pair)).session.processed =
    (World.run 11 World.pair).session.processed ++ ["second"] := by decide +kernel
  have recorded : (Entries.field? ((World.run 1 (World.run 11 World.pair)).session.slots.slot "first")
    "output").isSome = true := by decide +kernel
  obtain ⟨e, member, id, outcome⟩ := run_delivers Request.plain_proper (World.leads_run 11 World.pair) on started
  generalize World.run 1 (World.run 11 World.pair) = w at outcome recorded ⊢
  have bare := Graph.pair_bare e member
  rcases outcome with spoils | ⟨given, starts, delivers⟩
  · exact absurd bare spoils.bare
  · obtain ⟨found, named⟩ := delivers "input" (bare ▸ rfl)
    have link : (Graph.pair.incoming "second").filter (·.targetPort == "input") = Graph.pair.connections := rfl
    rw [link] at found
    have delivered := named ⟨"link", "first", "second", some "output", none⟩ (List.mem_singleton.mpr rfl) "output" rfl
      (.inr (Option.isSome_iff_ne_none.mp recorded))
    obtain ⟨v, same⟩ := Option.isSome_iff_exists.mp recorded
    refine ⟨e, given, starts, id, found.trans ?_⟩
    rw [same] at delivered ⊢
    show List.findSome? _ [_] = _
    simp only [List.findSome?_cons, delivered]

/-- What the elements of a run find under the keys of their properties, whatever connections lead there: a copy
of the property, of a long text its first ten thousand characters and of a long list or tuple its first thousand
items. -/
theorem run_overrides {α : Type} {graph : Graph} {registry : Registry} {draws : List Double}
    {commands : List (Command α)} (proper : ∀ x ∈ commands, x.Proper) {w w' : World α}
    (steps : (World.ofCommands (Session.ofGraph graph registry draws) commands).Leads w) (on : w.StepsOn w')
    {id : String} (started : w'.session.processed = w.session.processed ++ [id]) :
    ∃ e ∈ graph.elements, e.id = id ∧ (w'.Spoils e ∨ ∃ given, w'.Starts e given ∧
      ∀ k v, Entries.carried? e.props k = some v → ∃ u, Entries.field? given.inputs k = some u ∧
        u.shape = v.trimmed.shape ∧ (v.fits → u.shape = v.shape)) := by
  obtain ⟨e, member, rfl, _, starts⟩ := on.started proper steps started
  refine ⟨e, member, rfl, starts.imp_right ?_⟩
  rintro ⟨given, s, starts, made⟩
  refine ⟨given, starts, fun k v carried => ?_⟩
  obtain ⟨u, found, shape⟩ := Session.contextOf_carried made carried
  exact ⟨u, found, shape, fun fits => shape.trans (Value.trimmed_shape fits)⟩

/-- Two elements of which the second has a property under the port that the first leads to. -/
def Graph.overriding : Graph :=
  { Graph.pair with elements := [⟨"first", "one", .int 0, .int 0, []⟩,
      ⟨"second", "one", .int 1, .int 0, [(.text "input", .text "own")]⟩] }

/-- A world in which they are about to be run. -/
def World.overriding : World Unit := ofCommands (.ofGraph .overriding ⟨[("one", .one)]⟩ []) [.execute .plain]

/-- The second of them finds its own property, although the first has recorded something for that port. -/
theorem run_overrides_pair : ∃ e given, (World.run 1 (World.run 11 .overriding)).Starts e given ∧
    Entries.field? given.inputs "input" = some (.text "own") ∧
    (Entries.field? ((World.run 1 (World.run 11 .overriding)).session.slots.slot "first") "output").isSome := by
  have on : (World.run 11 World.overriding).StepsOn _ := World.stepsOn_run (by decide +kernel)
  have started : (World.run 1 (World.run 11 World.overriding)).session.processed =
    (World.run 11 World.overriding).session.processed ++ ["second"] := by decide +kernel
  have recorded : (Entries.field? ((World.run 1 (World.run 11 World.overriding)).session.slots.slot "first")
    "output").isSome = true := by decide +kernel
  obtain ⟨e, member, id, outcome⟩ :=
    run_overrides Request.plain_proper (World.leads_run 11 World.overriding) on started
  generalize World.run 1 (World.run 11 World.overriding) = w at outcome recorded ⊢
  have own : e.props = [(.text "input", .text "own")] := by
    rcases List.mem_cons.mp member with rfl | last
    · exact absurd id (by decide)
    · rw [List.mem_singleton.mp last]
  rcases outcome with ⟨f, lines, _, copies, _⟩ | ⟨given, starts, carries⟩
  · rw [own] at copies
    cases copies
  · obtain ⟨u, found, _, whole⟩ := carries "input" (.text "own") (own ▸ rfl)
    have short : "own".length ≤ 10000 := by decide
    have shape : u.shape = .text "own" := whole short
    refine ⟨e, given, starts, found.trans (congrArg some ?_), recorded⟩
    cases u with
    | text s => simpa only [Value.shape] using shape
    | _ => cases shape

end BlockGraph
