import BlockGraph.Proofs.Footprints
import BlockGraph.Proofs.Starts
/-!
Handing over: what an element emits reaches those that it starts. All logic that is at work in a run is waited
for until the run is torn down, so nothing but the innermost element writes to a slot; and a connection that is
traversed finds in its source's slot what the source emitted last.
-/
namespace BlockGraph

/-- Only a run that is torn down already is torn down further. -/
theorem Goes.going {s s' : Session} {st st' : Stage} (h : Goes s st st' s') (going : st'.ending? = none) :
    st.ending? = none := by
  cases h with
  | barred => cases going
  | torn _ _ still =>
      rcases still with on | on <;> cases going.symm.trans on
  | cancelled => cases going
  | _ => rfl

theorem Passes.going {calm : Prop} {c c' : Course} (h : Passes calm c c') (sound : c.Sound)
    (going : c'.stage.ending? = none) : c.stage.ending? = none := by
  cases h with
  | rest => exact going
  | next _ next => exact (Stage.next_goes sound.1 sound.2 next).going going
  | cut _ _ cut => exact (cut.goes sound.2).going going
  | aside => exact going

theorem Stage.fit_of_ending {s : Session} {st : Stage} {e : WalkEnd} (ending : st.ending? = some e) : st.Fit s := by
  cases st with
  | unwinding | closing | «over» => exact trivial
  | _ => cases ending

/-- A stage with no element under way fits. -/
theorem Stage.fit_of_idle {s : Session} {st : Stage} (sound : st.Sound s)
    (idle : ∀ ids, st.underway? = some ids → ids = []) : st.Fit s := by
  have bare : ∀ {t : Traversal}, t.underway = [] → t.Fit s := fun none => by
    have none : Traversal.stack _ = [] := List.map_eq_nil_iff.mp none
    intro frame member
    rw [none] at member
    cases member
  cases st with
  | walking t => exact bare (idle _ rfl)
  | awaiting t a given? =>
      obtain ⟨_, _, frame, outer, stack, _⟩ := sound
      have none := idle _ rfl
      rw [Traversal.underway, stack] at none
      cases none
  | delaying t id => cases idle _ rfl
  | _ => exact trivial

theorem Stage.Fit.leaves {s s' : Session} {st : Stage} (h : st.Fit s) (l : ∀ id, s.Leaves id s') : st.Fit s' := by
  cases st with
  | walking t => exact Traversal.Fit.leaves h l
  | delaying t id => exact Traversal.Fit.leaves h l
  | awaiting t a given? => exact ⟨h.1.leaves l, h.2⟩
  | _ => exact trivial

namespace World

variable {α : Type} {w w' : World α} {c : Course} {task : Nat}

/-! ### Logic of the run under way -/

theorem Attended.beside {P : Context → Prop} (h : w.Attended P) (b : Beside w w') : w'.Attended P := by
  intro i a here own
  refine (h i a ((b.inner i _ (.attempt a)).mp here) own).imp_left fun ⟨j, k, walk, at_, waits⟩ => ?_
  exact ⟨j, k, b.walk?.trans walk, (b.inner j _ (.walk k)).mpr at_, waits⟩

/-- Whether all logic of the run under way is waited for, as long as it is not torn down. -/
def Tended (w : World α) : Prop :=
  ∀ st, w.AtStage st → st.ending? = none → w.Attended (·.run = w.session.run)

theorem StepsOn.tended (on : w.StepsOn w') (h : Shows none w c) (tended : w.Tended) : w'.Tended := by
  intro st' at_ going
  rw [on.run]
  rcases on.works h with ⟨beside, _⟩ | ⟨w₁, task, x, cancelled, quiet, shown, _, here, inner, rfl⟩
  · exact (tended c.stage h.stage (AtStage.unique (beside.atStage h.stage) at_ ▸ going)).beside beside
  have before : c.stage.ending? = none → w₁.Attended (·.run = w.session.run) := fun going =>
    (tended c.stage h.stage going).quiet quiet
  cases inner with
  | walk k =>
      obtain ⟨c', k', advances, shown', put, ceased, left⟩ :
        Walked False task k w₁ (w₁.walkTurn task k cancelled) c := shown.walkTurn here cancelled False.elim
      have going : c'.stage.ending? = none := AtStage.unique shown'.stage at_ ▸ going
      have current : (∀ e, k.mode ≠ .over e) → w₁.walk? = some task := fun alive =>
        Decidable.byContradiction fun gone => (shown.walks task k here (.inl gone)).elim alive
      refine (before (advances.passes.going shown.sound going)).walk here put current ceased fun i waits => ?_
      refine (left i waits).imp_right (Or.resolve_right · fun torn => ?_)
      obtain ⟨_, e, ending⟩ := torn
      cases going.symm.trans ending
  | attempt a =>
      obtain ⟨c', a', passes, shown', put, ceased, same⟩ :
        Worked False task a w₁ (w₁.attemptTurn task a cancelled) c := shown.attemptTurn here cancelled False.elim
      have going : c'.stage.ending? = none := AtStage.unique shown'.stage at_ ▸ going
      exact (before (passes.going shown.sound going)).attempt here put ceased same

/-! ### Elements under way -/

/-- Logic that goes on leaves the elements under way fit. -/
theorem Shows.attemptTurn_fit (h : Shows none w c) {a : Attempt} (here : w.work? task = some (.attempt a))
    (cancelled : Bool) (running : w.session.running = true) (fit : c.stage.Fit w.session)
    (distinct : ∀ ids, c.stage.underway? = some ids → ids.Nodup)
    (tended : c.stage.ending? = none → w.Attended (·.run = w.session.run)) {st : Stage}
    (at_ : (w.attemptTurn task a cancelled).AtStage st) : st.Fit (w.attemptTurn task a cancelled).session := by
  have known : a.process.Known w.session := h.session ▸ h.known task a here
  have deeds := attemptTurn_deeds here known cancelled
  have confined := attemptTurn_confined here cancelled running
  obtain ⟨_, a', _, _, put, _, same⟩ : Worked False task a w (w.attemptTurn task a cancelled) c :=
    h.attemptTurn here cancelled False.elim
  by_cases waits : w.Awaits task
  · obtain ⟨i, k, walk, there, waits⟩ := waits
    obtain ⟨given?, stage, after⟩ := stageOf_awaiting waits here (h.came walk there)
    have other : i ≠ task := by
      rintro rfl
      cases here.symm.trans there
    have comes : (w.attemptTurn task a cancelled).AtStage (.awaiting k.traversal a' given?) := by
      unfold AtStage
      rw [put.walk?, walk]
      exact ⟨k, put.still other there, after _ a' put.here⟩
    rw [AtStage.unique at_ comes]
    have sound := h.sound.2
    rw [stage, ← h.session] at sound
    rw [stage] at fit distinct
    exact fit.worked sound (distinct _ rfl) (fun id other => .of_deeds deeds running confined fun _ => other) same
  · rw [AtStage.unique at_ (h.stage.aside here put waits)]
    cases ending : c.stage.ending? with
    | some e => exact Stage.fit_of_ending ending
    | none =>
        by_cases own : a.process.context.run = w.session.run
        · obtain ⟨y, ceased⟩ := (tended ending task a here own).resolve_left waits
          have rests : w.attemptTurn task a cancelled = w := by
            unfold World.attemptTurn
            simp only [ceased]
          exact rests.symm ▸ fit
        · exact fit.leaves fun id => .of_deeds deeds running confined fun same => absurd same.symm own

theorem StepsOn.fit (on : w.StepsOn w') (h : Shows none w c) (calls : w.Calls Command.Spares) (tended : w.Tended)
    (fit : c.stage.Fit w.session) (distinct : ∀ ids, c.stage.underway? = some ids → ids.Nodup) {st : Stage}
    (at_ : w'.AtStage st) : st.Fit w'.session := by
  rcases on.works h with
    ⟨beside, deeds, slots⟩ | ⟨w₁, task, x, cancelled, quiet, shown, running, here, inner, rfl⟩
  · rw [AtStage.unique at_ (beside.atStage h.stage)]
    exact fit.leaves fun id => .of_kept (deeds.kept_of_running on.running) fun _ =>
      congrArg (·.slot id) (slots calls)
  rw [← quiet.session] at fit
  cases inner with
  | walk k =>
      obtain ⟨c', k', advances, shown', _⟩ :
        Walked False task k w₁ (w₁.walkTurn task k cancelled) c := shown.walkTurn here cancelled False.elim
      rw [AtStage.unique at_ shown'.stage]
      have same : (w₁.works task (.walk k) cancelled).session = c'.session := shown'.session
      rw [same]
      rw [shown.session] at fit running
      have sound := shown.sound
      cases advances with
      | rest => exact fit
      | next _ next => exact Stage.next_fit fit next sound.2 distinct sound.1 running
      | cut _ _ cut => exact Stage.cut_fit fit cut sound.2 distinct running
  | attempt a =>
      refine shown.attemptTurn_fit here cancelled running fit distinct (fun going => ?_) at_
      rw [quiet.session]
      exact (tended c.stage h.stage going).quiet quiet

section Run

variable {graph : Graph} {registry : Registry} {draws : List Double} {commands : List (Command α)}

/-- The elements under way in a run are different ones, and were started. -/
theorem Leads.underway (steps : (ofCommands (Session.ofGraph graph registry draws) commands).Leads w)
    (proper : ∀ x ∈ commands, x.Proper) (running : w.session.running = true) :
    ∃ c, Shows none w c ∧ ∀ ids, c.stage.underway? = some ids →
      ids.Nodup ∧ ∀ id ∈ ids, id ∈ w.session.processed := by
  obtain ⟨c, shown, holds⟩ := World.Leads.shows (lifecycle_law graph) proper steps
  obtain ⟨_, underway, tidy, known⟩ := holds.here (holds.started (shown.session ▸ running))
  refine ⟨c, shown, fun ids same => ?_⟩
  obtain rfl := known ids same
  refine ⟨?_, fun id member => shown.session ▸ tidy.started member⟩
  have once := tidy.order ▸ tidy.once
  rw [Session.starts, List.filterMap_reverse, List.nodup_reverse] at once
  exact (List.nodup_append.mp (tidy.nested.perm.nodup_iff.mpr once)).2.1

/-- All logic of a run is waited for until it is torn down, and its elements under way fit. -/
theorem Leads.fit (steps : (ofCommands (Session.ofGraph graph registry draws) commands).Leads w)
    (proper : ∀ x ∈ commands, x.Proper) (spares : ∀ x ∈ commands, x.Spares) (running : w.session.running = true) :
    w.Tended ∧ ∀ st, w.AtStage st → st.Fit w.session := by
  have stored : 0 < (Session.ofGraph graph registry draws).stores.size := Nat.succ_pos 0
  refine steps.induct_running proper (P := fun w => w.Tended ∧ ∀ st, w.AtStage st → st.Fit w.session) ?_ ?_ running
  · intro w s options listener bindings steps same
    have running : w.session.running = true := same ▸ taken_running s options listener bindings
    have unstarted : w.session.processed = [] := same ▸ s.taken_processed options listener bindings
    obtain ⟨c, shown, underway⟩ := Leads.underway steps proper running
    refine ⟨fun st _ _ i a here own => ?_, fun st at_ => ?_⟩
    · have known : a.process.Known w.session := shown.session ▸ shown.known i a here
      exact absurd own.symm (known.earlier unstarted)
    · rw [AtStage.unique at_ shown.stage, shown.session]
      refine Stage.fit_of_idle shown.sound.2 fun ids same => List.eq_nil_iff_forall_not_mem.mpr fun id member => ?_
      have started := (underway ids same).2 id member
      rw [unstarted] at started
      cases started
  · intro w w' steps on ⟨tended, fit⟩
    obtain ⟨c, shown, underway⟩ := Leads.underway steps proper on.running
    have distinct : ∀ ids, c.stage.underway? = some ids → ids.Nodup := fun ids same => (underway ids same).1
    exact ⟨on.tended shown tended, fun st at_ =>
      on.fit shown (Leads.calls stored proper spares steps) tended (fit _ shown.stage) distinct at_⟩

end Run

end World

/-! ### What is handed over -/

/-- What a connection delivers that carries its source's last emission: the value of that, or when it names no
output port, of the entry that the slot gained last. -/
theorem Session.Offers.delivered {s : Session} {c : Connection} {u : Emission} (h : s.Offers c)
    (own : c.source ≠ Slots.globalId) (last : s.emissions.lookup c.source = some u) :
    s.delivered? c = some u.value ∨ c.output? = none ∧ ∃ x, (s.slots.slot c.source).getLast? = some x ∧
      x.1 ≠ .text u.port ∧ s.delivered? c = some x.2 := by
  obtain ⟨_, e, emitted, carries, holds⟩ := h
  cases Option.some.inj (last.symm.trans emitted)
  obtain ⟨found, only⟩ := holds own
  cases named : c.output? with
  | some p =>
      left
      have same : p = u.port := by
        unfold Connection.carries at carries
        rw [named] at carries
        exact beq_iff_eq.mp carries
      cases same
      rw [delivered?_named named (.inr (by rw [found]; exact nofun)), found]
  | none =>
      unfold delivered?
      rw [named]
      cases latest : (s.slots.slot c.source).getLast? with
      | none =>
          rw [List.getLast?_eq_none_iff.mp latest] at found
          cases found
      | some x =>
          by_cases same : x.1 = .text u.port
          · exact .inl (congrArg some (only x (List.mem_of_getLast? latest) same))
          · exact .inr ⟨rfl, x, rfl, same, rfl⟩

namespace World

variable {α : Type} {w w' : World α} {c : Connection}

/-- The connection that the traversal of a world is about to traverse. -/
def heading? (w : World α) : Option Connection :=
  match w.walk?.bind w.work? with
  | some (.walk ⟨⟨_, frame :: _⟩, .walking⟩) => frame.pending.head?
  | _ => none

theorem heading?_stage (heading : w.heading? = some c) : ∃ t frame outer rest,
    w.AtStage (.walking t) ∧ t.stack = frame :: outer ∧ frame.pending = c :: rest := by
  unfold heading? at heading
  split at heading
  · rename_i entries frame outer here
    obtain ⟨i, walk, here⟩ := Option.bind_eq_some_iff.mp here
    obtain ⟨rest, pending⟩ := List.head?_eq_some_iff.mp heading
    refine ⟨⟨entries, frame :: outer⟩, frame, outer, rest, ?_, rfl, pending⟩
    unfold AtStage
    rw [walk]
    exact ⟨_, here, rfl⟩
  · cases heading

/-- A step that traverses a connection and adds to the execution order leaves what was emitted and recorded
before. -/
theorem StepsOn.traverses (on : w.StepsOn w') {course : Course} (h : Shows none w course)
    (heading : w.heading? = some c) {id : String}
    (started : w'.session.processed = w.session.processed ++ [id]) :
    c.target = id ∧ ∀ other, w.session.Leaves other w'.session := by
  obtain ⟨t, frame, outer, rest, stage, stack, pending⟩ := heading?_stage heading
  have grown : w'.session.processed ≠ w.session.processed := by simp [started]
  obtain ⟨t₁, t', s₁, target, stage', visits, more, _, session⟩ := on.visits h grown
  cases AtStage.unique stage stage'
  obtain ⟨running, size, _, processed⟩ := visits.kept on.running
  have stored : 0 < s₁.stores.size := size ▸ h.session ▸ h.sound.1
  obtain ⟨order, _⟩ := Traversal.visit_starts stored more
  have settled : ∀ r : Move × Session, (Stage.settle r).2.processed = r.2.processed ∧
      ∀ other, r.2.Leaves other (Stage.settle r).2 := fun ⟨m, s⟩ => by
    cases m with
    | fail f t => exact ⟨rfl, fun _ => s.note_leaves rfl⟩
    | _ => exact ⟨rfl, fun _ => .refl s⟩
  obtain ⟨same, leaves⟩ := settled (t'.visit s₁ target)
  rw [session, same, order, processed] at started
  rw [session]
  cases visits with
  | entered _ _ bare _ _ => cases stack.symm.trans bare
  | traversed frame' outer' c' rest' stack' pending' _ =>
      cases stack.symm.trans stack'
      cases pending.symm.trans pending'
      refine ⟨by simpa using started, fun other => ?_⟩
      have told : w.session.Leaves other _ := Session.traversed_leaves on.running c
      exact (told.trans (Traversal.visit_leaves _ running c.target)).trans (leaves other)

end World

/-- What an element hands over to one that it starts. A connection is traversed because it carries what its source
emitted last, and the element that is started finds the value of that under the connection's input port, unless
that is a property or another connection leads there too. When the connection names no output port, it may find
in its place what the source has recorded under the key that its slot gained last. -/
theorem run_hands {α : Type} {graph : Graph} {registry : Registry} {draws : List Double}
    {commands : List (Command α)} (proper : ∀ x ∈ commands, x.Proper) (spares : ∀ x ∈ commands, x.Spares)
    {w w' : World α} (steps : (World.ofCommands (Session.ofGraph graph registry draws) commands).Leads w)
    (on : w.StepsOn w') {c : Connection} (heading : w.heading? = some c) {id : String}
    (started : w'.session.processed = w.session.processed ++ [id]) :
    c.target = id ∧ ∃ u, w.session.emissions.lookup c.source = some u ∧ c.carries u.port = true ∧
      ∃ e ∈ graph.elements, e.id = id ∧ (w'.Spoils e ∨ ∃ given, w'.Starts e given ∧
        (Entries.carried? e.props c.targetPort = none →
          (∀ c' ∈ graph.incoming id, c'.targetPort = c.targetPort → c' = c) → c.source ≠ Slots.globalId →
          Entries.field? given.inputs c.targetPort = some u.value ∨ c.output? = none ∧
            ∃ x, (w'.session.slots.slot c.source).getLast? = some x ∧ x.1 ≠ .text u.port ∧
              Entries.field? given.inputs c.targetPort = some x.2)) := by
  have stored : 0 < (Session.ofGraph graph registry draws).stores.size := Nat.succ_pos 0
  obtain ⟨_, _, shown⟩ := (World.ofCommands_shows stored proper).leads steps
  have offers : w.session.Offers c := by
    obtain ⟨t, frame, outer, rest, stage, stack, pending⟩ := World.heading?_stage heading
    have fit : Traversal.Fit w.session t := (steps.fit proper spares on.running).2 _ stage
    exact ((fit frame (stack ▸ List.mem_cons_self)).pending c (pending ▸ List.mem_cons_self)).2
  obtain ⟨rfl, leaves⟩ := on.traverses shown heading started
  obtain ⟨u, last, carries, _⟩ := offers.2
  obtain ⟨e, member, same, graph', starts⟩ := on.started proper steps started
  refine ⟨rfl, u, last, carries, e, member, same, starts.imp_right ?_⟩
  rintro ⟨given, s, starts, made⟩
  refine ⟨given, starts, fun free only own => ?_⟩
  have offers := offers.leaves (leaves c.source)
  have delivers := offers.delivered own ((leaves c.source).emission.trans last)
  have found : Entries.field? given.inputs c.targetPort = w'.session.delivered? c := by
    have among : ∀ c' ∈ ((graph.incoming c.target).filter (·.targetPort == c.targetPort)).reverse, c' = c :=
      fun c' there => by
        obtain ⟨leads, port⟩ := List.mem_filter.mp (List.mem_reverse.mp there)
        exact only c' leads (beq_iff_eq.mp port)
    have here : c ∈ ((graph.incoming c.target).filter (·.targetPort == c.targetPort)).reverse := by
      rw [List.mem_reverse, List.mem_filter, beq_self_eq_true, and_iff_left rfl, Graph.incoming, List.mem_filter]
      exact ⟨graph' ▸ offers.1, beq_self_eq_true _⟩
    obtain ⟨v, delivered⟩ : ∃ v, w'.session.delivered? c = some v :=
      delivers.elim (fun same => ⟨_, same⟩) fun ⟨_, _, _, _, same⟩ => ⟨_, same⟩
    rw [Session.contextOf_delivered made free, graph', same]
    generalize List.reverse _ = leading at among here ⊢
    cases leading with
    | nil => cases here
    | cons first others =>
        cases among first List.mem_cons_self
        rw [List.findSome?_cons, delivered]
  rw [found]
  exact delivers

/-- The first of two elements hands over what it has emitted. -/
theorem run_hands_pair : ∃ e given u, (World.run 1 (World.run 11 .pair)).Starts e given ∧ e.id = "second" ∧
    (World.run 11 World.pair).session.emissions.lookup "first" = some u ∧
    Entries.field? given.inputs "input" = some u.value := by
  have on : (World.run 11 World.pair).StepsOn _ := World.stepsOn_run (by decide +kernel)
  have started : (World.run 1 (World.run 11 World.pair)).session.processed =
    (World.run 11 World.pair).session.processed ++ ["second"] := by decide +kernel
  have heading : (World.run 11 World.pair).heading? = some ⟨"link", "first", "second", some "output", none⟩ := by
    decide +kernel
  obtain ⟨_, u, last, _, e, member, id, outcome⟩ :=
    run_hands Request.plain_proper (fun _ member => List.mem_singleton.mp member ▸ trivial)
      (World.leads_run 11 World.pair) on heading started
  have bare := Graph.pair_bare e member
  rcases outcome with spoils | ⟨given, starts, finds⟩
  · exact absurd bare spoils.bare
  · have only : ∀ c' ∈ Graph.pair.incoming "second", c'.targetPort = "input" →
        c' = ⟨"link", "first", "second", some "output", none⟩ := fun c' there _ => List.mem_singleton.mp there
    rcases finds (bare ▸ rfl) only (by decide) with found | ⟨unnamed, _⟩
    · exact ⟨e, given, u, starts, id, last, found⟩
    · cases unnamed

end BlockGraph
