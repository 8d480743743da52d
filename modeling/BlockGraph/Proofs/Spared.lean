import BlockGraph.Proofs.Halts
import BlockGraph.Proofs.ViewSteps
/-!
A run without its stops. Until a stop is asked for, a run and the same run in which logic, listeners and
callers ask for none go in step. From then on the one adds nothing to its execution order, so that this is
a prefix of what the other comes to.
-/
namespace BlockGraph
namespace View

variable {v : View}

/-! ### What is known under a view -/

section Known

variable {s : Session}

theorem knows {run : Nat} {id : String} (h : s.Knows run id) :
    (v.session s).Knows (v.earlier.size + run) id := by
  have size : (v.session s).stores.size = v.earlier.size + s.stores.size := Array.size_append
  refine ⟨?_, fun last => h.2 ?_⟩
  · have inside := h.1
    omega
  · omega

theorem process_known {p : Process} (h : p.Known s) : (v.process p).Known (v.session s) := knows h

theorem source_known {source : Source} (h : source.Known s) : (v.source source).Known (v.session s) := by
  intro p drawn
  cases source with
  | gathering q collected | sequence q | stream q | deferred q =>
      cases drawn
      exact process_known (h q rfl)
  | _ => cases drawn

theorem traversal_known {t : Traversal} (h : t.Known s) : (v.traversal t).Known (v.session s) := by
  intro frame member
  obtain ⟨other, old, rfl⟩ := List.mem_map.mp member
  exact source_known (h other old)

theorem stage_sound {st : Stage} (h : st.Sound s) : (v.stage st).Sound (v.session s) := by
  have known : (v.traversal st.traversal).Known (v.session s) := traversal_known h.1
  cases st with
  | awaiting t a given? =>
      obtain ⟨_, here, frame, outer, stack, rest⟩ := h
      exact ⟨known, process_known here, v.frame frame, outer.map v.frame, congrArg (List.map v.frame) stack, rest⟩
  | closing t p insists? e => exact ⟨known, process_known h.2⟩
  | _ => exact ⟨known, trivial⟩

end Known

/-! ### A world under a view shows a course -/

section Shows

variable {α : Type} {hush : (Session → α × Session) → Session → α × Session} {w : World α} {c : Course}

/-- A course under a view. -/
def course (v : View) (c : Course) : Course := ⟨v.session c.session, v.stage c.stage, c.ended.map v.execution⟩

theorem world_work? (w : World α) (i : Nat) :
    (v.world hush w).work? i = (w.work? i).map (v.work hush) := by
  unfold World.work?
  rw [world_task]
  cases w.tasks[i]? <;> rfl

theorem world_hasEnded (w : World α) (i : Nat) : (v.world hush w).hasEnded i = w.hasEnded i := by
  unfold World.hasEnded
  rw [world_task]
  cases w.tasks[i]? <;> rfl

theorem work_pending? (x : Work α) : (v.work hush x).pending? = x.pending? := by
  cases x with
  | caller k =>
      obtain ⟨commands, mode, started⟩ := k
      cases mode <;> rfl
  | runner m => cases m <;> rfl
  | _ => rfl

theorem world_pending? (w : World α) (i : Nat) : (v.world hush w).pending? i = w.pending? i := by
  unfold World.pending?
  rw [world_work?]
  cases w.work? i with
  | none => rfl
  | some x => exact work_pending? x

theorem world_stageOf (w : World α) (k : Walk) :
    (v.world hush w).stageOf (v.walk k) = (w.stageOf k).map v.stage := by
  obtain ⟨t, mode⟩ := k
  have waits : ∀ i given?, ((v.world hush w).attempt? i).map (.awaiting (v.traversal t) · given?) =
      ((w.attempt? i).map (.awaiting t · given?)).map v.stage := fun i given? => by
    rw [world_attempt?]
    cases w.attempt? i <;> rfl
  cases mode with
  | awaiting i => exact waits i none
  | abandoning i outOfTime => exact waits i (some outOfTime)
  | _ => rfl

theorem shows (h : World.Shows none w c) (hushed : w.Calls (v.Hushes hush)) :
    World.Shows none (v.world hush w) (v.course c) := by
  have found : ∀ {i y}, (v.world hush w).work? i = some y → ∃ x, w.work? i = some x ∧ y = v.work hush x := by
    intro i y here
    rw [world_work?] at here
    obtain ⟨x, old, same⟩ := Option.map_eq_some_iff.mp here
    exact ⟨x, old, same.symm⟩
  constructor
  case session => exact congrArg v.session h.session
  case sound =>
    refine ⟨?_, stage_sound h.sound.2⟩
    have stored := h.sound.1
    have size : (v.session c.session).stores.size = v.earlier.size + c.session.stores.size :=
      Array.size_append
    show 0 < (v.session c.session).stores.size
    omega
  case stage =>
    have stage := h.stage
    have away : (v.world hush w).walk? = w.walk? := rfl
    unfold World.AtStage at stage ⊢
    rw [away]
    cases walk : w.walk? with
    | none =>
      rw [walk] at stage
      exact congrArg v.stage stage
    | some i =>
      rw [walk] at stage
      obtain ⟨k, here, shown⟩ := stage
      refine ⟨v.walk k, ?_, ?_⟩
      · rw [world_work?, here]
        rfl
      · rw [world_stageOf, shown]
        rfl
  case walks =>
    intro i k here away
    obtain ⟨x, old, same⟩ := found here
    cases x with
    | walk k' =>
        rw [world_hasEnded] at away
        obtain ⟨e, ceased⟩ := h.walks i k' old away
        cases same
        exact ⟨e, by show v.walkMode k'.mode = _; rw [ceased]; rfl⟩
    | _ => cases same
  case known =>
    intro i a here
    obtain ⟨x, old, same⟩ := found here
    cases x with
    | attempt a' =>
        cases same
        exact process_known (h.known i a' old)
    | _ => cases same
  case pending =>
    intro i p apart here
    rw [world_pending?] at here
    exact h.pending i p apart here
  case single =>
    intro i j p q apart apart' here here'
    rw [world_pending?] at here here'
    exact h.single i j p q apart apart' here here'
  case ended =>
    rintro e (replied | ⟨i, here⟩)
    · obtain ⟨r, old, same⟩ := Array.mem_map.mp replied
      cases r with
      | executed e' =>
          cases same
          exact List.mem_map_of_mem (h.ended e' (.inl old))
      | _ => cases same
    · rw [world_execution?] at here
      obtain ⟨e', old, rfl⟩ := Option.map_eq_some_iff.mp here
      exact List.mem_map_of_mem (h.ended e' (.inr ⟨i, old⟩))
  case proper =>
    intro i y here
    obtain ⟨x, old, rfl⟩ := found here
    have proper := h.proper i x old
    cases x with
    | caller k =>
        intro y member
        obtain ⟨x, left, rfl⟩ := List.mem_map.mp member
        have first := proper x left
        have hushes := hushed i k old x left
        cases x with
        | act f => exact hushes.2
        | _ => exact first
    | runner m => cases m <;> exact proper
    | _ => trivial
  case outer =>
    intro i x turn
    cases turn

end Shows

/-! ### The execution order when a stop is asked for -/

section Order

variable {s : Session}

theorem session_stored (v : View) (stored : 0 < s.stores.size) : 0 < (v.session s).stores.size := by
  have size : (v.session s).stores.size = v.earlier.size + s.stores.size := Array.size_append
  omega

/-- What the visit of an element adds to the execution order does not hang on stops that come after. -/
theorem begin_order (stored : 0 < s.stores.size) (running : s.running = true) (id : String) :
    (Traversal.begin (v.session s) id).2.processed = (Traversal.begin s id).2.processed := by
  cases on : s.active with
  | false =>
      have off : (v.session s).active = false := on
      rw [Traversal.begin_inactive on, Traversal.begin_inactive off]
      rfl
  | true =>
      have on' : (v.session s).active = true := on
      by_cases beyond : s.options.maxSteps < ((s.steps + 1 : Nat) : Int)
      · rw [Traversal.begin_overBudget on beyond, Traversal.begin_overBudget on' beyond]
        rfl
      have within := Int.not_lt.mp beyond
      by_cases seen : id ∈ s.processed
      · rw [Traversal.begin_seen on within seen, Traversal.begin_seen on' within seen]
        rfl
      rw [Traversal.begin_fresh on within seen, Traversal.begin_fresh on' within seen]
      have graph : (v.session s).graph = s.graph := rfl
      rw [graph]
      cases s.graph.element? id with
      | none => rfl
      | some e =>
          have found : (v.session s).registry.find? e.type = _ := find? v s.registry e.type
          simp only
          rw [found]
          cases s.registry.find? e.type with
          | none => rfl
          | some d =>
              have first := (Traversal.start_kept stored running e d.logic).1
              have second := (Traversal.start_kept (s := v.session s) (session_stored v stored) running e
                (v.logic d.logic)).1
              show (Traversal.start (v.session s).counted e (v.logic d.logic)).2.processed =
                (Traversal.start s.counted e d.logic).2.processed
              rw [first.processed, second.processed, Session.starting_processed, Session.starting_processed]
              rfl

theorem visit_order (t t' : Traversal) (stored : 0 < s.stores.size) (running : s.running = true) (id : String) :
    (t'.visit (v.session s) id).2.processed = (t.visit s id).2.processed := by
  have session : ∀ (t : Traversal) s, (t.visit s id).2 = (Traversal.begin s id).2 := fun t s => by
    unfold Traversal.visit
    split <;> rename_i same <;> rw [same]
  rw [session, session, begin_order stored running]

/-- A visit after something that is told first adds no less when the stop that is asked for then is left
out. -/
theorem visitAfter_order {f : Session → Session} (told : v.Commutes f)
    (still : ∀ s, s.running = true → s.Grows (f s) ∧ (f s).processed = s.processed) (t t' : Traversal)
    (stored : 0 < s.stores.size) (running : s.running = true) (id : String) :
    (t.visit (f s) id).2.processed <+: (t'.visit (f (v.session s)) id).2.processed := by
  obtain ⟨grows, same⟩ := still s running
  have stored₁ : 0 < (f s).stores.size := grows.size ▸ stored
  have running₁ := grows.running.trans running
  cases stop : (f s).stopRequested with
  | false =>
      have same := (told s).2 ⟨stored, fun _ => ⟨running, stop⟩⟩
      have order := visit_order (v := v) t t' stored₁ running₁ id
      exact same ▸ order ▸ List.prefix_rfl
  | true =>
      have off : (f s).active = false := by rw [Session.active, stop, Bool.not_true, Bool.and_false]
      have skipped : (t.visit (f s) id).2.processed = s.processed := by
        unfold Traversal.visit
        rw [Traversal.begin_inactive off]
        exact same
      obtain ⟨grows', same'⟩ := still (v.session s) running
      have visited := (Traversal.visit_visited t' (grows'.size ▸ session_stored v stored) id).grows.order
      rw [same'] at visited
      exact skipped ▸ visited

/-- A step of a traversal adds no less to the execution order when the stop that is asked for in it is left
out. -/
theorem step_order (t : Traversal) (stored : 0 < s.stores.size) (known : t.Known s) (on : s.active = true) :
    (t.step s).2.processed <+: ((v.traversal t).step (v.session s)).2.processed := by
  have running := Session.running_of_active on
  obtain ⟨entries, stack⟩ := t
  cases stack with
  | nil =>
      cases entries with
      | nil => exact List.prefix_rfl
      | cons id rest =>
          have noted : v.Commutes (·.note (.entered id)) := .note _
          have visited := visitAfter_order noted (fun s _ => ⟨s.note_grows _, rfl⟩) ⟨rest, []⟩ ⟨rest, []⟩
            stored running id
          unfold Traversal.step
          show _ <+: Session.processed (Prod.snd (if s.active then _ else _ : Move × Session))
          simp only [on, if_true]
          exact visited
  | cons frame outer =>
      cases pending : frame.pending with
      | nil =>
          have moved := Traversal.step_moved stored known
          have moved' := Traversal.step_moved (session_stored v stored) (traversal_known (v := v) known)
          rw [moved.still rfl pending running]
          exact (moved'.grows running).order
      | cons c rest =>
          have told : v.Commutes fun s => (s.note (.traversed c.id)).notify (.traverse c.id) :=
            (Commutes.note _).comp (.notify _)
          have still : ∀ s : Session, s.running = true →
              s.Grows ((s.note (.traversed c.id)).notify (.traverse c.id)) ∧
                ((s.note (.traversed c.id)).notify (.traverse c.id)).processed = s.processed := by
            intro s running
            have first := s.traversing_grows c
            have kept := (Session.notify_deeds (s.note (.traversed c.id)) (.traverse c.id)).kept_of_running
              (first.running.trans running)
            exact ⟨first.trans (.kept kept), kept.processed.trans (Session.hears_processed _)⟩
          have visited := visitAfter_order told still
            ⟨entries, { frame with pending := rest } :: outer⟩
            (v.traversal ⟨entries, { frame with pending := rest } :: outer⟩) stored running c.target
          have pending' : (v.frame frame).pending = c :: rest := pending
          have on' : (v.session s).active = true := on
          unfold Traversal.step
          simp only [traversal, List.map_cons, pending, pending', on, on', if_true]
          exact visited

end Order

/-! ### Steps -/

section Steps

variable {α : Type} {hush : (Session → α × Session) → Session → α × Session} {w w' : World α} {c : Course}

/-- What a task does in a run adds no less to the execution order when the stop that is asked for then is
left out. -/
theorem works_order (h : World.Shows none w c) (hushed : w.Calls (v.Hushes hush)) {i : Nat} {x : Work α}
    (here : w.work? i = some x) (cancelled : Bool) (on : w.session.active = true) (free : x.pending? = none) :
    (w.works i x cancelled).session.processed <+:
        ((v.world hush w).works i (v.work hush x) cancelled).session.processed ∧
      (v.session w.session).Grows ((v.world hush w).works i (v.work hush x) cancelled).session := by
  have running := Session.running_of_active on
  have shown := shows h hushed
  have here' : (v.world hush w).work? i = some (v.work hush x) := by rw [world_work?, here]; rfl
  have free' : (v.work hush x).pending? = none := (work_pending? x).trans free
  have grows := shown.works_grows here' cancelled running free'
  refine ⟨?_, grows⟩
  by_cases halts : ∀ t, x ≠ .walk ⟨t, .walking⟩ ∨ cancelled = true
  · rw [h.works_still here cancelled running free halts]
    exact grows.order
  · obtain ⟨t, walks⟩ := Classical.not_forall.mp halts
    rw [not_or] at walks
    obtain ⟨rfl, calm⟩ : x = .walk ⟨t, .walking⟩ ∧ cancelled = false :=
      ⟨Classical.not_not.mp walks.1, Bool.eq_false_iff.mpr walks.2⟩
    subst calm
    by_cases walk : w.walk? = some i
    · have known : t.Known w.session := by
        have sound := h.sound.2
        rw [← Option.some.inj (h.came walk here), ← h.session] at sound
        exact sound.1
      have stored : 0 < w.session.stores.size := h.session ▸ h.sound.1
      have settled : ∀ r : Move × Session, (Stage.settle r).2.processed = r.2.processed := fun r => by
        obtain ⟨m, s⟩ := r
        cases m <;> rfl
      show (w.walkMove i (t.step w.session)).session.processed <+:
        ((v.world hush w).walkMove i ((v.traversal t).step (v.session w.session))).session.processed
      rw [World.walkMove_session, World.walkMove_session, settled, settled]
      exact step_order t stored known on
    · obtain ⟨e, ceased⟩ := h.walks i _ here (.inl walk)
      cases ceased

/-- A step of a run, and of the same run without its stops: they go in step until one is asked for, and
the execution order has grown no less without it then. -/
theorem stepsOn (h : World.Shows none w c) (hushed : w.Calls (v.Hushes hush)) (on : w.session.active = true)
    (step : w.StepsOn w') :
    (w'.session.active = true ∧ (v.world hush w).StepsOn (v.world hush w')) ∨
      (w'.session.stopRequested = true ∧ ∃ w'', (v.world hush w).StepsOn w'' ∧
        w'.session.processed <+: w''.session.processed) := by
  rcases world_step_works h hushed step.step with
    ⟨quiet, under⟩ | ⟨w₁, task, x, cancelled, quiet, shown, hushed₁, here, rfl, under⟩
  · have same : (v.world hush w').session = (v.world hush w).session := congrArg v.session quiet.session
    exact .inl ⟨quiet.session ▸ on, step.running, under, step.still, congrArg Session.run same⟩
  · have same : (v.world hush w₁).session = (v.world hush w).session := congrArg v.session quiet.session
    have on₁ : w₁.session.active = true := quiet.session ▸ on
    have running := Session.running_of_active on₁
    have run : (w₁.works task x cancelled).session.run = w₁.session.run := quiet.session.symm ▸ step.run
    have free := shown.unwaiting here cancelled running step.still run
    obtain ⟨order, grows⟩ := works_order (v := v) shown hushed₁ here cancelled on₁ free
    have steps : (v.world hush w).StepsOn ((v.world hush w₁).works task (v.work hush x) cancelled) :=
      ⟨step.running, under, grows.running.trans running, grows.run.trans (congrArg Session.run same)⟩
    cases stop : (w₁.works task x cancelled).session.stopRequested with
    | true => exact .inr ⟨rfl, _, steps, order⟩
    | false =>
        have clear : v.Clear w₁.session (w₁.works task x cancelled).session :=
          ⟨shown.session ▸ shown.sound.1, fun _ => ⟨running, stop⟩⟩
        rw [world_works shown here hushed₁ cancelled running free clear] at steps
        refine .inl ⟨?_, steps⟩
        rw [Session.active, step.still, stop]
        rfl

/-- Whatever a run comes to, the same run without its stops comes to a world with no smaller part of the
execution order. -/
theorem leadsOn {graph : Graph} {registry : Registry} {draws : List Double} {commands : List (Command α)}
    (steps : (World.ofCommands (Session.ofGraph graph registry draws) commands).Leads w)
    (proper : ∀ x ∈ commands, x.Proper) (hushed : ∀ x ∈ commands, v.Hushes hush x)
    (running : w.session.running = true) (on : w.LeadsOn w') :
    ∃ w'', (v.world hush w).LeadsOn w'' ∧ w'.session.processed <+: w''.session.processed := by
  have stored : 0 < (Session.ofGraph graph registry draws).stores.size := Nat.succ_pos 0
  suffices inStep : (w'.session.active = true ∧ (v.world hush w).LeadsOn (v.world hush w')) ∨
      (w'.session.stopRequested = true ∧ ∃ w'', (v.world hush w).LeadsOn w'' ∧
        w'.session.processed <+: w''.session.processed) by
    rcases inStep with ⟨_, on⟩ | ⟨_, apart⟩
    · exact ⟨_, on, List.prefix_rfl⟩
    · exact apart
  induction on with
  | refl =>
      cases stop : w.session.stopRequested with
      | true => exact .inr ⟨rfl, _, .refl, List.prefix_rfl⟩
      | false => exact .inl ⟨by rw [Session.active, running, stop]; rfl, .refl⟩
  | @tail w₁ w₂ on step ih =>
      have led := steps.trans (World.LeadsOn.leads on)
      obtain ⟨c, shown, settled⟩ := World.Leads.settled led proper step.running
      rcases ih with ⟨active, under⟩ | ⟨stopped, w'', under, order⟩
      · have calls := World.Leads.calls stored proper hushed led
        rcases stepsOn shown calls active step with ⟨active', step'⟩ | ⟨stopped, w'', step', order⟩
        · exact .inl ⟨active', under.tail step'⟩
        · exact .inr ⟨stopped, w'', under.tail step', order⟩
      · have halts := (step.beats shown settled).halts step.running stopped
        exact .inr ⟨halts.stopped, w'', under, halts.order ▸ order⟩

end Steps

end View

end BlockGraph
