import Mathlib.Data.List.TakeDrop
import Mathlib.Data.List.TakeWhile
import BlockGraph.Proofs.Acts
/-!
The queues of a world stay in order: what a task does in its turn keeps them so, and so does every step.
-/
namespace BlockGraph
namespace World

variable {α : Type} {w w₁ w' : World α} {task ticket i : Nat} {x y : Work α}

/-! ### Turns -/

/-- Whether a task has its turn. -/
structure AtWork (w : World α) (task : Nat) : Prop where
  scheduled : w.Scheduled
  free : w.turns task = 0
  queued : w.standing? task = some .queued

theorem cancel_turns (w : World α) (other : i ≠ task) : (w.cancel i).turns task = w.turns task := by
  unfold World.cancel
  split
  · rfl
  · split
    · rfl
    · have apart : (Due.turn i).isTurn task = false := beq_eq_false_iff_ne.mpr other
      rw [later_turns, apart]
      rfl
    · rfl

theorem cancel_standing (w : World α) (other : i ≠ task) : (w.cancel i).standing? task = w.standing? task := by
  unfold World.cancel
  split
  · rfl
  · split
    · rfl
    · exact (w.stand_standing i task _).trans (if_neg other)
    · exact w.change_standing i task fun _ => rfl

theorem AtWork.inside (h : w.AtWork task) : task < w.tasks.size := by
  obtain ⟨t, found, _⟩ := Option.map_eq_some_iff.mp h.queued
  exact (Array.getElem?_eq_some_iff.mp found).1

theorem Act.atWork (act : Act task w w') (h : w.AtWork task) : w'.AtWork task := by
  obtain ⟨scheduled, free, queued⟩ := h
  cases act with
  | session s => exact ⟨scheduled.withSession s, free, queued⟩
  | reply r => exact ⟨scheduled.reply r, free, queued⟩
  | unschedule => exact ⟨scheduled.unschedule task, free, queued⟩
  | work x placed =>
      exact ⟨scheduled.withWork placed, free, (w.withWork_standing task task x).trans queued⟩
  | start r =>
      have other : w.tasks.size ≠ task := Nat.ne_of_gt (AtWork.inside ⟨scheduled, free, queued⟩)
      have apart : (Due.turn w.tasks.size).isTurn task = false := beq_eq_false_iff_ne.mpr other
      refine ⟨scheduled.spawn (runner_placed (Nat.ne_of_gt scheduled.inhabited) rfl) (.inl rfl), ?_, ?_⟩
      · show (w.later (.turn w.tasks.size)).turns task = 0
        rw [later_turns, apart]
        exact free
      · rw [spawn_standing, if_neg other.symm, queued]
  | cancel i alive other =>
      exact ⟨scheduled.cancel alive, (w.cancel_turns other).trans free, (w.cancel_standing other).trans queued⟩

theorem Acts.atWork (acts : Acts task w w') (h : w.AtWork task) : w'.AtWork task := by
  induction acts with
  | refl => exact h
  | tail _ act ih => exact act.atWork ih

theorem AtWork.unwoken_parked (h : w.AtWork task) : (w.park task).2.Unwoken task := fun i here =>
  h.scheduled.unwoken_of_queued h.queued i (w.park_watchers task i ▸ here)

theorem AtWork.ask (h : w.AtWork task) (inner : x.Inner) (alone : x.awaits? = none) (placed : y.Placed task)
    (walk? : Option Nat) (length : Span) : (w.ask task x y walk? length).Scheduled := by
  have parked := h.scheduled.park h.free h.queued
  have unwoken := h.unwoken_parked
  have new : x.Placed (w.park task).2.tasks.size := by
    refine ⟨?_, fun i waits => nomatch alone.symm.trans waits⟩
    cases inner <;> exact Nat.ne_of_gt parked.inhabited
  let w₁ := ((w.park task).2.spawn x [.release task w.tickets]).2
  have spawned : w₁.Scheduled := parked.spawn new (.inr ⟨task, w.tickets, rfl, unwoken, Nat.lt_succ_self _⟩)
  have unwoken₁ : w₁.Unwoken task := by
    intro i here
    rw [show w₁.watchersOf i = _ from spawn_watchers _ i _ _] at here
    split at here
    · cases List.mem_singleton.mp here
    · exact unwoken i here
  have works := spawned.withWork placed
  have known : { w₁.withWork task y with walk? }.Scheduled :=
    works.of_eq (fun _ => rfl) (fun _ => rfl) (fun _ => rfl)
      (fun _ _ here => .inl (here.mono (fun _ => id) id fun _ => id)) (Nat.le_refl _) rfl rfl works.placed
  exact known.schedule (fun i here => unwoken₁ i (w₁.withWork_watchers task i y ▸ here)) (Nat.lt_succ_self _)
    length

theorem AtWork.giveUp (h : w.AtWork task) (placed : y.Placed task) (waits : y.awaits? = some i) :
    (w.giveUp task y i).Scheduled := by
  have parked := (h.scheduled.park h.free h.queued).withWork placed
  have watched := parked.watch (fun j here => h.unwoken_parked j (withWork_watchers _ task j y ▸ here))
    (Nat.lt_succ_self w.tickets) i
  exact watched.cancel (placed.2 i waits).1

/-- What a task does last in its turn leaves the queues in order. -/
theorem Last.scheduled (last : Last task w w') (h : w.AtWork task) : w'.Scheduled := by
  cases last with
  | rest => exact h.scheduled
  | busy => exact h.scheduled.busy h.free h.queued
  | finish => exact h.scheduled.finish h.free h.queued
  | sleep length => exact h.scheduled.sleep h.free h.queued length
  | ask x y walk? length inner alone placed => exact h.ask inner alone (placed h.inside) walk? length
  | giveUp y i placed waits => exact h.giveUp placed waits
  | join y i same placed =>
      subst same
      exact (h.scheduled.join h.free h.queued i).withWork placed

theorem Turned.scheduled (turned : Turned task w w') (h : w.AtWork task) : w'.Scheduled := by
  obtain ⟨w₁, acts, last⟩ := turned
  exact last.scheduled (acts.atWork h)

/-! ### Steps -/

theorem atTurn_standing (w : World α) (task i : Nat) : (w.atTurn task).standing? i =
    if task = i then (w.standing? i).map fun s => if s == .over then .over else .queued
    else w.standing? i := by
  simp only [standing?, atTurn, change_task]
  split
  · simp only [Option.map_map, Function.comp_def]
  · rfl

theorem atTurn_watchers (w : World α) (task i : Nat) : (w.atTurn task).watchersOf i = w.watchersOf i :=
  w.change_watchers task i fun _ => rfl

/-- A task that stands in line for a turn is neither over nor parked. -/
theorem Scheduled.standing_of_turns (h : w.Scheduled) (due : 0 < w.turns task) :
    ∃ s, w.standing? task = some s ∧ s ≠ .over ∧ ∀ ticket, s ≠ .parked ticket := by
  have room := Nat.lt_of_lt_of_le due (h.turns task)
  unfold World.room at room
  cases standing : w.standing? task with
  | none =>
      rw [standing] at room
      cases room
  | some s =>
      rw [standing] at room
      refine ⟨s, rfl, ?_, fun ticket => ?_⟩ <;> rintro rfl <;> cases room

/-- The task whose turn it is leaves its queue. -/
structure Dequeues (w : World α) (task : Nat) (w₁ : World α) : Prop where
  quiet : Quiet w w₁
  now : w₁.now = w.now
  next : w₁.next = w.next
  timers : w₁.timers = w.timers
  tickets : w₁.tickets = w.tickets
  tasks : w₁.tasks = w.tasks
  phase : w₁.phase = w.phase
  turns : ∀ i, w₁.turns i + (if i = task then 1 else 0) = w.turns i
  others : ∀ i, i ≠ task → .turn i ∈ w.round → .turn i ∈ w₁.round
  releases : ∀ i ticket, .release i ticket ∈ w₁.round → .release i ticket ∈ w.round

/-- A task that leaves its queue is neither over nor parked. -/
theorem Dequeues.standing (leaves : w.Dequeues task w₁) (h : w.Scheduled) :
    ∃ s, w.standing? task = some s ∧ s ≠ .over ∧ ∀ ticket, s ≠ .parked ticket := by
  have own := leaves.turns task
  rw [if_pos rfl] at own
  exact h.standing_of_turns (Nat.lt_of_lt_of_eq (Nat.succ_pos _) own)

theorem Scheduled.atTurn (h : w.Scheduled) (leaves : w.Dequeues task w₁) : (w₁.atTurn task).AtWork task := by
  obtain ⟨_, _, next, timers, tickets, tasks, phase, turns, _, releases⟩ := leaves
  have refers : ∀ i ticket, (w₁.atTurn task).Refers i ticket → w.Refers i ticket := fun i ticket here =>
    here.mono (fun _ member => timers ▸ member) (fun due => due.imp (releases i ticket) (next ▸ ·)) fun j told => by
      rw [atTurn_watchers, watchersOf, tasks] at told
      exact told
  have standing₁ : ∀ i, w₁.standing? i = w.standing? i := fun i => by rw [standing?, tasks]; rfl
  have watchers₁ : ∀ i, w₁.watchersOf i = w.watchersOf i := fun i => by rw [watchersOf, tasks]; rfl
  have own := turns task
  rw [if_pos rfl] at own
  have due : 0 < w.turns task := Nat.lt_of_lt_of_eq (Nat.succ_pos _) own
  obtain ⟨s, here, alive, awake⟩ := h.standing_of_turns due
  have queued : (w₁.atTurn task).standing? task = some .queued := by
    rw [atTurn_standing, if_pos rfl, standing₁, here, Option.map_some, beq_eq_false_iff_ne.mpr alive]
    rfl
  have room : w.room task = 1 := by
    rw [World.room, here]
    cases s with
    | parked ticket => exact absurd rfl (awake ticket)
    | «over» => exact absurd rfl alive
    | _ => rfl
  have free : w₁.turns task = 0 := by
    have most := h.turns task
    rw [room, ← own] at most
    exact Nat.le_zero.mp (Nat.succ_le_succ_iff.mp most)
  refine ⟨h.frame (fun i => ?_) (fun i ticket here => .inl (refers i ticket here)) (Nat.le_of_eq tickets.symm)
    (fun i => .inl ((w₁.atTurn_watchers task i).trans (watchers₁ i))) (fun s' found fixed => ?_) phase ?_
    fun i x found => ?_, free, queued⟩
  · by_cases same : task = i
    · subst same
      exact Nat.le_trans (Nat.le_of_eq free) (Nat.zero_le _)
    · have kept : (w₁.atTurn task).room i = w.room i := by
        rw [World.room, atTurn_standing, if_neg same, standing₁]
        rfl
      have count := turns i
      rw [if_neg (Ne.symm same)] at count
      rw [kept]
      exact Nat.le_trans (Nat.le_of_eq count) (h.turns i)
  · rw [atTurn_standing, if_neg fun same => ?_, standing₁, found]
    subst same
    cases Option.some.inj (here.symm.trans found)
    rcases fixed with ceased | woken
    · exact alive ceased
    · refine woken (h.unwoken_of_standing fun ticket parked => ?_)
      cases Option.some.inj (here.symm.trans parked)
      exact awake ticket rfl
  · rw [show (w₁.atTurn task).tasks.size = _ from w₁.change_size task _, tasks]
  · have found := ((w₁.atTurn_quiet task).work i).symm.trans found
    rw [work?, tasks] at found
    exact h.placed i x found

/-- What a step of a world is. -/
inductive Steps (w : World α) : World α → Prop
  | turn {task : Nat} {w₁ : World α} : w.Dequeues task w₁ → Steps w (w₁.turn task)
  | release {task ticket : Nat} {rest : List Due} : w.round = .release task ticket :: rest →
      Steps w ({ w with round := rest }.due (.release task ticket))
  | idle {w' : World α} : w.round = [] → w.idles = some w' → Steps w w'

theorem dequeues_busy (busy : w.busy? = some task) : w.Dequeues task { w with busy? := none } where
  quiet := { Quiet.refl w with }
  now := rfl
  next := rfl
  timers := rfl
  tickets := rfl
  tasks := rfl
  phase := rfl
  turns i := by
    have unfolds : { w with busy? := none }.turns i =
      0 + (w.round.countP (·.isTurn i) + w.next.countP (·.isTurn i)) := rfl
    rw [unfolds, World.turns, busy]
    by_cases same : i = task
    · subst same
      rw [if_pos rfl, if_pos rfl]
      omega
    · rw [if_neg same, if_neg fun other => same (Option.some.inj other).symm]
      rfl
  others _ _ member := member
  releases _ _ member := member

theorem round_turns (round : List Due) (i : Nat) : { w with round }.turns i =
    (if w.busy? = some i then 1 else 0) + (round.countP (·.isTurn i) + w.next.countP (·.isTurn i)) := rfl

theorem dequeues_round {rest : List Due} (round : w.round = .turn task :: rest) :
    w.Dequeues task { w with round := rest } where
  quiet := { Quiet.refl w with }
  now := rfl
  next := rfl
  timers := rfl
  tickets := rfl
  tasks := rfl
  phase := rfl
  turns i := by
    rw [round_turns, World.turns, round, List.countP_cons]
    by_cases same : i = task
    · subst same
      have own : (Due.turn i).isTurn i = true := beq_self_eq_true i
      rw [if_pos rfl, own, if_pos rfl]
      omega
    · have other : (Due.turn task).isTurn i = false := beq_eq_false_iff_ne.mpr (Ne.symm same)
      rw [if_neg same, other, if_neg Bool.false_ne_true]
      rfl
  others i other member := by
    rw [round] at member
    exact (List.mem_cons.mp member).resolve_left fun same => other (Due.turn.inj same)
  releases i ticket member := round ▸ List.mem_cons_of_mem _ member

theorem steps_of_step (step : w.step = some w') : w.Steps w' := by
  cases busy : w.busy? with
  | some task =>
      rw [w.step_busy busy] at step
      cases step
      exact .turn (dequeues_busy busy)
  | none =>
      cases round : w.round with
      | nil =>
          rw [w.step_idles busy round] at step
          exact .idle round step
      | cons d rest =>
          rw [w.step_due busy round] at step
          cases step
          cases d with
          | turn task => exact .turn (dequeues_round round)
          | release task ticket => exact .release round

/-- A ticket that is released makes the task ready that waits with it. -/
theorem release_cases (w : World α) (task ticket : Nat) : w.due (.release task ticket) = w ∨
    w.standing? task = some (.parked ticket) ∧
      w.due (.release task ticket) = (w.stand task .released).later (.turn task) := by
  unfold World.due
  simp only
  split
  · rename_i t found
    split
    · rename_i parked
      exact .inr ⟨by rw [standing?, found, ← parked]; rfl, rfl⟩
    · exact .inl rfl
  · exact .inl rfl

/-- A ticket is released: the task that waits for it stands in line. -/
theorem Scheduled.release (h : w.Scheduled) {rest : List Due} (round : w.round = .release task ticket :: rest) :
    ({ w with round := rest }.due (.release task ticket)).Scheduled := by
  have popped : { w with round := rest }.Scheduled := by
    refine h.of_eq (fun i => ?_) (fun _ => rfl) (fun _ => rfl) (fun i ticket here => .inl ?_) (Nat.le_refl _) rfl rfl
      h.placed
    · have other : (Due.release task ticket).isTurn i = false := rfl
      rw [round_turns, World.turns, round, List.countP_cons, other, if_neg Bool.false_ne_true]
      rfl
    · refine here.mono (fun _ => id) (fun due => ?_) fun _ => id
      rw [round]
      exact due.imp_left (List.mem_cons_of_mem _)
  rcases release_cases { w with round := rest } task ticket with same | ⟨standing, same⟩ <;> rw [same]
  · exact popped
  · have unwoken : w.Unwoken task := h.unwoken_of_refers standing (.due (.inl (round ▸ List.mem_cons_self)))
    have free : { w with round := rest }.turns task = 0 := Nat.le_zero.mp (by
      have most := popped.turns task
      rwa [World.room, standing] at most)
    exact popped.line free (fun ceased => by cases standing.symm.trans ceased)
      (fun missing => by cases standing.symm.trans missing) unwoken rfl

theorem mem_ring (now : Rat) (timers : List Timer) :
    (∀ d ∈ (ring now timers).1, ∃ t ∈ timers, t.time ≤ now ∧ d = .release t.task t.ticket) ∧
      (ring now timers).2 ⊆ timers := by
  simp only [ring, List.span_eq_takeWhile_dropWhile]
  refine ⟨fun d member => ?_, (List.dropWhile_sublist _).subset⟩
  obtain ⟨t, rung, rfl⟩ := List.mem_map.mp member
  have due := List.mem_takeWhile_imp rung
  exact ⟨t, (List.takeWhile_sublist _).subset rung, of_decide_eq_true due, rfl⟩

/-- What the next round consists of. Time stands still while anything is ready. -/
structure NextRound (w w' : World α) : Prop where
  tasks : w'.tasks = w.tasks
  tickets : w'.tickets = w.tickets
  phase : w'.phase = w.phase
  busy? : w'.busy? = w.busy?
  next : w'.next = []
  now : w.next ≠ [] → w'.now = w.now
  timers : w'.timers ⊆ w.timers
  round : ∃ rung, w'.round = w.next.reverse ++ rung ∧
    ∀ d ∈ rung, ∃ t ∈ w.timers, t.time ≤ w'.now ∧ d = .release t.task t.ticket

theorem nextRound_eq (h : w.nextRound = some w') : w.NextRound w' := by
  unfold World.nextRound at h
  split at h
  · cases h
  · rename_i next timers _
    cases h
    refine ⟨rfl, rfl, rfl, rfl, rfl, fun ready => ?_, (mem_ring _ _).2, _, rfl, (mem_ring _ _).1⟩
    simp only
    split
    · exact absurd ‹_› ready
    · rfl

theorem Scheduled.nextRound (h : w.Scheduled) (round : w.round = []) (turn : w.NextRound w') : w'.Scheduled := by
  obtain ⟨tasks, tickets, phase, busy, next, _, timers, rung, round', rings⟩ := turn
  have standing : ∀ i, w'.standing? i = w.standing? i := fun i => by rw [standing?, tasks]; rfl
  have watchers : ∀ i, w'.watchersOf i = w.watchersOf i := fun i => by rw [watchersOf, tasks]; rfl
  refine h.of_eq (fun i => ?_) standing watchers (fun i ticket here => .inl ?_) (Nat.le_of_eq tickets.symm) phase
    (congrArg _ tasks) fun i x here => h.placed i x ?_
  · have none : rung.countP (·.isTurn i) = 0 := by
      refine List.countP_eq_zero.mpr fun d member => ?_
      obtain ⟨t, _, _, rfl⟩ := rings d member
      exact Bool.false_ne_true
    rw [World.turns, World.turns, busy, round', next, round, List.countP_append, List.countP_reverse, none,
      List.countP_nil, Nat.zero_add, Nat.add_zero]
  · cases here with
    | timer here => exact .timer (timers here)
    | watcher here => exact .watcher (watchers _ ▸ here)
    | due here =>
        rw [next, round'] at here
        rcases List.mem_append.mp (here.resolve_right List.not_mem_nil) with old | new
        · exact .due (.inr (List.mem_reverse.mp old))
        · obtain ⟨t, inside, _, same⟩ := rings _ new
          cases same
          exact .timer inside
  · rw [work?, tasks] at here
    exact here

theorem Scheduled.withPhase (h : w.Scheduled) (phase : Phase) (ceased : w.standing? 0 = some .over) :
    { w with phase }.Scheduled :=
  { h with
    issued := fun i ticket here => h.issued i ticket (here.mono (fun _ => id) id fun _ => id)
    wakes := fun i j wakes => by
      obtain ⟨rfl, ⟨ticket, parked, _⟩, _⟩ := h.wakes i j wakes
      cases ceased.symm.trans parked
    last := fun _ => ceased }

theorem Scheduled.cancelAll (h : w.Scheduled) (ceased : w.standing? 0 = some .over) :
    w.cancelAll.Scheduled ∧ w.cancelAll.standing? 0 = some .over := by
  have cancelled : ∀ (tasks : List Nat) (w : World α), w.Scheduled → w.standing? 0 = some .over →
      (tasks.foldl (fun w i => w.cancel i) w).Scheduled ∧
        (tasks.foldl (fun w i => w.cancel i) w).standing? 0 = some .over := by
    intro tasks
    induction tasks with
    | nil => exact fun w h ceased => ⟨h, ceased⟩
    | cons i rest ih =>
        intro w h ceased
        by_cases caller : i = 0
        · subst caller
          have same : w.cancel 0 = w := by
            obtain ⟨t, found, «over»⟩ := Option.map_eq_some_iff.mp ceased
            unfold World.cancel
            simp only [found, «over»]
          rw [List.foldl_cons, same]
          exact ih w h ceased
        · exact ih _ (h.cancel caller) ((w.cancel_standing caller).trans ceased)
  exact cancelled _ w h ceased

/-- A caller that is over stands so. -/
theorem Scheduled.standing_of_callerOver (h : w.Scheduled) (ceased : w.callerOver = true) :
    w.standing? 0 = some .over := by
  unfold World.callerOver World.isOver at ceased
  obtain ⟨t, found⟩ : ∃ t, w.tasks[0]? = some t := ⟨_, Array.getElem?_eq_getElem h.inhabited⟩
  rw [found] at ceased
  rw [World.standing?, found]
  exact congrArg some (eq_of_beq ceased)

theorem Scheduled.idles (h : w.Scheduled) (round : w.round = []) (step : w.idles = some w') : w'.Scheduled := by
  have phased : ∀ phase, phase = w.phase ∨ w.callerOver = true → { w with phase }.Scheduled := by
    rintro phase (rfl | ceased)
    · exact h
    · exact h.withPhase phase (h.standing_of_callerOver ceased)
  cases idles_cases step with
  | still phase ended => exact phased phase ended
  | round phase ended next => exact (phased phase ended).nextRound round (nextRound_eq next)
  | drain off =>
      obtain ⟨cancelled, ceased⟩ := h.cancelAll (h.last off)
      exact cancelled.withPhase .draining ceased

/-- A task that leaves its queue is there, and its turn is what it does then. -/
theorem Dequeues.turn_eq (leaves : w.Dequeues task w₁) (h : w.Scheduled) :
    ∃ x, w.work? task = some x ∧ w₁.turn task = (w₁.atTurn task).works task x (w.called task) := by
  obtain ⟨s, standing, _⟩ := leaves.standing h
  obtain ⟨t, found, _⟩ := Option.map_eq_some_iff.mp standing
  refine ⟨t.work, by rw [work?, found]; rfl, ?_⟩
  rw [World.turn_eq (leaves.tasks ▸ found), called, found]
  rfl

/-- What a task does that leaves its queue. -/
theorem Dequeues.turned {c : Course} (leaves : w.Dequeues task w₁) (h : w.Scheduled) (shown : Shows none w c) :
    Turned task (w₁.atTurn task) (w₁.turn task) := by
  obtain ⟨x, here, works⟩ := leaves.turn_eq h
  rw [works]
  refine works_turned (h.atTurn leaves).scheduled ?_ (shown.proper task x here) _
  exact ((leaves.quiet.trans (w₁.atTurn_quiet task)).work task).trans here

/-- A step leaves the queues in order. -/
theorem Scheduled.step {c : Course} (h : w.Scheduled) (shown : Shows none w c) (step : w.step = some w') :
    w'.Scheduled := by
  cases steps_of_step step with
  | turn leaves => exact (leaves.turned h shown).scheduled (h.atTurn leaves)
  | release round => exact h.release round
  | idle round idles => exact h.idles round idles

/-! ### Every world -/

theorem ofCommands_scheduled (s : Session) (commands : List (Command α)) : (ofCommands s commands).Scheduled := by
  have first : ∀ i, (ofCommands s commands).standing? i = if i = 0 then some .queued else none := by
    intro i
    cases i <;> rfl
  have unwatched : ∀ i, (ofCommands s commands).watchersOf i = [] := by
    intro i
    cases i <;> rfl
  refine ⟨fun i => ?_, fun i ticket here => ?_, fun i => ?_, fun i j here => ?_, fun i x here => ?_, fun off => ?_,
    Nat.one_pos⟩
  · have unfolds : (ofCommands s commands).turns i = 0 + ([Due.turn 0].countP (·.isTurn i) + 0) := rfl
    rw [unfolds, World.room, first]
    cases i with
    | zero => exact Nat.le_refl _
    | succ i => exact Nat.le_refl _
  · cases here with
    | timer here => cases here
    | watcher here =>
        rw [unwatched] at here
        cases here
    | due here =>
        rcases here with here | here
        · cases List.mem_singleton.mp here
        · cases here
  · rw [unwatched]
    exact Nat.zero_le _
  · rw [unwatched] at here
    cases here
  · cases i with
    | zero =>
        cases here
        exact ⟨⟨rfl, List.not_mem_nil⟩, fun _ waits => by cases waits⟩
    | succ i => cases here
  · exact absurd rfl off

/-- In every world that comes of commands the queues are in order. -/
theorem Leads.scheduled {s : Session} {commands : List (Command α)} (steps : (ofCommands s commands).Leads w)
    (stored : 0 < s.stores.size) (proper : ∀ x ∈ commands, x.Proper) : w.Scheduled := by
  induction steps with
  | refl => exact ofCommands_scheduled s commands
  | tail steps step ih =>
      obtain ⟨c, _, shown⟩ := (ofCommands_shows stored proper).leads steps
      exact ih.step shown step

end World
end BlockGraph
