import Mathlib
import BlockGraph.Proofs.Deadlines
import BlockGraph.Proofs.Lens
/-!
Waking in time. Timers ring in their order, and time goes on only when nothing is ready; so a task that sleeps, or
waits no longer than some time, has its turn by then. Only its own timer ends a sleep before, unless it is called.
-/
namespace BlockGraph

/-- How long it takes to wait for a length of time. -/
def Span.time : Span → WithTop ℚ
  | .ms r => ((max r 0 : ℚ) : WithTop ℚ)
  | .forever => ⊤

namespace World

variable {α : Type} {w w₁ w' : World α} {task ticket i j : Nat} {c : Course} {due : WithTop ℚ}

/-! ### Whose turn comes next -/

/-- The task that has its turn in the next step. -/
def upNext? (w : World α) : Option Nat := w.upNext.map (·.2)

theorem upNext?_busy (busy : w.busy? = some task) : w.upNext? = some task := by
  rw [upNext?, upNext, busy]
  rfl

/-- What the next step of a world is, and whose turn. -/
inductive Next (w : World α) : World α → Prop
  | turn {task : Nat} {w₁ : World α} : w.upNext? = some task → w.Dequeues task w₁ → w₁.busy? = none →
      (∀ d ∈ w.round, d ≠ .turn task → d ∈ w₁.round) → Next w (w₁.turn task)
  | release {task ticket : Nat} {rest : List Due} : w.upNext? = none → w.busy? = none →
      w.round = .release task ticket :: rest → Next w ({ w with round := rest }.due (.release task ticket))
  | idle {w' : World α} : w.upNext? = none → w.busy? = none → w.round = [] → w.idles = some w' → Next w w'

theorem next_of_step (step : w.step = some w') : w.Next w' := by
  cases busy : w.busy? with
  | some task =>
      rw [w.step_busy busy] at step
      cases step
      exact .turn (upNext?_busy busy) (dequeues_busy busy) rfl fun d member _ => member
  | none =>
      cases round : w.round with
      | nil =>
          rw [w.step_idles busy round] at step
          exact .idle (by rw [upNext?, upNext, busy, round]; rfl) busy round step
      | cons d rest =>
          rw [w.step_due busy round] at step
          cases step
          cases d with
          | turn task =>
              refine .turn (by rw [upNext?, upNext, busy, round]; rfl) (dequeues_round round) busy fun d member other => ?_
              rw [round] at member
              exact (List.mem_cons.mp member).resolve_left other
          | release task ticket => exact .release (by rw [upNext?, upNext, busy, round]; rfl) busy round

/-! ### Timers in order -/

/-- The next round begins with what became ready, and then the timers ring that are due. Time goes on no further
than to the first of them. -/
theorem nextRound_rung (h : w.nextRound = some w') :
    w'.round = w.next.reverse ++
      (w.timers.takeWhile fun t => t.time ≤ w'.now).map (fun t => .release t.task t.ticket) ∧
    (w'.timers = w.timers.dropWhile fun t => t.time ≤ w'.now) ∧
    ∀ first rest, w.timers = first :: rest → w'.now ≤ max w.now first.time := by
  have rings : ∀ now timers, ring now timers =
      ((timers.takeWhile fun t => t.time ≤ now).map fun t => .release t.task t.ticket,
        timers.dropWhile fun t => t.time ≤ now) := fun now timers => by
    simp only [ring, List.span_eq_takeWhile_dropWhile]
  unfold World.nextRound at h
  split at h
  · cases h
  · simp only [rings, Option.some.injEq] at h
    subst h
    refine ⟨rfl, rfl, fun first rest timers => ?_⟩
    simp only [timers]
    split
    · rename_i same
      cases same
      split
      · exact le_max_right _ _
      · exact le_max_left _ _
    · exact le_max_left _ _

/-- Whether the timers stand in the order in which they ring. -/
def Ordered (w : World α) : Prop := w.timers.Pairwise (·.time ≤ ·.time)

theorem insertTimer_ordered (t : Timer) {timers : List Timer} (h : timers.Pairwise (·.time ≤ ·.time)) :
    (insertTimer t timers).Pairwise (·.time ≤ ·.time) := by
  induction timers with
  | nil => exact List.pairwise_singleton _ _
  | cons u rest ih =>
      obtain ⟨first, others⟩ := List.pairwise_cons.mp h
      unfold insertTimer
      split
      · rename_i before
        refine List.pairwise_cons.mpr ⟨fun v member => ?_, ih others⟩
        rcases (mem_insertTimer t v rest).mp member with rfl | old
        · exact before
        · exact first v old
      · rename_i after
        have after := le_of_lt (Rat.not_le.mp after)
        refine List.pairwise_cons.mpr ⟨fun v member => ?_, h⟩
        rcases List.mem_cons.mp member with rfl | old
        · exact after
        · exact le_trans after (first v old)

namespace Ordered

theorem unschedule (h : w.Ordered) (task : Nat) : (w.unschedule task).Ordered := List.Pairwise.filter _ h

theorem schedule (h : w.Ordered) (task ticket : Nat) (length : Span) : (w.schedule task ticket length).Ordered := by
  cases length with
  | forever => exact h
  | ms r => exact insertTimer_ordered _ h

theorem cancel (h : w.Ordered) (task : Nat) : (w.cancel task).Ordered := by
  unfold World.cancel
  split
  · exact h
  · split
    · exact h
    · exact unschedule h task
    · exact h

theorem finish (h : w.Ordered) (task : Nat) : (w.finish task).Ordered := by
  have told : ∀ (watchers : List Watcher) (w : World α), (watchers.foldl tell w).timers = w.timers := by
    intro watchers
    induction watchers with
    | nil => exact fun _ => rfl
    | cons watcher rest ih => exact fun w => (ih _).trans (by cases watcher <;> rfl)
  cases found : w.tasks[task]? with
  | none =>
      unfold World.finish
      simp only [found]
      exact h
  | some t =>
      unfold Ordered
      rw [finish_eq w task found, told]
      exact h

theorem sleep (h : w.Ordered) (task : Nat) (length : Span) : (w.sleep task length).Ordered := by
  have parked : (w.park task).2.Ordered := h
  unfold World.sleep
  cases length with
  | forever => exact parked
  | ms r =>
      simp only
      split
      · exact h
      · exact parked.schedule task _ _

theorem act (h : w.Ordered) (act : Act task w w') : w'.Ordered := by
  cases act with
  | cancel i => exact h.cancel i
  | unschedule => exact h.unschedule task
  | _ => exact h

theorem turned (h : w.Ordered) (turned : Turned task w w') : w'.Ordered := by
  obtain ⟨w₁, acts, last⟩ := turned
  have h : w₁.Ordered := by
    clear last
    induction acts with
    | refl => exact h
    | tail _ act ih => exact ih.act act
  cases last with
  | finish => exact h.finish task
  | sleep length => exact h.sleep task length
  | ask x y walk? length =>
      have asks : { ((w₁.park task).2.spawn x [.release task w₁.tickets]).2.withWork task y with walk? }.Ordered := h
      exact asks.schedule task _ length
  | giveUp y i =>
      have given : (((w₁.park task).2.withWork task y).watch i [.release task w₁.tickets]).Ordered := h
      exact given.cancel i
  | _ => exact h

theorem nextRound (h : w.Ordered) (next : w.nextRound = some w') : w'.Ordered := by
  unfold Ordered
  rw [(nextRound_rung next).2.1]
  exact List.Pairwise.sublist (List.dropWhile_sublist _) h

theorem withPhase (h : w.Ordered) (phase : Phase) : { w with phase }.Ordered := h

theorem idles (h : w.Ordered) (step : w.idles = some w') : w'.Ordered := by
  cases idles_cases step with
  | still => exact h
  | round phase _ next => exact (h.withPhase phase).nextRound next
  | drain =>
      have cancelled : ∀ (tasks : List Nat) (w : World α), w.Ordered →
          (tasks.foldl (fun w i => w.cancel i) w).Ordered := by
        intro tasks
        induction tasks with
        | nil => exact fun _ h => h
        | cons i rest ih => exact fun w h => ih _ (h.cancel i)
      exact cancelled _ w h

theorem step (h : w.Ordered) (scheduled : w.Scheduled) (shown : Shows none w c) (step : w.step = some w') :
    w'.Ordered := by
  cases next_of_step step with
  | @turn task w₁ up leaves =>
      have popped : (w₁.atTurn task).Ordered := show w₁.timers.Pairwise _ from leaves.timers ▸ h
      exact popped.turned (leaves.turned scheduled shown)
  | release =>
      rename_i task ticket rest _ _ _
      rcases release_cases { w with round := rest } task ticket with same | ⟨_, same⟩ <;> rw [same] <;> exact h
  | idle _ _ _ idles => exact h.idles idles

end Ordered

theorem Leads.ordered {s : Session} {commands : List (Command α)} (steps : (ofCommands s commands).Leads w)
    (stored : 0 < s.stores.size) (proper : ∀ x ∈ commands, x.Proper) : w.Ordered := by
  induction steps with
  | refl => exact List.Pairwise.nil
  | tail steps step ih =>
      obtain ⟨c, _, shown⟩ := (ofCommands_shows stored proper).leads steps
      exact ih.step (Leads.scheduled steps stored proper) shown step

/-- A timer rings in the next round, or is left for later ones; time goes on no further than to it. -/
theorem nextRound_rings (h : w.Ordered) (next : w.nextRound = some w') {t : Timer} (member : t ∈ w.timers) :
    (t ∈ w'.timers ∨ .release t.task t.ticket ∈ w'.round) ∧ w'.now ≤ max w.now t.time := by
  obtain ⟨round, timers, now⟩ := nextRound_rung next
  constructor
  · have here := member
    rw [← List.takeWhile_append_dropWhile (p := fun t => decide (t.time ≤ w'.now)) (l := w.timers)] at here
    rcases List.mem_append.mp here with rung | later
    · exact .inr (round ▸ List.mem_append_right _ (List.mem_map.mpr ⟨t, rung, rfl⟩))
    · exact .inl (timers ▸ later)
  · obtain ⟨first, rest, same⟩ := List.exists_cons_of_ne_nil (List.ne_nil_of_mem member)
    refine le_trans (now first rest same) (max_le_max (le_refl _) ?_)
    unfold Ordered at h
    rw [same] at h member
    rcases List.mem_cons.mp member with rfl | other
    · exact le_refl _
    · exact (List.pairwise_cons.mp h).1 t other

/-! ### Turns to come -/

/-- Whether a task stands in line for its turn. -/
def Ready (w : World α) (i : Nat) : Prop := w.busy? = some i ∨ w.InLine i

/-- Whether a task is to have its turn before time goes on. -/
def Soon (w : World α) (i : Nat) : Prop := w.Ready i ∨ ∃ ticket, w.standing? i = some (.parked ticket) ∧
  (.release i ticket ∈ w.round ∨ .release i ticket ∈ w.next)

/-- Whether a task is to have its turn by some time. -/
def WakesBy (w : World α) (i : Nat) (due : WithTop ℚ) : Prop := (w.now : WithTop ℚ) ≤ due ∧
  (w.Soon i ∨ ∃ ticket, w.standing? i = some (.parked ticket) ∧
    (due = ⊤ ∨ ∃ time, ⟨time, i, ticket⟩ ∈ w.timers ∧ ((time : Rat) : WithTop ℚ) ≤ due))

/-- What others leave of a turn to come. -/
structure Keeps (i : Nat) (w w' : World α) : Prop where
  now : w'.now = w.now
  round : w'.round = w.round
  line : .turn i ∈ w.next → .turn i ∈ w'.next
  rests : ∀ ticket, w.standing? i = some (.parked ticket) → .turn i ∈ w'.next ∨
    w'.standing? i = some (.parked ticket) ∧ (∀ time, ⟨time, i, ticket⟩ ∈ w.timers → ⟨time, i, ticket⟩ ∈ w'.timers) ∧
      (.release i ticket ∈ w.next → .release i ticket ∈ w'.next)
  alive : w.standing? i ≠ some .over → w'.standing? i ≠ some .over

namespace Keeps

/-- A change that is none of what tasks wait for. -/
theorem of_eq (now : w'.now = w.now) (round : w'.round = w.round) (next : w'.next = w.next)
    (timers : w'.timers = w.timers) (tasks : w'.tasks = w.tasks) : Keeps i w w' where
  now := now
  round := round
  line member := next ▸ member
  rests ticket parked := .inr ⟨by rw [standing?, tasks]; exact parked, fun _ member => timers ▸ member,
    fun member => next ▸ member⟩
  alive stands := by rw [standing?, tasks]; exact stands

theorem refl (w : World α) : Keeps i w w := of_eq rfl rfl rfl rfl rfl

theorem trans (h : Keeps i w w₁) (h' : Keeps i w₁ w') : Keeps i w w' where
  now := h'.now.trans h.now
  round := h'.round.trans h.round
  line member := h'.line (h.line member)
  rests ticket parked := by
    rcases h.rests ticket parked with line | ⟨parked, timers, releases⟩
    · exact .inl (h'.line line)
    · rcases h'.rests ticket parked with line | ⟨parked, timers', releases'⟩
      · exact .inl line
      · exact .inr ⟨parked, fun time member => timers' time (timers time member),
          fun member => releases' (releases member)⟩
  alive stands := h'.alive (h.alive stands)

variable (w)

theorem later (d : Due) : Keeps i w (w.later d) :=
  ⟨rfl, rfl, List.mem_cons_of_mem _, fun _ parked => .inr ⟨parked, fun _ => id, List.mem_cons_of_mem _⟩, id⟩

theorem change (k : Nat) {f : Task α → Task α} (same : k = i → ∀ t, (f t).standing = t.standing) :
    Keeps i w (w.change k f) := by
  have stands : (w.change k f).standing? i = w.standing? i := by
    by_cases own : k = i
    · exact w.change_standing k i (same own)
    · rw [standing?, change_task, if_neg own]
      rfl
  exact ⟨rfl, rfl, id, fun ticket parked => .inr ⟨stands.trans parked, fun _ => id, id⟩, fun alive => stands ▸ alive⟩

/-- A task that is brought to another standing stands in line. -/
theorem line_up {s : Standing} (alive : s ≠ .over) {w' : World α} (now : w'.now = w.now) (round : w'.round = w.round)
    (next : w'.next = .turn i :: w.next) (tasks : w'.tasks = (w.stand i s).tasks) : Keeps i w w' where
  now := now
  round := round
  line := next ▸ List.mem_cons_of_mem _
  rests _ _ := .inl (next ▸ List.mem_cons_self)
  alive _ ceased := by
    rw [standing?, tasks, ← standing?, stand_standing, if_pos rfl] at ceased
    obtain ⟨_, _, same⟩ := Option.map_eq_some_iff.mp ceased
    exact alive same

theorem withWork (k : Nat) (x : Work α) : Keeps i w (w.withWork k x) := change w k fun _ _ => rfl

theorem watch (k : Nat) (watchers : List Watcher) : Keeps i w (w.watch k watchers) := change w k fun _ _ => rfl

theorem park (other : i ≠ task) : Keeps i w (w.park task).2 :=
  (of_eq rfl rfl rfl rfl rfl : Keeps i w { w with tickets := w.tickets + 1 }).trans
    (change _ task fun same => absurd same.symm other)

theorem unschedule (other : i ≠ task) : Keeps i w (w.unschedule task) :=
  ⟨rfl, rfl, id, fun _ parked =>
    .inr ⟨parked, fun _ member => List.mem_filter.mpr ⟨member, bne_iff_ne.mpr other⟩, id⟩, id⟩

theorem schedule (k : Nat) (length : Span) : Keeps i w (w.schedule k ticket length) := by
  cases length with
  | forever => exact refl w
  | ms r => exact ⟨rfl, rfl, id, fun _ parked =>
      .inr ⟨parked, fun _ member => (mem_insertTimer _ _ _).mpr (.inr member), id⟩, id⟩

theorem spawn (x : Work α) (watchers : List Watcher) : Keeps i w (w.spawn x watchers).2 := by
  refine ⟨rfl, rfl, List.mem_cons_of_mem _, fun ticket parked =>
    .inr ⟨?_, fun _ => id, List.mem_cons_of_mem _⟩, fun alive => ?_⟩
  · rw [spawn_standing, if_neg fun same => ?_, parked]
    rw [same, standing_size] at parked
    cases parked
  · rw [spawn_standing]
    split
    · exact nofun
    · exact alive

/-- Who is called stands in line. -/
theorem cancel (k : Nat) : Keeps i w (w.cancel k) := by
  unfold World.cancel
  split
  · exact refl w
  · rename_i t found
    split
    · exact refl w
    · have called : Keeps i w (((w.stand k .interrupted).unschedule k).later (.turn k)) := by
        by_cases own : k = i
        · exact own ▸ line_up w (s := .interrupted) nofun rfl rfl rfl rfl
        · have stood : Keeps i w (w.stand k .interrupted) := change w k fun same => absurd same own
          exact (stood.trans (unschedule _ (Ne.symm own))).trans (later _ _)
      exact called
    · exact change w k fun _ _ => rfl

theorem tell (watcher : Watcher) : Keeps i w (w.tell watcher) := by
  cases watcher with
  | release k ticket => exact later w _
  | wake k =>
      by_cases own : k = i
      · exact own ▸ line_up w (s := .released) nofun rfl rfl rfl rfl
      · have stood : Keeps i w (w.stand k .released) := change w k fun same => absurd same own
        exact stood.trans (later _ _)

theorem finish (other : i ≠ task) : Keeps i w (w.finish task) := by
  have told : ∀ (watchers : List Watcher) (w : World α), Keeps i w (watchers.foldl World.tell w) := by
    intro watchers
    induction watchers with
    | nil => exact refl
    | cons watcher rest ih => exact fun w => (tell w watcher).trans (ih _)
  cases found : w.tasks[task]? with
  | none =>
      unfold World.finish
      simp only [found]
      exact refl w
  | some t =>
      rw [finish_eq w task found]
      exact (change w task fun same => absurd same.symm other : Keeps i w (w.ceased task)).trans (told _ _)

theorem sleep (other : i ≠ task) (length : Span) : Keeps i w (w.sleep task length) := by
  have parked : Keeps i w ((w.park task).2.schedule task w.tickets length) := (park w other).trans (schedule _ _ _)
  unfold World.sleep
  cases length with
  | forever => exact parked
  | ms r =>
      simp only
      split
      · exact (change w task fun same => absurd same.symm other : Keeps i w (w.stand task .queued)).trans (later _ _)
      · exact parked

end Keeps

theorem Act.keeps (act : Act task w w') (other : i ≠ task) : Keeps i w w' := by
  cases act with
  | session s => exact .of_eq rfl rfl rfl rfl rfl
  | reply r => exact .of_eq rfl rfl rfl rfl rfl
  | work x => exact .withWork w task x
  | start r => exact .spawn w _ _
  | cancel k => exact .cancel w k
  | unschedule => exact .unschedule w other

theorem Last.keeps (last : Last task w w') (other : i ≠ task) : Keeps i w w' := by
  cases last with
  | rest => exact .refl w
  | busy => exact .of_eq rfl rfl rfl rfl rfl
  | finish => exact .finish w other
  | sleep length => exact .sleep w other length
  | ask x y walk? length =>
      have spawned := (Keeps.park w other).trans (.spawn _ x [.release task w.tickets])
      let w₁ := ((w.park task).2.spawn x [.release task w.tickets]).2.withWork task y
      have known : Keeps i w₁ { w₁ with walk? } := .of_eq rfl rfl rfl rfl rfl
      exact ((spawned.trans (.withWork _ task y)).trans known).trans (.schedule _ task length)
  | giveUp y k =>
      exact (((Keeps.park w other).trans (.withWork _ task y)).trans (.watch _ k _)).trans (.cancel _ k)
  | join y k same =>
      subst same
      exact ((Keeps.park w other).trans (.watch _ k _)).trans (.withWork _ 0 y)

theorem Turned.keeps (turned : Turned task w w') (other : i ≠ task) : Keeps i w w' := by
  obtain ⟨w₁, acts, last⟩ := turned
  refine Keeps.trans ?_ (last.keeps other)
  clear last
  induction acts with
  | refl => exact .refl w
  | tail _ act ih => exact ih.trans (act.keeps other)

/-! ### What becomes of turns to come -/

theorem WakesBy.mono (h : w.WakesBy i due) {due' : WithTop ℚ} (later : due ≤ due') : w.WakesBy i due' := by
  refine ⟨le_trans h.1 later, h.2.imp_right fun ⟨ticket, parked, timer⟩ => ⟨ticket, parked, ?_⟩⟩
  rcases timer with rfl | ⟨time, here, early⟩
  · exact .inl (top_le_iff.mp later)
  · exact .inr ⟨time, here, le_trans early later⟩

theorem Ready.turns (h : w.Ready i) : 0 < w.turns i := by
  unfold World.turns
  rcases h with now | round | next
  · rw [if_pos now]
    omega
  · have turn : 0 < w.round.countP (·.isTurn i) := List.countP_pos_iff.mpr ⟨_, round, beq_self_eq_true i⟩
    omega
  · have turn : 0 < w.next.countP (·.isTurn i) := List.countP_pos_iff.mpr ⟨_, next, beq_self_eq_true i⟩
    omega

/-- A task that is to have its turn is not over. -/
theorem WakesBy.alive (h : w.WakesBy i due) (scheduled : w.Scheduled) : w.standing? i ≠ some .over := by
  have parks : ∀ {ticket}, w.standing? i = some (.parked ticket) → w.standing? i ≠ some .over := fun parked ceased => by
    cases parked.symm.trans ceased
  obtain ⟨_, (ready | ⟨_, parked, _⟩) | ⟨_, parked, _⟩⟩ := h
  · obtain ⟨s, standing, alive, _⟩ := scheduled.standing_of_turns ready.turns
    exact fun ceased => alive (Option.some.inj (standing.symm.trans ceased))
  · exact parks parked
  · exact parks parked

theorem Soon.keeps (h : w.Soon i) (keeps : Keeps i w w') (busy : w.busy? = some i → w'.busy? = some i) :
    w'.Soon i := by
  rcases h with (now | line) | ⟨ticket, parked, due⟩
  · exact .inl (.inl (busy now))
  · exact .inl (.inr (line.imp (keeps.round ▸ ·) keeps.line))
  · rcases keeps.rests ticket parked with line | ⟨parked, _, releases⟩
    · exact .inl (.inr (.inr line))
    · exact .inr ⟨ticket, parked, due.imp (keeps.round ▸ ·) releases⟩

theorem WakesBy.keeps (h : w.WakesBy i due) (keeps : Keeps i w w') (busy : w.busy? = some i → w'.busy? = some i) :
    w'.WakesBy i due := by
  obtain ⟨now, soon | ⟨ticket, parked, timer⟩⟩ := h
  · exact ⟨keeps.now ▸ now, .inl (soon.keeps keeps busy)⟩
  · refine ⟨keeps.now ▸ now, ?_⟩
    rcases keeps.rests ticket parked with line | ⟨parked, timers, _⟩
    · exact .inl (.inl (.inr (.inr line)))
    · exact .inr ⟨ticket, parked, timer.imp_right fun ⟨time, here, early⟩ => ⟨time, timers time here, early⟩⟩

/-! ### Steps -/

/-- Another task leaves its queue. -/
theorem Soon.atTurn (h : w.Soon i) (up : w.upNext? = some task) (leaves : w.Dequeues task w₁)
    (rest : ∀ d ∈ w.round, d ≠ .turn task → d ∈ w₁.round) (other : i ≠ task) : (w₁.atTurn task).Soon i := by
  have next : (w₁.atTurn task).next = w.next := leaves.next
  rcases h with (now | line) | ⟨ticket, parked, due⟩
  · exact absurd (Option.some.inj ((upNext?_busy now).symm.trans up)) other
  · exact .inl (.inr (line.imp (rest _ · fun same => other (Due.turn.inj same)) (next ▸ ·)))
  · refine .inr ⟨ticket, ?_, due.imp (rest _ · nofun) (next ▸ ·)⟩
    rw [atTurn_standing, if_neg other.symm, standing?, leaves.tasks]
    exact parked

theorem WakesBy.atTurn (h : w.WakesBy i due) (up : w.upNext? = some task) (leaves : w.Dequeues task w₁)
    (rest : ∀ d ∈ w.round, d ≠ .turn task → d ∈ w₁.round) (other : i ≠ task) :
    (w₁.atTurn task).WakesBy i due := by
  obtain ⟨now, soon | ⟨ticket, parked, timer⟩⟩ := h
  · exact ⟨leaves.now ▸ now, .inl (soon.atTurn up leaves rest other)⟩
  · refine ⟨leaves.now ▸ now, .inr ⟨ticket, ?_, leaves.timers.symm ▸ timer⟩⟩
    rw [atTurn_standing, if_neg other.symm, standing?, leaves.tasks]
    exact parked

theorem Keeps.released (w : World α) (k ticket : Nat) : Keeps i w (w.due (.release k ticket)) := by
  rcases w.release_cases k ticket with same | ⟨_, same⟩ <;> rw [same]
  · exact .refl w
  · exact .tell w (.wake k)

/-- A ticket is released. -/
theorem Soon.release (h : w.Soon i) {rest : List Due} (busy : w.busy? = none)
    (round : w.round = .release task ticket :: rest) : ({ w with round := rest }.due (.release task ticket)).Soon i := by
  let w₁ := { w with round := rest }
  have keeps : Keeps i w₁ (w₁.due (.release task ticket)) := .released w₁ task ticket
  rcases h with (now | line) | ⟨ticket', parked, due⟩
  · cases busy.symm.trans now
  · rw [InLine, round] at line
    have popped : .turn i ∈ Due.release task ticket :: rest → .turn i ∈ rest := fun member =>
      (List.mem_cons.mp member).resolve_left fun same => by cases same
    have line := line.imp_left popped
    exact .inl (.inr (line.imp (keeps.round ▸ ·) keeps.line))
  · by_cases own : Due.release i ticket' = .release task ticket
    · cases own
      obtain ⟨t, found, stands⟩ := Option.map_eq_some_iff.mp parked
      have line : w₁.due (.release task ticket) = (w₁.stand task .released).later (.turn task) := by
        unfold World.due
        simp only [show w₁.tasks[task]? = some t from found, stands, if_true]
      exact .inl (.inr (.inr (line ▸ List.mem_cons_self)))
    · have soon : w₁.Soon i := .inr ⟨ticket', parked, due.imp_left fun member =>
        (List.mem_cons.mp (round ▸ member)).resolve_left own⟩
      exact soon.keeps keeps fun now => by cases busy.symm.trans now

theorem WakesBy.release (h : w.WakesBy i due) {rest : List Due} (busy : w.busy? = none)
    (round : w.round = .release task ticket :: rest) :
    ({ w with round := rest }.due (.release task ticket)).WakesBy i due := by
  let w₁ := { w with round := rest }
  have keeps : Keeps i w₁ (w₁.due (.release task ticket)) := .released w₁ task ticket
  obtain ⟨now, soon | later⟩ := h
  · exact ⟨by rw [keeps.now]; exact now, .inl (soon.release busy round)⟩
  · have waits : w₁.WakesBy i due := ⟨now, .inr later⟩
    exact waits.keeps keeps fun own => by cases busy.symm.trans own

/-- In the next round what became ready is done, and time stands still for it. -/
theorem Soon.nextRound (h : w.Soon i) (busy : w.busy? = none) (round : w.round = []) (next : w.nextRound = some w') :
    w'.Soon i ∧ w'.now = w.now := by
  have turn := nextRound_eq next
  have ready : ∀ d ∈ w.next, d ∈ w'.round ∧ w'.now = w.now := fun d member =>
    ⟨(nextRound_rung next).1 ▸ List.mem_append_left _ (List.mem_reverse.mpr member),
      turn.now (List.ne_nil_of_mem member)⟩
  rcases h with (now | line) | ⟨ticket, parked, due⟩
  · cases busy.symm.trans now
  · rw [InLine, round] at line
    obtain ⟨member, now⟩ := ready _ (line.resolve_left List.not_mem_nil)
    exact ⟨.inl (.inr (.inl member)), now⟩
  · rw [round] at due
    obtain ⟨member, now⟩ := ready _ (due.resolve_left List.not_mem_nil)
    refine ⟨.inr ⟨ticket, ?_, .inl member⟩, now⟩
    rw [standing?, turn.tasks]
    exact parked

theorem WakesBy.nextRound (h : w.WakesBy i due) (ordered : w.Ordered) (busy : w.busy? = none) (round : w.round = [])
    (next : w.nextRound = some w') : w'.WakesBy i due := by
  obtain ⟨now, soon | ⟨ticket, parked, timer⟩⟩ := h
  · obtain ⟨soon, same⟩ := soon.nextRound busy round next
    exact ⟨same ▸ now, .inl soon⟩
  · have parked : w'.standing? i = some (.parked ticket) := by
      rw [standing?, (nextRound_eq next).tasks]
      exact parked
    rcases timer with rfl | ⟨time, here, early⟩
    · exact ⟨le_top, .inr ⟨ticket, parked, .inl rfl⟩⟩
    · obtain ⟨rings, time'⟩ := nextRound_rings ordered next here
      refine ⟨le_trans (WithTop.coe_le_coe.mpr time') ?_, ?_⟩
      · rw [WithTop.coe_max]
        exact max_le now early
      · rcases rings with later | rung
        · exact .inr ⟨ticket, parked, .inr ⟨time, later, early⟩⟩
        · exact .inl (.inr ⟨ticket, parked, .inl rung⟩)

theorem Keeps.cancelAll (w : World α) : Keeps i w w.cancelAll := by
  have cancelled : ∀ (tasks : List Nat) (w : World α), Keeps i w (tasks.foldl (fun w k => w.cancel k) w) := by
    intro tasks
    induction tasks with
    | nil => exact Keeps.refl
    | cons k rest ih => exact fun w => (Keeps.cancel w k).trans (ih _)
  exact cancelled _ w

theorem Keeps.withPhase (w : World α) (phase : Phase) : Keeps i w { w with phase } := .of_eq rfl rfl rfl rfl rfl

/-- What is to come is not lost when nothing is left to do in a round. -/
theorem WakesBy.idles (h : w.WakesBy i due) (ordered : w.Ordered) (busy : w.busy? = none) (round : w.round = [])
    (step : w.idles = some w') : w'.WakesBy i due := by
  have own : ∀ {P : Prop}, w.busy? = some i → P := fun now => by cases busy.symm.trans now
  cases idles_cases step with
  | still phase => exact h.keeps (.withPhase w phase) own
  | round phase _ next =>
      exact (h.keeps (.withPhase w phase) own).nextRound (ordered.withPhase phase) busy round next
  | drain => exact h.keeps ((Keeps.cancelAll w).trans (.withPhase _ .draining)) own

/-- What is to come is not lost in a step, unless it comes. -/
theorem WakesBy.step (h : w.WakesBy i due) (ordered : w.Ordered) (scheduled : w.Scheduled) (shown : Shows none w c)
    (step : w.step = some w') (apart : w.upNext? ≠ some i) : w'.WakesBy i due := by
  cases next_of_step step with
  | @turn task w₁ up leaves free rest =>
      have other : i ≠ task := fun same => apart (same ▸ up)
      refine (h.atTurn up leaves rest other).keeps ((leaves.turned scheduled shown).keeps other) fun own => ?_
      cases free.symm.trans own
  | release _ busy round => exact h.release busy round
  | idle _ busy round idles => exact h.idles ordered busy round idles

/-- Time goes on. -/
theorem step_now (scheduled : w.Scheduled) (shown : Shows none w c) (step : w.step = some w') : w.now ≤ w'.now := by
  cases next_of_step step with
  | @turn task w₁ up leaves =>
      have turned := (leaves.turned scheduled shown).own (scheduled.atTurn leaves)
      exact le_of_eq (turned.now.trans leaves.now).symm
  | @release task ticket rest =>
      exact le_of_eq (Keeps.released (i := task) { w with round := rest } task ticket).now.symm
  | idle _ _ _ idles =>
      cases idles_cases idles with
      | still => exact le_refl _
      | round phase _ next =>
          have later := nextRound_now next
          exact later
      | drain => exact le_of_eq (Keeps.cancelAll (i := 0) w).now.symm

/-- Time stands still in a turn. -/
theorem step_still (up : w.upNext? = some i) (scheduled : w.Scheduled) (shown : Shows none w c)
    (step : w.step = some w') : w'.now = w.now := by
  cases next_of_step step with
  | turn _ leaves =>
      have turned := (leaves.turned scheduled shown).own (scheduled.atTurn leaves)
      exact turned.now.trans leaves.now
  | release none => cases none.symm.trans up
  | idle none => cases none.symm.trans up

/-- Time stands still while a task is to have its turn. -/
theorem WakesBy.still (h : w.WakesBy i w.now) (ordered : w.Ordered) (scheduled : w.Scheduled) (shown : Shows none w c)
    (step : w.step = some w') : w'.now = w.now := by
  by_cases up : w.upNext? = some i
  · exact step_still up scheduled shown step
  · exact le_antisymm (WithTop.coe_le_coe.mp (h.step ordered scheduled shown step up).1)
      (step_now scheduled shown step)

/-- A task that waits for no ticket has its turn before time goes on. -/
theorem WakesBy.awake (h : w.WakesBy i due) (awake : ∀ ticket, w.standing? i ≠ some (.parked ticket)) :
    w.WakesBy i w.now :=
  ⟨le_refl _, .inl (h.2.resolve_right fun ⟨ticket, parked, _⟩ => awake ticket parked)⟩

/-- A world in which nothing happens any more has nothing to do. -/
theorem step_none (step : w.step = none) : w.busy? = none ∧ w.round = [] ∧ w.next = [] ∧ w.timers = [] := by
  cases busy : w.busy? with
  | some task =>
      rw [w.step_busy busy] at step
      cases step
  | none =>
      cases round : w.round with
      | cons d rest =>
          rw [w.step_due busy round] at step
          cases step
      | nil =>
          rw [w.step_idles busy round] at step
          unfold World.idles at step
          split at step
          · cases step
          · cases step
          · unfold World.nextRound at step
            split at step
            · exact ⟨rfl, rfl, ‹_›, ‹_›⟩
            · cases step

/-- Something happens in a world while a task is to have its turn at some time. -/
theorem WakesBy.goes (h : w.WakesBy i due) (finite : due ≠ ⊤) : ∃ w', w.step = some w' := by
  refine Option.ne_none_iff_exists'.mp fun none => ?_
  obtain ⟨busy, round, next, timers⟩ := step_none none
  obtain ⟨_, ((own | line) | ⟨ticket, _, told⟩) | ⟨ticket, _, rings⟩⟩ := h
  · cases busy.symm.trans own
  · rw [InLine, round, next] at line
    exact line.elim List.not_mem_nil List.not_mem_nil
  · rw [round, next] at told
    exact told.elim List.not_mem_nil List.not_mem_nil
  · obtain ⟨time, member, _⟩ := rings.resolve_left finite
    rw [timers] at member
    cases member

/-! ### Turns that come no earlier -/

/-- Whether a task has its turn no earlier than some time, unless it is called. -/
def Late (w : World α) (i : Nat) (due : WithTop ℚ) : Prop := due ≤ w.now ∨
  ∃ length since, w.Lasts i i length since ∧ ∀ now, length.Past since now → due ≤ (now : Rat)

/-- A task that waits until a deadline does not mind the turns of others. -/
theorem Lasts.apart {length : Span} {since : Rat} (h : w.Lasts i j length since) (scheduled : w.Scheduled)
    (shown : Shows none w c) (step : w.step = some w') (apart : w.upNext? ≠ some i) : w'.Lasts i j length since := by
  cases next_of_step step with
  | @turn task w₁ up leaves => exact h.turned scheduled shown leaves fun same => apart (same ▸ up)
  | release _ _ round => exact h.release round
  | idle _ _ _ idles => exact h.idles idles

theorem Late.step (h : w.Late i due) (scheduled : w.Scheduled) (shown : Shows none w c) (step : w.step = some w')
    (apart : w.upNext? ≠ some i) : w'.Late i due := by
  rcases h with early | ⟨length, since, lasts, past⟩
  · exact .inl (le_trans early (WithTop.coe_le_coe.mpr (step_now scheduled shown step)))
  · exact .inr ⟨length, since, lasts.apart scheduled shown step apart, past⟩

/-- A task that is not called has its turn late. -/
theorem Late.turn (h : w.Late i due) (scheduled : w.Scheduled) (leaves : w.Dequeues i w₁)
    (uncalled : w.called i = false) : due ≤ w.now := by
  rcases h with early | ⟨length, since, lasts, past⟩
  · exact early
  · refine past _ ((lasts.turn scheduled leaves uncalled).resolve_right fun ceased => ?_)
    obtain ⟨s, standing, alive, _⟩ := leaves.standing scheduled
    exact alive (Option.some.inj (standing.symm.trans ceased))

/-! ### Going to sleep -/

/-- A task sleeps no longer than it wants to. -/
theorem AtWork.sleep_wakes (h : w.AtWork task) (length : Span) :
    (w.sleep task length).WakesBy task (w.now + length.time) := by
  unfold World.sleep
  cases length with
  | forever => exact ⟨le_top, .inr ⟨w.tickets, h.parked, .inl rfl⟩⟩
  | ms r =>
      have time : ((w.now + r : Rat) : WithTop ℚ) ≤ w.now + (Span.ms r).time :=
        WithTop.coe_le_coe.mpr (Rat.add_le_add_left.mpr (le_max_left r 0))
      have now : (w.now : WithTop ℚ) ≤ w.now + (Span.ms r).time :=
        WithTop.coe_le_coe.mpr (le_add_of_nonneg_right (le_max_right r 0))
      simp only
      split
      · exact ⟨now, .inl (.inl (.inr (.inr List.mem_cons_self)))⟩
      · exact ⟨now, .inr ⟨w.tickets, h.parked, .inr ⟨w.now + r, (mem_insertTimer _ _ _).mpr (.inl rfl), time⟩⟩⟩

/-- A task sleeps as long as it wants to, unless it is called. -/
theorem AtWork.sleep_late (h : w.AtWork task) (length : Span) :
    (w.sleep task length).Late task (w.now + length.time) := by
  have fresh : ∀ {P : Prop}, w.Refers task w.tickets → P := fun refers =>
    absurd (h.scheduled.issued _ _ refers) (Nat.lt_irrefl _)
  have lasts : (∀ r, length = .ms r → 0 < r) →
      ((w.park task).2.schedule task w.tickets length).Lasts task task length w.now := by
    intro some_time
    let w₁ := (w.park task).2.schedule task w.tickets length
    have tasks : w₁.tasks = (w.park task).2.tasks := by
      cases length <;> rfl
    have watchers : ∀ k, w₁.watchersOf k = w.watchersOf k := fun k => by
      rw [watchersOf, tasks]
      exact w.park_watchers task k
    have rings : ∀ time, ⟨time, task, w.tickets⟩ ∈ w₁.timers → ∃ r, length = .ms r ∧ time = w.now + r := by
      intro time member
      cases length with
      | forever => exact fresh (.timer member)
      | ms r =>
          rcases (mem_insertTimer _ _ _).mp member with new | old
          · cases new
            exact ⟨r, rfl, rfl⟩
          · exact fresh (.timer old)
    refine .inr (.inr ⟨w.tickets, ⟨.inl ?_, fun k here => ?_, fun time member => ?_, ⟨fun member => ?_, fun member => ?_⟩,
      fun k here => ?_⟩, fun time member => ?_⟩)
    · rw [standing?, tasks]
      exact h.parked
    · exact h.scheduled.unwoken_of_queued h.queued k (watchers k ▸ here)
    · obtain ⟨r, rfl, rfl⟩ := rings time member
      have above := some_time r rfl
      show w.now < w.now + r
      grind
    · have round : w₁.round = w.round := by cases length <;> rfl
      exact fresh (.due (.inl (round ▸ member)))
    · have next : w₁.next = w.next := by cases length <;> rfl
      exact fresh (.due (.inr (next ▸ member)))
    · exact fresh (.watcher (watchers k ▸ here))
    · obtain ⟨r, rfl, rfl⟩ := rings time member
      exact le_refl _
  unfold World.sleep
  cases length with
  | forever => exact .inr ⟨.forever, w.now, lasts fun r same => (by cases same), fun _ past => past.elim⟩
  | ms r =>
      simp only
      split
      · rename_i none
        refine .inl ?_
        show ((w.now + max r 0 : ℚ) : WithTop ℚ) ≤ w.now
        rw [max_eq_right (of_decide_eq_true none), add_zero]
      · rename_i some_time
        have above : 0 < r := Rat.not_le.mp fun none => some_time (decide_eq_true none)
        refine .inr ⟨.ms r, w.now, lasts fun r' same => (by cases same; exact above), fun now past => ?_⟩
        show ((w.now + max r 0 : ℚ) : WithTop ℚ) ≤ now
        rw [max_eq_left (le_of_lt above)]
        exact WithTop.coe_le_coe.mpr past

/-- A task that asks for another one waits no longer than it wants to. -/
theorem AtWork.ask_wakes (h : w.AtWork task) (x y : Work α) (walk? : Option Nat) (length : Span) :
    (w.ask task x y walk? length).WakesBy task (w.now + length.time) := by
  have now : (w.ask task x y walk? length).now = w.now := schedule_now _ _ _ _
  have parked := h.ask_parked x y walk? length
  cases length with
  | forever => exact ⟨le_top, .inr ⟨w.tickets, parked, .inl rfl⟩⟩
  | ms r =>
      refine ⟨?_, .inr ⟨w.tickets, parked, .inr ⟨w.now + r, (mem_insertTimer _ _ _).mpr (.inl rfl), ?_⟩⟩⟩
      · rw [now]
        exact WithTop.coe_le_coe.mpr (le_add_of_nonneg_right (le_max_right r 0))
      · exact WithTop.coe_le_coe.mpr (Rat.add_le_add_left.mpr (le_max_left r 0))

end World
end BlockGraph
