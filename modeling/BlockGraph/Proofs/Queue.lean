import BlockGraph.Proofs.Tasks
/-!
The queues of a world. A task stands in line for at most one turn, and for none while it is parked or over;
only the caller is woken, by the one task that it joins. `Scheduled` says so, and here every move of the
scheduler keeps it.
-/
namespace BlockGraph

/-- How many turns a task may stand in line for. -/
def Standing.room : Standing → Nat
  | .parked _ | .over => 0
  | _ => 1

/-- Whether something that is due is a turn of a task. -/
def Due.isTurn (task : Nat) : Due → Bool
  | .turn i => i == task
  | .release .. => false

/-- The task that a task waits for. -/
def Work.awaits? {α : Type} : Work α → Option Nat
  | .walk k => k.mode.awaits?
  | x => x.pending?.map (·.walk)

/-- Whether work may be that of the task with some number. The caller is the first task, and starts others;
no task waits for the caller or for itself. -/
def Work.Placed {α : Type} (task : Nat) (x : Work α) : Prop :=
  (match x with
    | .caller k => task = 0 ∧ 0 ∉ k.started
    | _ => task ≠ 0) ∧ ∀ i, x.awaits? = some i → i ≠ 0 ∧ i ≠ task

namespace World

variable {α : Type} {w w' : World α} {task ticket i j : Nat}

def standing? (w : World α) (task : Nat) : Option Standing := (w.tasks[task]?).map (·.standing)

def room (w : World α) (task : Nat) : Nat := (w.standing? task).elim 0 Standing.room

def watchersOf (w : World α) (task : Nat) : List Watcher := (w.tasks[task]?).elim [] (·.watchers)

/-- Whether the next turn of a task is that of a cancelled one. -/
def called (w : World α) (task : Nat) : Bool :=
  (w.tasks[task]?).any fun t => t.cancelled || t.standing == .interrupted

/-- How many turns a task stands in line for. -/
def turns (w : World α) (task : Nat) : Nat :=
  (if w.busy? = some task then 1 else 0) +
    (w.round.countP (·.isTurn task) + w.next.countP (·.isTurn task))

/-- Whether something is going to release a ticket of a task. -/
inductive Refers (w : World α) (task ticket : Nat) : Prop
  | timer {time : Rat} : ⟨time, task, ticket⟩ ∈ w.timers → Refers w task ticket
  | due : .release task ticket ∈ w.round ∨ .release task ticket ∈ w.next → Refers w task ticket
  | watcher {i : Nat} : .release task ticket ∈ w.watchersOf i → Refers w task ticket

/-- Whether nobody is going to wake a task. -/
def Unwoken (w : World α) (task : Nat) : Prop := ∀ i, .wake task ∉ w.watchersOf i

/-- Whether the queues of a world are in order. -/
structure Scheduled (w : World α) : Prop where
  turns : ∀ i, w.turns i ≤ w.room i
  issued : ∀ i ticket, w.Refers i ticket → ticket < w.tickets
  single : ∀ i, (w.watchersOf i).length ≤ 1
  /-- Only the caller is woken. It is parked then, and nothing else ends that. -/
  wakes : ∀ i j, .wake j ∈ w.watchersOf i → j = 0 ∧
    (∃ ticket, w.standing? 0 = some (.parked ticket) ∧ ¬w.Refers 0 ticket) ∧
    ∀ i', .wake 0 ∈ w.watchersOf i' → i' = i
  placed : ∀ i x, w.work? i = some x → x.Placed i
  last : w.phase ≠ .live → w.standing? 0 = some .over
  inhabited : 0 < w.tasks.size

/-! ### What the moves of the scheduler change -/

section Moves

variable (w : World α) (task i : Nat)

theorem stand_standing (s : Standing) :
    (w.stand task s).standing? i = if task = i then (w.standing? i).map fun _ => s else w.standing? i := by
  simp only [standing?, stand, change_task]
  split
  · simp only [Option.map_map, Function.comp_def]
  · rfl

theorem change_watchers {f : Task α → Task α} (same : ∀ t, (f t).watchers = t.watchers) :
    (w.change task f).watchersOf i = w.watchersOf i := by
  simp only [watchersOf, change_task]
  split
  · cases w.tasks[i]? with
    | none => rfl
    | some t => exact same t
  · rfl

theorem change_standing {f : Task α → Task α} (same : ∀ t, (f t).standing = t.standing) :
    (w.change task f).standing? i = w.standing? i := by
  simp only [standing?, change_task]
  split
  · simp only [Option.map_map, Function.comp_def, same]
  · rfl

theorem withWork_standing (x : Work α) : (w.withWork task x).standing? i = w.standing? i :=
  w.change_standing task i fun _ => rfl

theorem withWork_watchers (x : Work α) : (w.withWork task x).watchersOf i = w.watchersOf i :=
  w.change_watchers task i fun _ => rfl

theorem stand_work (s : Standing) : (w.stand task s).work? i = w.work? i := by
  simp only [work?, stand, change_task]
  split
  · simp only [Option.map_map, Function.comp_def]
  · rfl

theorem change_size (f : Task α → Task α) : (w.change task f).tasks.size = w.tasks.size :=
  Array.size_modify

theorem stand_watchers (s : Standing) : (w.stand task s).watchersOf i = w.watchersOf i :=
  w.change_watchers task i fun _ => rfl

theorem park_standing : (w.park task).2.standing? i =
    if task = i then (w.standing? i).map fun _ => .parked w.tickets else w.standing? i :=
  stand_standing { w with tickets := w.tickets + 1 } task i _

theorem park_watchers : (w.park task).2.watchersOf i = w.watchersOf i :=
  stand_watchers { w with tickets := w.tickets + 1 } task i _

/-- A world in which a task is over, and nobody was told yet. -/
def ceased : World α := w.change task fun t => { t with standing := .over, watchers := [] }

theorem ceased_standing : (w.ceased task).standing? i =
    if task = i then (w.standing? i).map fun _ => .over else w.standing? i := by
  simp only [standing?, ceased, change_task]
  split
  · simp only [Option.map_map, Function.comp_def]
  · rfl

theorem ceased_watchers :
    (w.ceased task).watchersOf i = if task = i then [] else w.watchersOf i := by
  simp only [watchersOf, ceased, change_task]
  split
  · cases w.tasks[i]? <;> rfl
  · rfl

theorem ceased_work : (w.ceased task).work? i = w.work? i := by
  simp only [work?, ceased, change_task]
  split
  · simp only [Option.map_map, Function.comp_def]
  · rfl

theorem finish_eq {t : Task α} (found : w.tasks[task]? = some t) :
    w.finish task = t.watchers.foldl tell (w.ceased task) := by
  unfold World.finish
  rw [found]
  rfl

theorem watch_watchers (watchers : List Watcher) : (w.watch task watchers).watchersOf i =
    if task = i then (w.tasks[i]?).elim [] fun _ => watchers else w.watchersOf i := by
  simp only [watchersOf, watch, change_task]
  split
  · cases w.tasks[i]? <;> rfl
  · rfl

theorem watch_standing (watchers : List Watcher) : (w.watch task watchers).standing? i = w.standing? i :=
  w.change_standing task i fun _ => rfl

theorem spawn_standing (x : Work α) (watchers : List Watcher) : (w.spawn x watchers).2.standing? i =
    if i = w.tasks.size then some .queued else w.standing? i := by
  simp only [spawn, later, standing?, Array.getElem?_push]
  split <;> rfl

theorem spawn_watchers (x : Work α) (watchers : List Watcher) : (w.spawn x watchers).2.watchersOf i =
    if i = w.tasks.size then watchers else w.watchersOf i := by
  simp only [spawn, later, watchersOf, Array.getElem?_push]
  split <;> rfl

theorem later_turns (d : Due) : (w.later d).turns i = w.turns i + if d.isTurn i then 1 else 0 := by
  have unfolds : (w.later d).turns i = (if w.busy? = some i then 1 else 0) +
      (w.round.countP (·.isTurn i) + (d :: w.next).countP (·.isTurn i)) := rfl
  rw [unfolds, turns, List.countP_cons]
  omega

theorem mem_insertTimer (t u : Timer) (timers : List Timer) :
    u ∈ insertTimer t timers ↔ u = t ∨ u ∈ timers := by
  induction timers with
  | nil => simp only [insertTimer, List.mem_singleton, List.not_mem_nil, or_false]
  | cons v rest ih =>
      unfold insertTimer
      split
      · rw [List.mem_cons, ih, List.mem_cons, or_left_comm]
      · rw [List.mem_cons]

theorem standing_size : w.standing? w.tasks.size = none := by
  simp only [standing?, Array.getElem?_eq_none (Nat.le_refl _), Option.map_none]

theorem room_size : w.room w.tasks.size = 0 := by
  simp only [room, standing_size, Option.elim_none]

end Moves

/-- A move that adds no ticket, no watcher and nothing that is due. -/
theorem Refers.mono (h : w'.Refers task ticket)
    (timers : ∀ time, ⟨time, task, ticket⟩ ∈ w'.timers → ⟨time, task, ticket⟩ ∈ w.timers)
    (due : .release task ticket ∈ w'.round ∨ .release task ticket ∈ w'.next →
      .release task ticket ∈ w.round ∨ .release task ticket ∈ w.next)
    (watchers : ∀ i, .release task ticket ∈ w'.watchersOf i → .release task ticket ∈ w.watchersOf i) :
    w.Refers task ticket := by
  cases h with
  | timer here => exact .timer (timers _ here)
  | due here => exact .due (due here)
  | watcher here => exact .watcher (watchers _ here)

namespace Scheduled

theorem unwoken_of_ne (h : w.Scheduled) (other : task ≠ 0) : w.Unwoken task := fun i here =>
  other (h.wakes i task here).1

/-- A caller that is not parked is not woken either. -/
theorem unwoken_of_standing (h : w.Scheduled)
    (here : ∀ ticket, w.standing? task ≠ some (.parked ticket)) : w.Unwoken task := by
  intro i wakes
  obtain ⟨rfl, ⟨ticket, parked, _⟩, _⟩ := h.wakes i task wakes
  exact here ticket parked

theorem unwoken_of_queued (h : w.Scheduled) (queued : w.standing? task = some .queued) : w.Unwoken task :=
  h.unwoken_of_standing fun ticket parked => by cases queued.symm.trans parked

/-- A ticket that something is going to release is not one of a caller that is woken. -/
theorem unwoken_of_refers (h : w.Scheduled) (parked : w.standing? task = some (.parked ticket))
    (refers : w.Refers task ticket) : w.Unwoken task := by
  intro i wakes
  obtain ⟨rfl, ⟨ticket', parked', alone⟩, _⟩ := h.wakes i task wakes
  cases parked.symm.trans parked'
  exact alone refers

/-- A move that keeps the queues in order: what it refers to are tickets that were given out, of tasks that
are not woken, and it leaves a caller alone that is woken or over. -/
theorem frame (h : w.Scheduled) (turns : ∀ i, w'.turns i ≤ w'.room i)
    (refers : ∀ i ticket, w'.Refers i ticket → w.Refers i ticket ∨ w.Unwoken i ∧ ticket < w'.tickets)
    (tickets : w.tickets ≤ w'.tickets)
    (watchers : ∀ i, w'.watchersOf i = w.watchersOf i ∨ w'.watchersOf i = [] ∨
      ∃ j ticket, w'.watchersOf i = [.release j ticket])
    (caller : ∀ s, w.standing? 0 = some s → s = .over ∨ ¬w.Unwoken 0 → w'.standing? 0 = some s)
    (phase : w'.phase = w.phase) (size : w.tasks.size ≤ w'.tasks.size)
    (placed : ∀ i x, w'.work? i = some x → x.Placed i) : w'.Scheduled := by
  have woken : ∀ i j, .wake j ∈ w'.watchersOf i → .wake j ∈ w.watchersOf i := by
    intro i j here
    rcases watchers i with same | none | ⟨j', ticket, one⟩
    · exact same ▸ here
    · rw [none] at here
      cases here
    · rw [one] at here
      cases List.mem_singleton.mp here
  refine ⟨turns, fun i ticket here => ?_, fun i => ?_, fun i j here => ?_, placed, fun off => ?_,
    Nat.lt_of_lt_of_le h.inhabited size⟩
  · rcases refers i ticket here with old | ⟨_, issued⟩
    · exact Nat.lt_of_lt_of_le (h.issued i ticket old) tickets
    · exact issued
  · rcases watchers i with same | none | ⟨j', ticket, one⟩
    · exact same ▸ h.single i
    · rw [none]
      exact Nat.zero_le 1
    · rw [one]
      exact Nat.le_refl 1
  · have here := woken i j here
    obtain ⟨rfl, ⟨ticket, parked, alone⟩, unique⟩ := h.wakes i j here
    have woken₀ : ¬w.Unwoken 0 := fun unwoken => unwoken i here
    refine ⟨rfl, ⟨ticket, caller _ parked (.inr woken₀), fun refers' => ?_⟩,
    fun i' here => unique i' (woken i' 0 here)⟩
    rcases refers 0 ticket refers' with old | ⟨unwoken, _⟩
    · exact alone old
    · exact woken₀ unwoken
  · exact caller _ (h.last (phase ▸ off)) (.inl rfl)

/-- A move that leaves all tasks standing and watched as they are. -/
theorem of_eq (h : w.Scheduled) (turns : ∀ i, w'.turns i = w.turns i)
    (standing : ∀ i, w'.standing? i = w.standing? i) (watchers : ∀ i, w'.watchersOf i = w.watchersOf i)
    (refers : ∀ i ticket, w'.Refers i ticket → w.Refers i ticket ∨ w.Unwoken i ∧ ticket < w.tickets)
    (tickets : w.tickets ≤ w'.tickets) (phase : w'.phase = w.phase) (size : w'.tasks.size = w.tasks.size)
    (placed : ∀ i x, w'.work? i = some x → x.Placed i) : w'.Scheduled := by
  refine h.frame (fun i => ?_) (fun i ticket here => ?_) tickets (fun i => .inl (watchers i))
    (fun s here _ => (standing 0).trans here) phase (Nat.le_of_eq size.symm) placed
  · rw [turns, room, standing]
    exact h.turns i
  · exact (refers i ticket here).imp_right fun new => ⟨new.1, Nat.lt_of_lt_of_le new.2 tickets⟩

theorem withSession (h : w.Scheduled) (s : Session) : (w.withSession s).Scheduled :=
  h.of_eq (fun _ => rfl) (fun _ => rfl) (fun _ => rfl)
    (fun _ _ here => .inl (here.mono (fun _ => id) id fun _ => id)) (Nat.le_refl _) rfl rfl h.placed

theorem reply (h : w.Scheduled) (r : Reply α) : (w.reply r).Scheduled :=
  h.of_eq (fun _ => rfl) (fun _ => rfl) (fun _ => rfl)
    (fun _ _ here => .inl (here.mono (fun _ => id) id fun _ => id)) (Nat.le_refl _) rfl rfl h.placed

theorem withWork (h : w.Scheduled) {x : Work α} (placed : x.Placed task) : (w.withWork task x).Scheduled := by
  have watchers := fun i => w.withWork_watchers task i x
  refine h.of_eq (fun _ => rfl) (fun i => w.withWork_standing task i x) watchers (fun i ticket here => ?_)
    (Nat.le_refl _) rfl (w.change_size task _) fun i y here => ?_
  · exact .inl (here.mono (fun _ => id) id fun j here => watchers j ▸ here)
  · rw [withWork_work] at here
    split at here
    · rename_i same
      obtain ⟨_, _, rfl⟩ := Option.map_eq_some_iff.mp here
      exact same ▸ placed
    · exact h.placed i y here

theorem unschedule (h : w.Scheduled) (task : Nat) : (w.unschedule task).Scheduled :=
  h.of_eq (fun _ => rfl) (fun _ => rfl) (fun _ => rfl)
    (fun _ _ here => .inl (here.mono (fun _ here => (List.mem_filter.mp here).1) id fun _ => id))
    (Nat.le_refl _) rfl rfl h.placed

/-- A ticket of a task that is not woken will be released by a timer. -/
theorem schedule (h : w.Scheduled) (unwoken : w.Unwoken task) (issued : ticket < w.tickets) (length : Span) :
    (w.schedule task ticket length).Scheduled := by
  cases length with
  | forever => exact h
  | ms r =>
      refine h.of_eq (fun _ => rfl) (fun _ => rfl) (fun _ => rfl) (fun i ticket' here => ?_) (Nat.le_refl _) rfl
        rfl h.placed
      cases here with
      | timer here =>
          rcases (mem_insertTimer _ _ _).mp here with new | old
          · cases new
            exact .inr ⟨unwoken, issued⟩
          · exact .inl (.timer old)
      | due here => exact .inl (.due here)
      | watcher here => exact .inl (.watcher here)

/-- A task that stands in line for no turn, and is neither over nor woken, is put in line. -/
theorem line (h : w.Scheduled) (free : w.turns task = 0) (alive : w.standing? task ≠ some .over)
    (here : w.standing? task ≠ none) (unwoken : w.Unwoken task) {s : Standing} (room : s.room = 1) :
    ((w.stand task s).later (.turn task)).Scheduled := by
  have standing : ∀ i, ((w.stand task s).later (.turn task)).standing? i =
      if task = i then (w.standing? i).map fun _ => s else w.standing? i := fun i => w.stand_standing task i s
  have watchers : ∀ i, ((w.stand task s).later (.turn task)).watchersOf i = w.watchersOf i := fun i =>
    w.stand_watchers task i s
  refine h.frame (fun i => ?_) (fun i ticket refers => .inl ?_) (Nat.le_refl _) (fun i => .inl (watchers i))
    (fun s' found fixed => ?_) rfl (Nat.le_of_eq (w.change_size task _).symm) fun i x found => ?_
  · have turns : (w.stand task s).turns i = w.turns i := rfl
    rw [later_turns, turns, World.room, standing]
    by_cases same : task = i
    · subst same
      obtain ⟨old, found⟩ := Option.ne_none_iff_exists'.mp here
      simp [free, found, room, Due.isTurn]
    · have other : (Due.turn task).isTurn i = false := beq_eq_false_iff_ne.mpr same
      rw [if_neg same, other]
      exact h.turns i
  · refine refers.mono (fun _ => id) (Or.imp_right fun due => ?_) fun j here => watchers j ▸ here
    exact (List.mem_cons.mp due).resolve_left nofun
  · rw [standing, if_neg fun same => ?_, found]
    subst same
    rcases fixed with rfl | woken
    · exact alive found
    · exact woken unwoken
  · exact h.placed i x ((w.stand_work task i s).symm.trans found)

/-- A new task stands in line for its first turn. It is watched by at most one ticket. -/
theorem spawn (h : w.Scheduled) {x : Work α} (placed : x.Placed w.tasks.size) {watchers : List Watcher}
    (own : watchers = [] ∨ ∃ i ticket, watchers = [.release i ticket] ∧ w.Unwoken i ∧ ticket < w.tickets) :
    (w.spawn x watchers).2.Scheduled := by
  have standing := fun i => w.spawn_standing i x watchers
  have watched := fun i => w.spawn_watchers i x watchers
  refine h.frame (fun i => ?_) (fun i ticket refers => ?_) (Nat.le_refl _) (fun i => ?_) (fun s found _ => ?_)
    rfl ?_ fun i y found => ?_
  · have turns : (w.spawn x watchers).2.turns i = (w.later (.turn w.tasks.size)).turns i := rfl
    rw [turns, later_turns, room, standing]
    by_cases last : i = w.tasks.size
    · have none : w.turns w.tasks.size = 0 := Nat.le_zero.mp (w.room_size ▸ h.turns w.tasks.size)
      subst last
      simp [none, Due.isTurn, Standing.room]
    · have other : (Due.turn w.tasks.size).isTurn i = false := beq_eq_false_iff_ne.mpr (Ne.symm last)
      rw [if_neg last, other]
      exact h.turns i
  · cases refers with
    | timer here => exact .inl (.timer here)
    | due here =>
        rcases here with here | here
        · exact .inl (.due (.inl here))
        · exact .inl (.due (.inr ((List.mem_cons.mp here).resolve_left nofun)))
    | @watcher j here =>
        rw [watched] at here
        split at here
        · rcases own with rfl | ⟨i', ticket', rfl, unwoken, issued⟩
          · cases here
          · cases List.mem_singleton.mp here
            exact .inr ⟨unwoken, issued⟩
        · exact .inl (.watcher here)
  · rw [watched]
    split
    · rcases own with rfl | ⟨i', ticket', rfl, _⟩
      · exact .inr (.inl rfl)
      · exact .inr (.inr ⟨i', ticket', rfl⟩)
    · exact .inl rfl
  · rw [standing, if_neg (Nat.ne_of_lt h.inhabited), found]
  · show w.tasks.size ≤ (w.tasks.push _).size
    rw [Array.size_push]
    exact Nat.le_succ _
  · rcases spawn_old found with ⟨rfl, rfl⟩ | old
    · exact placed
    · exact h.placed i y old

/-- A task that has its turn is parked. Nothing refers to its ticket yet. -/
theorem park (h : w.Scheduled) (free : w.turns task = 0) (queued : w.standing? task = some .queued) :
    (w.park task).2.Scheduled := by
  have standing := w.park_standing task
  have watchers := w.park_watchers task
  have unwoken := h.unwoken_of_queued queued
  refine h.frame (fun i => ?_) (fun i ticket refers => .inl ?_) (Nat.le_succ _) (fun i => .inl (watchers i))
    (fun s found fixed => ?_) rfl (Nat.le_of_eq (change_size _ task _).symm) fun i x found => ?_
  · have turns : (w.park task).2.turns i = w.turns i := rfl
    rw [turns, room, standing]
    split
    · rename_i same
      rw [← same, free]
      exact Nat.zero_le _
    · exact h.turns i
  · exact refers.mono (fun _ => id) id fun j here => watchers j ▸ here
  · rw [standing, if_neg fun same => ?_, found]
    subst same
    rcases fixed with rfl | woken
    · rw [queued] at found
      cases found
    · exact woken unwoken
  · exact h.placed i x (((w.park_quiet task).work i).symm.trans found)

/-- The release of a ticket watches a task. -/
theorem watch (h : w.Scheduled) (unwoken : w.Unwoken task) (issued : ticket < w.tickets) (i : Nat) :
    (w.watch i [.release task ticket]).Scheduled := by
  have standing := fun j => w.watch_standing i j [.release task ticket]
  have watched := fun j => w.watch_watchers i j [.release task ticket]
  refine h.frame (fun j => ?_) (fun j ticket' refers => ?_) (Nat.le_refl _) (fun j => ?_)
    (fun s found _ => (standing 0).trans found) rfl (Nat.le_of_eq (w.change_size i _).symm) fun j x found => ?_
  · have turns : (w.watch i [.release task ticket]).turns j = w.turns j := rfl
    rw [turns, room, standing]
    exact h.turns j
  · cases refers with
    | timer here => exact .inl (.timer here)
    | due here => exact .inl (.due here)
    | @watcher k here =>
        rw [watched] at here
        split at here
        · cases found : w.tasks[k]? with
          | none =>
              rw [found] at here
              cases here
          | some t =>
              rw [found] at here
              cases List.mem_singleton.mp here
              exact .inr ⟨unwoken, issued⟩
        · exact .inl (.watcher here)
  · rw [watched]
    split
    · cases w.tasks[j]? with
      | none => exact .inr (.inl rfl)
      | some t => exact .inr (.inr ⟨task, ticket, rfl⟩)
    · exact .inl rfl
  · exact h.placed j x (((w.watch_quiet i _).work j).symm.trans found)

/-- A task other than the caller is cancelled. -/
theorem cancel (h : w.Scheduled) (other : task ≠ 0) : (w.cancel task).Scheduled := by
  unfold World.cancel
  cases found : w.tasks[task]? with
  | none => exact h
  | some t =>
      have here : w.standing? task = some t.standing := by rw [standing?, found]; rfl
      have flagged : (w.change task fun t => { t with cancelled := true }).Scheduled := by
        have watchers : ∀ i, (w.change task fun t => { t with cancelled := true }).watchersOf i = w.watchersOf i :=
          fun i => w.change_watchers task i fun _ => rfl
        refine h.of_eq (fun _ => rfl) (fun i => w.change_standing task i fun _ => rfl) watchers
          (fun i ticket refers => .inl (refers.mono (fun _ => id) id fun j here => watchers j ▸ here)) (Nat.le_refl _)
          rfl (w.change_size task _) fun i x here => ?_
        have work := (w.change_quiet task (f := fun t => { t with cancelled := true }) (fun _ => rfl)
          fun _ same => same).work i
        exact h.placed i x (work.symm.trans here)
      cases standing : t.standing with
      | «over» => simpa only [standing] using h
      | parked ticket =>
          have free : w.turns task = 0 := Nat.le_zero.mp (by
            have turns := h.turns task
            rwa [room, here, standing] at turns)
          have lined := h.line free (by rw [here, standing]; exact nofun) (by rw [here]; exact nofun)
            (h.unwoken_of_ne other) (s := .interrupted) rfl
          simp only [standing]
          exact lined.unschedule task
      | _ => simpa only [standing] using flagged

/-- A task that has its turn stands in line again, or is at work without a pause. -/
theorem requeue (h : w.Scheduled) (free : w.turns task = 0) (queued : w.standing? task = some .queued) :
    ((w.stand task .queued).later (.turn task)).Scheduled := by
  refine h.line free ?_ ?_ (h.unwoken_of_queued queued) rfl
  · rw [queued]
    exact nofun
  · rw [queued]
    exact nofun

theorem busy (h : w.Scheduled) (free : w.turns task = 0) (queued : w.standing? task = some .queued) :
    { w with busy? := some task }.Scheduled := by
  refine h.frame (fun i => ?_) (fun _ _ here => .inl (here.mono (fun _ => id) id fun _ => id)) (Nat.le_refl _)
    (fun _ => .inl rfl) (fun _ found _ => found) rfl (Nat.le_refl _) h.placed
  have turns : { w with busy? := some task }.turns i = (if some task = some i then 1 else 0) +
    (w.round.countP (·.isTurn i) + w.next.countP (·.isTurn i)) := rfl
  have most := h.turns i
  unfold World.turns at free most
  have kept : { w with busy? := some task }.room i = w.room i := rfl
  rw [turns, kept]
  by_cases same : task = i
  · subst same
    have room : w.room task = 1 := by rw [World.room, queued]; rfl
    rw [room, if_pos rfl]
    omega
  · rw [if_neg fun same' => same (Option.some.inj same')]
    omega

theorem sleep (h : w.Scheduled) (free : w.turns task = 0) (queued : w.standing? task = some .queued)
    (length : Span) : (w.sleep task length).Scheduled := by
  have parked := h.park free queued
  have unwoken : (w.park task).2.Unwoken task := fun i here =>
    h.unwoken_of_queued queued i (w.park_watchers task i ▸ here)
  have sleeps : ((w.park task).2.schedule task w.tickets length).Scheduled :=
    parked.schedule unwoken (Nat.lt_succ_self _) length
  unfold World.sleep
  cases length with
  | forever => exact sleeps
  | ms r =>
      simp only
      split
      · exact h.requeue free queued
      · exact sleeps

/-- A task that has its turn is over. What is due then are releases of tickets that were referred to
before. -/
theorem ceases (h : w.Scheduled) (free : w.turns task = 0) (queued : w.standing? task = some .queued)
    (turns : ∀ i, w'.turns i = w.turns i) (tasks : w'.tasks = (w.ceased task).tasks)
    (refers : ∀ i ticket, w'.Refers i ticket → w.Refers i ticket) (tickets : w'.tickets = w.tickets)
    (phase : w'.phase = w.phase) : w'.Scheduled := by
  have standing : ∀ i, w'.standing? i = (w.ceased task).standing? i := fun i => by rw [standing?, tasks]; rfl
  have watchers : ∀ i, w'.watchersOf i = (w.ceased task).watchersOf i := fun i => by rw [watchersOf, tasks]; rfl
  have work : ∀ i, w'.work? i = w.work? i := fun i => by
    rw [← w.ceased_work task, World.work?, tasks]
    rfl
  refine h.frame (fun i => ?_) (fun i ticket here => .inl (refers i ticket here)) (Nat.le_of_eq tickets.symm)
    (fun i => ?_) (fun s here fixed => ?_) phase ?_ fun i x here => h.placed i x ((work i).symm.trans here)
  · rw [turns, room, standing, ceased_standing]
    split
    · rename_i same
      rw [← same, free]
      exact Nat.zero_le _
    · exact h.turns i
  · rw [watchers, ceased_watchers]
    split
    · exact .inr (.inl rfl)
    · exact .inl rfl
  · rw [standing, ceased_standing, if_neg fun same => ?_, here]
    subst same
    cases queued.symm.trans here
    rcases fixed with other | woken
    · cases other
    · exact woken (h.unwoken_of_queued queued)
  · rw [tasks]
    exact Nat.le_of_eq (w.change_size task _).symm

/-- A task that has its turn is over; who watches it is told. -/
theorem finish (h : w.Scheduled) (free : w.turns task = 0) (queued : w.standing? task = some .queued) :
    (w.finish task).Scheduled := by
  obtain ⟨t, found, _⟩ := Option.map_eq_some_iff.mp queued
  have watched : w.watchersOf task = t.watchers := by rw [watchersOf, found]; rfl
  have fewer : ∀ i, ∀ watcher ∈ (w.ceased task).watchersOf i, watcher ∈ w.watchersOf i := by
    intro i watcher here
    rw [ceased_watchers] at here
    split at here
    · cases here
    · exact here
  have refers : ∀ i ticket, (w.ceased task).Refers i ticket → w.Refers i ticket := fun i ticket here =>
    here.mono (fun _ => id) id fun j here => fewer j _ here
  have ceased : (w.ceased task).Scheduled := h.ceases free queued (fun _ => rfl) rfl refers rfl rfl
  have single : t.watchers.length ≤ 1 := watched ▸ h.single task
  rw [finish_eq w task found]
  rcases few : t.watchers with _ | ⟨watcher, rest⟩
  · exact ceased
  · rw [few, List.length_cons, Nat.succ_le_succ_iff, Nat.le_zero, List.length_eq_zero_iff] at single
    subst single
    have here : watcher ∈ w.watchersOf task := watched ▸ few ▸ List.mem_cons_self
    cases watcher with
    | release i ticket =>
        refine h.ceases free queued (fun j => later_turns _ j _) rfl (fun j ticket' told => ?_) rfl rfl
        cases told with
        | timer told => exact refers j ticket' (.timer told)
        | watcher told => exact refers j ticket' (.watcher told)
        | due told =>
            rcases told with told | told
            · exact .due (.inl told)
            · rcases List.mem_cons.mp told with new | old
              · cases new
                exact .watcher here
              · exact .due (.inr old)
    | wake i =>
        obtain ⟨rfl, ⟨ticket, parked, _⟩, unique⟩ := h.wakes task i here
        have other : task ≠ 0 := fun same => by
          subst same
          cases queued.symm.trans parked
        have parked : (w.ceased task).standing? 0 = some (.parked ticket) := by
          rw [ceased_standing, if_neg other, parked]
        have free : (w.ceased task).turns 0 = 0 := Nat.le_zero.mp (by
          have most := ceased.turns 0
          rwa [room, parked] at most)
        refine ceased.line free (by rw [parked]; exact nofun) (by rw [parked]; exact nofun) (fun j wakes => ?_) rfl
        have same := unique j (fewer j _ wakes)
        rw [ceased_watchers, if_pos same.symm] at wakes
        cases wakes

/-- A caller that has its turn joins a task. -/
theorem join (h : w.Scheduled) (free : w.turns 0 = 0) (queued : w.standing? 0 = some .queued) (i : Nat) :
    ((w.park 0).2.watch i [.wake 0]).Scheduled := by
  have parked := h.park free queued
  have unwoken : ∀ j k, .wake k ∉ (w.park 0).2.watchersOf j := by
    intro j k here
    rw [park_watchers] at here
    obtain ⟨_, ⟨ticket, parked, _⟩, _⟩ := h.wakes j k here
    cases queued.symm.trans parked
  have watched := fun j => (w.park 0).2.watch_watchers i j [.wake 0]
  have standing := fun j => (w.park 0).2.watch_standing i j [.wake 0]
  have released : ∀ j k ticket, .release k ticket ∈ ((w.park 0).2.watch i [.wake 0]).watchersOf j →
      .release k ticket ∈ (w.park 0).2.watchersOf j := by
    intro j k ticket here
    rw [watched] at here
    split at here
    · cases found : (w.park 0).2.tasks[j]? with
      | none =>
          rw [found] at here
          cases here
      | some t =>
          rw [found] at here
          cases List.mem_singleton.mp here
    · exact here
  have wakes : ∀ j k, .wake k ∈ ((w.park 0).2.watch i [.wake 0]).watchersOf j → j = i ∧ k = 0 := by
    intro j k here
    rw [watched] at here
    split at here
    · rename_i same
      cases found : (w.park 0).2.tasks[j]? with
      | none =>
          rw [found] at here
          cases here
      | some t =>
          rw [found] at here
          cases List.mem_singleton.mp here
          exact ⟨same.symm, rfl⟩
    · exact absurd here (unwoken j k)
  have refers : ∀ k ticket, ((w.park 0).2.watch i [.wake 0]).Refers k ticket → w.Refers k ticket := by
    intro k ticket here
    exact here.mono (fun _ => id) id fun j here => w.park_watchers 0 j ▸ released j k ticket here
  refine ⟨fun j => ?_, fun k ticket here => ?_, fun j => ?_, fun j k here => ?_, fun j x here => ?_,
    fun off => ?_, ?_⟩
  · rw [room, standing]
    exact parked.turns j
  · exact Nat.lt_succ_of_lt (h.issued k ticket (refers k ticket here))
  · rw [watched]
    split
    · cases (w.park 0).2.tasks[j]? with
      | none => exact Nat.zero_le 1
      | some t => exact Nat.le_refl 1
    · exact parked.single j
  · obtain ⟨rfl, rfl⟩ := wakes j k here
    refine ⟨rfl, ⟨w.tickets, ?_, fun here => ?_⟩, fun j' here => (wakes j' 0 here).1⟩
    · rw [standing, park_standing, if_pos rfl, queued]
      rfl
    · exact Nat.lt_irrefl _ (h.issued 0 w.tickets (refers 0 w.tickets here))
  · exact parked.placed j x (((watch_quiet _ i _).work j).symm.trans here)
  · rw [standing]
    exact parked.last off
  · rw [show ((w.park 0).2.watch i [.wake 0]).tasks.size = _ from change_size _ i _]
    exact parked.inhabited

end Scheduled

end World

end BlockGraph
