import BlockGraph.Proofs.Stage
/-!
The tasks of a world: what they work at, and what the moves of the scheduler leave alone. Waiting,
waking, timers and cancelling are quiet: no task comes to work at anything else. `Puts` is a turn in which
one task does.
-/
namespace BlockGraph

/-- The task that a traversal waits for. -/
def WalkMode.awaits? : WalkMode → Option Nat
  | .awaiting i | .abandoning i _ => some i
  | _ => none

namespace Work

variable {α : Type}

/-- Whether a task that works at this may be over: a traversal is over only at its end. -/
def Rests (x : Work α) : Prop := ∀ k, x = .walk k → ∃ e, k.mode = .over e

theorem attempt_rests (a : Attempt) : (attempt a : Work α).Rests := fun _ same => by cases same

/-- Whether a task is at work in a run, and not for a caller. -/
inductive Inner : Work α → Prop
  | walk (k : Walk) : Inner (.walk k)
  | attempt (a : Attempt) : Inner (.attempt a)

theorem caller_outer (c : Caller α) : ¬(caller c).Inner := fun h => by cases h

theorem runner_outer (m : RunnerMode) : ¬(runner m : Work α).Inner := fun h => by cases h

/-- The execution that a task waits for. -/
def pending? : Work α → Option Pending
  | .caller ⟨_, .executing p, _⟩ => some p
  | .runner (.pending p) => some p
  | _ => none

end Work

namespace World

variable {α : Type}

/-- What a task works at. -/
def work? (w : World α) (task : Nat) : Option (Work α) := (w.tasks[task]?).map (·.work)

/-- Whether a task is over, as far as the scheduler knows. -/
def hasEnded (w : World α) (task : Nat) : Bool := (w.tasks[task]?).any (·.standing == .over)

/-- The execution that a task waits for. -/
def pending? (w : World α) (task : Nat) : Option Pending := (w.work? task).bind Work.pending?

/-- A world in which no task has come to work at anything else. -/
structure Quiet (w w' : World α) : Prop where
  session : w'.session = w.session
  walk? : w'.walk? = w.walk?
  replies : w'.replies = w.replies
  work : ∀ i, w'.work? i = w.work? i
  ended : ∀ i, w'.hasEnded i = true → w.hasEnded i = true ∨ ∀ x, w.work? i = some x → x.Rests

namespace Quiet

theorem refl (w : World α) : Quiet w w := ⟨rfl, rfl, rfl, fun _ => rfl, fun _ => .inl⟩

theorem trans {w₁ w₂ w₃ : World α} (h : Quiet w₁ w₂) (h' : Quiet w₂ w₃) : Quiet w₁ w₃ where
  session := h'.session.trans h.session
  walk? := h'.walk?.trans h.walk?
  replies := h'.replies.trans h.replies
  work i := (h'.work i).trans (h.work i)
  ended := by
    intro i ceased
    rcases h'.ended i ceased with old | rests
    · exact h.ended i old
    · exact .inr fun x here => rests x ((h.work i).trans here)

theorem pending {w w' : World α} (h : Quiet w w') (i : Nat) : w'.pending? i = w.pending? i := by
  rw [World.pending?, World.pending?, h.work]

end Quiet

/-! ### Quiet moves -/

section Moves

variable (w : World α) (task : Nat)

theorem change_task (f : Task α → Task α) (i : Nat) :
    (w.change task f).tasks[i]? = if task = i then (w.tasks[i]?).map f else w.tasks[i]? :=
  Array.getElem?_modify

theorem change_quiet {f : Task α → Task α} (work : ∀ t, (f t).work = t.work)
    (standing : ∀ t, (f t).standing = .over → t.standing = .over) : Quiet w (w.change task f) := by
  refine ⟨rfl, rfl, rfl, fun i => ?_, fun i ceased => .inl ?_⟩
  · simp only [work?, change_task]
    split
    · simp only [Option.map_map, Function.comp_def, work]
    · rfl
  · simp only [hasEnded, change_task] at ceased ⊢
    split at ceased
    · cases found : w.tasks[i]? with
      | none => rw [found] at ceased; cases ceased
      | some t =>
          rw [found] at ceased
          have ceased : (f t).standing = .over := by simpa using ceased
          simpa using standing t ceased
    · exact ceased

theorem stand_quiet (standing : Standing) (alive : standing ≠ .over) :
    Quiet w (w.stand task standing) :=
  w.change_quiet task (fun _ => rfl) fun _ same => absurd same alive

theorem later_quiet (d : Due) : Quiet w (w.later d) := { Quiet.refl w with }

theorem watch_quiet (watchers : List Watcher) : Quiet w (w.watch task watchers) :=
  w.change_quiet task (fun _ => rfl) fun _ same => same

theorem park_quiet : Quiet w (w.park task).2 := by
  have numbered : Quiet w { w with tickets := w.tickets + 1 } := { Quiet.refl w with }
  exact numbered.trans (stand_quiet _ task (.parked w.tickets) nofun)

theorem schedule_quiet (ticket : Nat) (length : Span) : Quiet w (w.schedule task ticket length) := by
  unfold schedule
  split
  · exact .refl w
  · exact { Quiet.refl w with }

theorem unschedule_quiet : Quiet w (w.unschedule task) := { Quiet.refl w with }

theorem sleep_quiet (length : Span) : Quiet w (w.sleep task length) := by
  have parked : Quiet w ((w.park task).2.schedule task (w.park task).1 length) :=
    (w.park_quiet task).trans (schedule_quiet _ _ _ _)
  have queued : Quiet w ((w.stand task .queued).later (.turn task)) :=
    (w.stand_quiet task .queued nofun).trans (later_quiet _ _)
  unfold sleep
  cases length with
  | forever => exact parked
  | ms r =>
      simp only
      split
      · exact queued
      · exact parked

theorem cancel_quiet : Quiet w (w.cancel task) := by
  unfold cancel
  split
  · exact .refl w
  · split
    · exact .refl w
    · exact ((w.stand_quiet task .interrupted nofun).trans (unschedule_quiet _ _)).trans (later_quiet _ _)
    · exact w.change_quiet task (fun _ => rfl) fun _ same => same

theorem tell_quiet (watcher : Watcher) : Quiet w (w.tell watcher) := by
  cases watcher with
  | release task ticket => exact w.later_quiet _
  | wake task => exact (w.stand_quiet task .released nofun).trans (later_quiet _ _)

/-- A task may be over once what it works at rests. -/
theorem finish_quiet (rests : ∀ x, w.work? task = some x → x.Rests) : Quiet w (w.finish task) := by
  have told : ∀ (watchers : List Watcher) (w : World α), Quiet w (watchers.foldl tell w) := by
    intro watchers
    induction watchers with
    | nil => exact Quiet.refl
    | cons watcher rest ih => exact fun w => (w.tell_quiet watcher).trans (ih _)
  unfold finish
  split
  · exact .refl w
  · rename_i t found
    have ceased : Quiet w (w.change task fun t => { t with standing := .over, watchers := [] }) := by
      refine ⟨rfl, rfl, rfl, fun i => ?_, fun i ceased => ?_⟩
      · simp only [work?, change_task]
        split
        · simp only [Option.map_map, Function.comp_def]
        · rfl
      · by_cases same : task = i
        · exact .inr (same ▸ rests)
        · simp only [hasEnded, change_task, if_neg same] at ceased
          exact .inl ceased
    exact ceased.trans (told _ _)

theorem finish_session : (w.finish task).session = w.session := by
  have told : ∀ (watchers : List Watcher) (w : World α), (watchers.foldl tell w).session = w.session := by
    intro watchers
    induction watchers with
    | nil => exact fun _ => rfl
    | cons watcher rest ih => exact fun w => (ih _).trans (w.tell_quiet watcher).session
  unfold finish
  split
  · rfl
  · exact told _ _

theorem cancelAll_quiet : Quiet w w.cancelAll := by
  have cancelled : ∀ (tasks : List Nat) (w : World α), Quiet w (tasks.foldl (fun w i => w.cancel i) w) := by
    intro tasks
    induction tasks with
    | nil => exact Quiet.refl
    | cons i rest ih => exact fun w => (w.cancel_quiet i).trans (ih _)
  exact cancelled _ w

theorem nextRound_quiet {w' : World α} (h : w.nextRound = some w') : Quiet w w' := by
  unfold nextRound at h
  split at h
  · cases h
  · cases h
    exact { Quiet.refl w with }

end Moves

/-! ### Turns of one task -/

/-- A world in which one task has come to work at something and the session is another one. Tasks for
known block logic may be new in it, when it waits for them. -/
structure Puts (task : Nat) (x : Work α) (s : Session) (w w' : World α) : Prop where
  session : w'.session = s
  walk? : w'.walk? = w.walk?
  replies : w'.replies = w.replies
  here : w'.work? task = some x
  others : ∀ i, i ≠ task → w'.work? i = w.work? i ∨
    w.work? i = none ∧ ∃ a, w'.work? i = some (.attempt a) ∧ a.process.Known s ∧
      ∃ k, x = .walk k ∧ k.mode.awaits? = some i
  ended : ∀ i, w'.hasEnded i = true → w.hasEnded i = true ∨ ∀ y, w'.work? i = some y → y.Rests

theorem withWork_work (w : World α) (task : Nat) (x : Work α) (i : Nat) :
    (w.withWork task x).work? i = if task = i then (w.work? i).map fun _ => x else w.work? i := by
  simp only [work?, withWork, change_task]
  split
  · simp only [Option.map_map, Function.comp_def]
  · rfl

theorem withWork_hasEnded (w : World α) (task : Nat) (x : Work α) (i : Nat) :
    (w.withWork task x).hasEnded i = w.hasEnded i := by
  simp only [hasEnded, withWork, change_task]
  split
  · cases w.tasks[i]? <;> rfl
  · rfl

/-- A task that there is comes to work at something. -/
theorem withWork_puts {w : World α} {task : Nat} {y : Work α} (there : w.work? task = some y)
    (x : Work α) (s : Session) : Puts task x s w ((w.withSession s).withWork task x) where
  session := rfl
  walk? := rfl
  replies := rfl
  here := by
    rw [withWork_work, if_pos rfl]
    show (w.work? task).map _ = _
    rw [there]
    rfl
  others i other := .inl ((withWork_work _ _ _ _).trans (if_neg (Ne.symm other)))
  ended i ceased := .inl ((withWork_hasEnded _ _ _ _).symm.trans ceased)

namespace Puts

variable {task : Nat} {x : Work α} {s : Session} {w w' w'' : World α}

theorem quiet (h : Puts task x s w w') (q : Quiet w' w'') : Puts task x s w w'' where
  session := q.session.trans h.session
  walk? := q.walk?.trans h.walk?
  replies := q.replies.trans h.replies
  here := (q.work task).trans h.here
  others i other := by
    rw [q.work]
    exact h.others i other
  ended i ceased := by
    rw [q.work]
    rcases q.ended i ceased with old | rests
    · exact h.ended i old
    · exact .inr rests

/-- A task comes to its end. -/
theorem finish (h : Puts task x s w w') (rests : x.Rests) : Puts task x s w (w'.finish task) := by
  refine h.quiet (w'.finish_quiet task fun y here => ?_)
  rw [h.here] at here
  cases here
  exact rests

theorem still (h : Puts task x s w w') {i : Nat} {y : Work α} (other : i ≠ task)
    (old : w.work? i = some y) : w'.work? i = some y := by
  rcases h.others i other with same | ⟨none, _⟩
  · exact same.trans old
  · rw [none] at old
    cases old

/-- A turn within a run leaves the tasks of callers as they were. -/
theorem outer (h : Puts task x s w w') (inner : x.Inner) {i : Nat} {y : Work α}
    (here : w'.work? i = some y) : y.Inner ∨ w.work? i = some y := by
  by_cases turn : i = task
  · left
    rw [turn, h.here] at here
    exact Option.some.inj here ▸ inner
  · rcases h.others i turn with old | ⟨_, a, new, _⟩
    · exact .inr (old.symm.trans here)
    · left
      rw [new] at here
      exact Option.some.inj here ▸ .attempt a

theorem pending (h : Puts task x s w w') (inner : x.Inner) {i : Nat} {p : Pending}
    (here : w'.pending? i = some p) : w.pending? i = some p := by
  obtain ⟨y, work, waits⟩ := Option.bind_eq_some_iff.mp here
  rcases h.outer inner work with within | old
  · cases within <;> cases waits
  · exact Option.bind_eq_some_iff.mpr ⟨y, old, waits⟩

/-- A task that goes on with its work comes to the same work again. -/
theorem of_quiet (there : w.work? task = some x) (q : Quiet w w') : Puts task x w.session w w' where
  session := q.session
  walk? := q.walk?
  replies := q.replies
  here := (q.work task).trans there
  others i _ := .inl (q.work i)
  ended i ceased := (q.ended i ceased).imp_right fun rests y here => rests y ((q.work i).symm.trans here)

/-- A quiet move comes before. -/
theorem after (h : Puts task x s w' w'') (q : Quiet w w')
    (awake : w'.hasEnded task = true → w.hasEnded task = true) : Puts task x s w w'' where
  session := h.session
  walk? := h.walk?.trans q.walk?
  replies := h.replies.trans q.replies
  here := h.here
  others i other := by
    rw [← q.work]
    exact h.others i other
  ended i ceased := by
    rcases h.ended i ceased with old | rests
    · by_cases other : i = task
      · exact .inl (other ▸ awake (other ▸ old))
      · rcases q.ended i old with older | rests
        · exact .inl older
        · right
          intro y here
          rcases h.others i other with kept | ⟨_, a, new, _⟩
          · rw [kept, q.work] at here
            exact rests y here
          · rw [new] at here
            rw [← Option.some.inj here]
            exact Work.attempt_rests a
    · exact .inr rests

end Puts

/-! ### New tasks -/

theorem work_size (w : World α) : w.work? w.tasks.size = none := by
  simp only [work?, Array.getElem?_eq_none (Nat.le_refl _), Option.map_none]

theorem spawn_work (w : World α) (x : Work α) (watchers : List Watcher) (i : Nat) :
    (w.spawn x watchers).2.work? i = if i = w.tasks.size then some x else w.work? i := by
  simp only [spawn, later, work?, Array.getElem?_push]
  split <;> rfl

theorem spawn_old {w : World α} {x : Work α} {watchers : List Watcher} {i : Nat} {y : Work α}
    (here : (w.spawn x watchers).2.work? i = some y) :
    i = w.tasks.size ∧ y = x ∨ w.work? i = some y := by
  rw [spawn_work] at here
  split at here
  · exact .inl ⟨‹_›, (Option.some.inj here).symm⟩
  · exact .inr here

theorem spawn_kept {w : World α} {i : Nat} {y : Work α} (there : w.work? i = some y) (x : Work α)
    (watchers : List Watcher) : (w.spawn x watchers).2.work? i = some y := by
  rw [spawn_work, if_neg fun same => ?_, there]
  rw [same, work_size] at there
  cases there

theorem spawn_hasEnded (w : World α) (x : Work α) (watchers : List Watcher) (i : Nat)
    (ceased : (w.spawn x watchers).2.hasEnded i = true) : w.hasEnded i = true := by
  simp only [spawn, later, hasEnded, Array.getElem?_push] at ceased
  split at ceased
  · cases ceased
  · exact ceased

theorem stand_hasEnded (w : World α) (task : Nat) {standing : Standing} (alive : standing ≠ .over) :
    (w.stand task standing).hasEnded task = false := by
  simp only [hasEnded, stand, change_task, if_true]
  cases w.tasks[task]? with
  | none => rfl
  | some t => simpa using alive

theorem park_awake (w : World α) (task : Nat) : (w.park task).2.hasEnded task = false :=
  stand_hasEnded { w with tickets := w.tickets + 1 } task nofun

/-- A task comes to work at something beside a new task for known block logic. -/
theorem spawn_puts {w : World α} {task : Nat} {y : Work α} (there : w.work? task = some y)
    {k : Walk} (waits : k.mode.awaits? = some w.tasks.size) {a : Attempt}
    (known : a.process.Known w.session) (watchers : List Watcher) :
    Puts task (.walk k) w.session w ((w.spawn (.attempt a) watchers).2.withWork task (.walk k)) ∧
      ((w.spawn (.attempt a) watchers).2.withWork task (.walk k)).work? w.tasks.size = some (.attempt a) := by
  have other : task ≠ w.tasks.size := by
    intro same
    rw [same, work_size] at there
    cases there
  have there₁ := spawn_kept there (.attempt a) watchers
  have new : ((w.spawn (.attempt a) watchers).2.withWork task (.walk k)).work? w.tasks.size =
      some (.attempt a) := by
    rw [withWork_work, if_neg other, spawn_work, if_pos rfl]
  have put := withWork_puts there₁ (.walk k) w.session
  refine ⟨⟨rfl, rfl, rfl, put.here, fun i others => ?_, fun i ceased => .inl ?_⟩, new⟩
  · by_cases last : i = w.tasks.size
    · exact .inr ⟨last ▸ w.work_size, a, last ▸ new, known, k, rfl, last ▸ waits⟩
    · left
      rw [withWork_work, if_neg (Ne.symm others), spawn_work, if_neg last]
  · rw [withWork_hasEnded] at ceased
    exact w.spawn_hasEnded _ _ i ceased

/-- A traversal comes to wait for logic in a new task. -/
theorem walkWait_puts {w : World α} {task : Nat} {y : Work α} (there : w.work? task = some y)
    (t : Traversal) {p : Process} (known : p.Known w.session) :
    ∃ i, Puts task (.walk ⟨t, .awaiting i⟩) w.session w (w.walkWait task t p) ∧
      (w.walkWait task t p).work? i = some (.attempt (.ofProcess p)) := by
  have parked := w.park_quiet task
  have awake := w.park_awake task
  generalize split : w.park task = w₁ at parked awake
  have there₁ : w₁.2.work? task = some y := (parked.work task).trans there
  have known₁ : (Attempt.ofProcess p).process.Known w₁.2.session := parked.session ▸ known
  obtain ⟨put, new⟩ := spawn_puts there₁ (k := ⟨t, .awaiting w₁.2.tasks.size⟩) rfl known₁
    [.release task w₁.1]
  obtain ⟨length, waits⟩ : ∃ length, w.walkWait task t p =
      ((w₁.2.spawn (.attempt (.ofProcess p)) [.release task w₁.1]).2.withWork task
        (.walk ⟨t, .awaiting w₁.2.tasks.size⟩)).schedule task w₁.1 length := by
    rw [← split]
    exact ⟨_, rfl⟩
  rw [waits]
  generalize (w₁.2.spawn (.attempt (.ofProcess p)) [.release task w₁.1]).2.withWork task
    (.walk ⟨t, .awaiting w₁.2.tasks.size⟩) = w₂ at put new
  have patient := w₂.schedule_quiet task w₁.1 length
  have asleep : w₁.2.hasEnded task = true → w.hasEnded task = true := by
    rw [awake]
    exact nofun
  exact ⟨_, parked.session ▸ (put.quiet patient).after parked asleep, (patient.work _).trans new⟩

end World

end BlockGraph
