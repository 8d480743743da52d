import BlockGraph.Proofs.Rounds
/-!
Lenses: ways to see worlds. A lens changes what a session looks like, what tasks work at and what was
replied; the scheduler looks at none of these, so that it does the same under any lens.
-/
namespace BlockGraph

structure Lens (α : Type) where
  session : Session → Session
  work : Work α → Work α
  replies : Array (Reply α) → Array (Reply α)

namespace World

variable {α : Type}

/-- The task whose turn comes with the next step, and the world in which it comes. -/
def upNext (w : World α) : Option (World α × Nat) :=
  match w.busy? with
  | some task => some ({ w with busy? := none }, task)
  | none => match w.round with
    | .turn task :: rest => some ({ w with round := rest }, task)
    | _ => none

/-- A step in which no task has its turn. -/
def ticks (w : World α) : Option (World α) :=
  match w.round with
  | .release task ticket :: rest => some ({ w with round := rest }.due (.release task ticket))
  | _ => w.idles

/-- A step gives the next task its turn, if there is one. -/
theorem step_upNext (w : World α) :
    w.step = w.upNext.elim w.ticks fun up => some (up.1.turn up.2) := by
  unfold upNext ticks
  cases busy : w.busy? with
  | some task => exact w.step_busy busy
  | none =>
      cases round : w.round with
      | nil => exact w.step_idles busy round
      | cons d rest =>
          rw [w.step_due busy round]
          cases d <;> (simp only [busy]; rfl)

theorem upNext_quiet {w w₁ : World α} {task : Nat} (up : w.upNext = some (w₁, task)) : Quiet w w₁ := by
  unfold upNext at up
  split at up
  · cases up
    exact { Quiet.refl w with }
  · split at up
    · cases up
      exact { Quiet.refl w with }
    · cases up

theorem ticks_quiet {w w' : World α} (ticks : w.ticks = some w') : Quiet w w' := by
  unfold World.ticks at ticks
  split at ticks
  · rename_i task ticket rest _
    cases ticks
    have quiet : Quiet w { w with round := rest } := { Quiet.refl w with }
    exact quiet.trans (release_quiet _ task ticket)
  · exact idles_quiet ticks

end World

namespace Lens

variable {α : Type} (v : Lens α)

def task (t : Task α) : Task α := { t with work := v.work t.work }

def world (w : World α) : World α :=
  { w with
    session := v.session w.session
    tasks := w.tasks.map v.task
    replies := v.replies w.replies }

variable (w : World α) (i : Nat)

theorem tasks : (v.world w).tasks[i]? = (w.tasks[i]?).map v.task := Array.getElem?_map

theorem size : (v.world w).tasks.size = w.tasks.size := Array.size_map

theorem work? : (v.world w).work? i = (w.work? i).map v.work := by
  unfold World.work?
  rw [tasks]
  cases w.tasks[i]? <;> rfl

theorem later (d : Due) : (v.world w).later d = v.world (w.later d) := rfl

theorem withSession (s : Session) :
    (v.world w).withSession (v.session s) = v.world (w.withSession s) := rfl

variable {v} in
theorem change {f f' : Task α → Task α} (same : ∀ t, f' (v.task t) = v.task (f t)) :
    (v.world w).change i f' = v.world (w.change i f) := by
  have tasks : (w.tasks.map v.task).modify i f' = (w.tasks.modify i f).map v.task := by
    refine Array.ext_getElem? fun j => ?_
    rw [Array.getElem?_modify, Array.getElem?_map, Array.getElem?_map, Array.getElem?_modify]
    split
    · cases w.tasks[j]? with
      | none => rfl
      | some t => exact congrArg some (same t)
    · rfl
  exact congrArg (fun tasks => { v.world w with tasks }) tasks

theorem withWork (x : Work α) : (v.world w).withWork i (v.work x) = v.world (w.withWork i x) :=
  change w i fun _ => rfl

theorem stand (standing : Standing) : (v.world w).stand i standing = v.world (w.stand i standing) :=
  change w i fun _ => rfl

theorem watch (watchers : List Watcher) :
    (v.world w).watch i watchers = v.world (w.watch i watchers) :=
  change w i fun _ => rfl

theorem atTurn : (v.world w).atTurn i = v.world (w.atTurn i) := change w i fun _ => rfl

theorem spawn (x : Work α) (watchers : List Watcher) :
    (v.world w).spawn (v.work x) watchers = ((w.spawn x watchers).1, v.world (w.spawn x watchers).2) := by
  have tasks : (w.tasks.map v.task).push ⟨v.work x, .queued, false, watchers⟩ =
      (w.tasks.push ⟨x, .queued, false, watchers⟩).map v.task := by
    rw [Array.map_push]
    rfl
  unfold World.spawn
  rw [size]
  exact congrArg (fun tasks => (w.tasks.size, World.later { v.world w with tasks } _)) tasks

theorem park : (v.world w).park i = ((w.park i).1, v.world (w.park i).2) :=
  congrArg (Prod.mk _) (v.stand { w with tickets := w.tickets + 1 } i (.parked w.tickets))

theorem schedule (ticket : Nat) (length : Span) :
    (v.world w).schedule i ticket length = v.world (w.schedule i ticket length) := by
  cases length <;> rfl

theorem unschedule : (v.world w).unschedule i = v.world (w.unschedule i) := rfl

theorem sleep (length : Span) : (v.world w).sleep i length = v.world (w.sleep i length) := by
  have parked : ((v.world w).park i).2.schedule i ((v.world w).park i).1 length =
      v.world ((w.park i).2.schedule i (w.park i).1 length) := by
    rw [park, schedule]
  have queued : ((v.world w).stand i .queued).later (.turn i) =
      v.world ((w.stand i .queued).later (.turn i)) := by rw [stand, later]
  unfold World.sleep
  cases length with
  | forever => exact parked
  | ms r =>
      simp only
      split
      · exact queued
      · exact parked

theorem cancel : (v.world w).cancel i = v.world (w.cancel i) := by
  unfold World.cancel
  rw [tasks]
  cases w.tasks[i]? with
  | none => rfl
  | some t =>
      obtain ⟨work, standing, cancelled, watchers⟩ := t
      have marked : (v.world w).change i (fun t => { t with cancelled := true }) = _ :=
        change w i (f := fun t => { t with cancelled := true }) fun _ => rfl
      cases standing with
      | parked ticket =>
          show (((v.world w).stand i .interrupted).unschedule i).later (.turn i) = _
          rw [stand, unschedule, later]
      | «over» => rfl
      | _ => exact marked

theorem tell (watcher : Watcher) : (v.world w).tell watcher = v.world (w.tell watcher) := by
  cases watcher with
  | release task ticket => rfl
  | wake task =>
      show ((v.world w).stand task .released).later (.turn task) = _
      rw [stand, later]
      rfl

theorem finish : (v.world w).finish i = v.world (w.finish i) := by
  have told : ∀ (watchers : List Watcher) (w : World α),
      watchers.foldl World.tell (v.world w) = v.world (watchers.foldl World.tell w) := by
    intro watchers
    induction watchers with
    | nil => exact fun _ => rfl
    | cons watcher rest ih =>
        intro w
        rw [List.foldl_cons, List.foldl_cons, tell, ih]
  unfold World.finish
  rw [tasks]
  cases w.tasks[i]? with
  | none => rfl
  | some t =>
      have ceased : (v.world w).change i (fun t => { t with standing := .over, watchers := [] }) = _ :=
        change w i (f := fun t => { t with standing := .over, watchers := [] }) fun _ => rfl
      simp only [Option.map_some]
      rw [ceased, told]
      rfl

theorem isOver : (v.world w).isOver i = w.isOver i := by
  unfold World.isOver
  rw [tasks]
  cases w.tasks[i]? <;> rfl

theorem cancelAll : (v.world w).cancelAll = v.world w.cancelAll := by
  have cancelled : ∀ (tasks : List Nat) (w : World α),
      tasks.foldl (fun w i => w.cancel i) (v.world w) =
        v.world (tasks.foldl (fun w i => w.cancel i) w) := by
    intro tasks
    induction tasks with
    | nil => exact fun _ => rfl
    | cons i rest ih =>
        intro w
        rw [List.foldl_cons, List.foldl_cons, cancel, ih]
  unfold World.cancelAll
  rw [size]
  exact cancelled _ w

theorem nextRound : (v.world w).nextRound = w.nextRound.map v.world := by
  have next : (v.world w).next = w.next := rfl
  have timers : (v.world w).timers = w.timers := rfl
  unfold World.nextRound
  rw [next, timers]
  cases w.next <;> cases w.timers <;> rfl

theorem release (task ticket : Nat) :
    (v.world w).due (.release task ticket) = v.world (w.due (.release task ticket)) := by
  unfold World.due
  simp only
  rw [tasks]
  cases w.tasks[task]? with
  | none => rfl
  | some t =>
      have released : ((v.world w).stand task .released).later (.turn task) =
          v.world ((w.stand task .released).later (.turn task)) := by rw [stand, later]
      show (if t.standing = .parked ticket then _ else _) = _
      simp only
      split
      · exact released
      · rfl

theorem idles : (v.world w).idles = w.idles.map v.world := by
  have «over» : (v.world w).callerOver = w.callerOver := v.isOver w 0
  have last := v.nextRound { w with phase := .lastRound }
  have cancelled : some { (v.world w).cancelAll with phase := .draining } =
      (some { w.cancelAll with phase := .draining }).map v.world := by
    rw [cancelAll]
    rfl
  have phase : (v.world w).phase = w.phase := rfl
  unfold World.idles
  rw [«over», phase]
  cases w.phase with
  | live =>
      cases w.callerOver with
      | false => exact v.nextRound w
      | true =>
          show some ((if w.next.isEmpty then none else (v.world { w with phase := .lastRound }).nextRound).getD
            (v.world { w with phase := .lastRound })) = _
          rw [last]
          simp only [Option.map_some]
          cases w.next.isEmpty with
          | true => rfl
          | false => cases World.nextRound { w with phase := .lastRound } <;> rfl
  | lastRound => exact cancelled
  | draining => exact v.nextRound w

/-! ### Steps -/

theorem upNext : (v.world w).upNext = w.upNext.map fun up => (v.world up.1, up.2) := by
  obtain ⟨_, _, round, _, _, _, _, busy?, _, _, _⟩ := w
  cases busy? with
  | some task => rfl
  | none =>
      cases round with
      | nil => rfl
      | cons d rest => cases d <;> rfl

theorem ticks : (v.world w).ticks = w.ticks.map v.world := by
  unfold World.ticks
  show (match w.round with | .release task ticket :: rest => _ | _ => (v.world w).idles) = _
  cases round : w.round with
  | nil => exact v.idles w
  | cons d rest =>
      cases d with
      | turn task => exact v.idles w
      | release task ticket => exact congrArg some (v.release { w with round := rest } task ticket)

end Lens

end BlockGraph
