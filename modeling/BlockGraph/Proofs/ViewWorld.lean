import BlockGraph.Proofs.ViewStages
import BlockGraph.Proofs.Walks
/-!
Worlds under a view: the moves of the scheduler, and the turns of the tasks at work in a run, come to
what they come to without it. What a caller does to the session is done by something else under the view,
which is given.
-/
namespace BlockGraph
namespace View

variable {α : Type} (v : View) (hush : (Session → α × Session) → Session → α × Session)

def request (r : Request) : Request := { r with listener := v.listener r.listener }

def execution (e : Execution) : Execution := { e with session := v.session e.session }

def reply : Reply α → Reply α
  | .executed e => .executed (v.execution e)
  | r => r

def command : Command α → Command α
  | .act f => .act (hush f)
  | .execute r => .execute (v.request r)
  | .start r => .start (v.request r)
  | x => x

def caller (c : Caller α) : Caller α := { c with commands := c.commands.map (v.command hush) }

def runner : RunnerMode → RunnerMode
  | .fresh r => .fresh (v.request r)
  | .pending p => .pending p
  | .over e => .over (v.execution e)

def walkMode : WalkMode → WalkMode
  | .closing p insists? e => .closing (v.process p) insists? e
  | mode => mode

def walk (k : Walk) : Walk := ⟨v.traversal k.traversal, v.walkMode k.mode⟩

def work : Work α → Work α
  | .caller c => .caller (v.caller hush c)
  | .runner m => .runner (v.runner m)
  | .walk k => .walk (v.walk k)
  | .attempt a => .attempt (v.attempt a)

def task (t : Task α) : Task α := { t with work := v.work hush t.work }

def world (w : World α) : World α :=
  { w with
    session := v.session w.session
    tasks := w.tasks.map (v.task hush)
    replies := w.replies.map v.reply }

/-! ### The scheduler -/

section Scheduler

variable (w : World α) (i : Nat)

theorem world_task : (v.world hush w).tasks[i]? = (w.tasks[i]?).map (v.task hush) := Array.getElem?_map

theorem world_later (d : Due) : (v.world hush w).later d = v.world hush (w.later d) := rfl

variable {v hush} in
theorem world_change {f f' : Task α → Task α} (same : ∀ t, f' (v.task hush t) = v.task hush (f t)) :
    (v.world hush w).change i f' = v.world hush (w.change i f) := by
  have tasks : (w.tasks.map (v.task hush)).modify i f' = (w.tasks.modify i f).map (v.task hush) := by
    refine Array.ext_getElem? fun j => ?_
    rw [Array.getElem?_modify, Array.getElem?_map, Array.getElem?_map, Array.getElem?_modify]
    split
    · cases w.tasks[j]? with
      | none => rfl
      | some t => exact congrArg some (same t)
    · rfl
  exact congrArg (fun tasks => { v.world hush w with tasks }) tasks

theorem world_withWork (x : Work α) :
    (v.world hush w).withWork i (v.work hush x) = v.world hush (w.withWork i x) :=
  world_change w i fun _ => rfl

theorem world_stand (standing : Standing) :
    (v.world hush w).stand i standing = v.world hush (w.stand i standing) :=
  world_change w i fun _ => rfl

theorem world_watch (watchers : List Watcher) :
    (v.world hush w).watch i watchers = v.world hush (w.watch i watchers) :=
  world_change w i fun _ => rfl

theorem world_spawn (x : Work α) (watchers : List Watcher) :
    (v.world hush w).spawn (v.work hush x) watchers =
      ((w.spawn x watchers).1, v.world hush (w.spawn x watchers).2) := by
  have tasks : (w.tasks.map (v.task hush)).push ⟨v.work hush x, .queued, false, watchers⟩ =
      (w.tasks.push ⟨x, .queued, false, watchers⟩).map (v.task hush) := by
    rw [Array.map_push]
    rfl
  have size : (v.world hush w).tasks.size = w.tasks.size := Array.size_map
  unfold World.spawn
  rw [size]
  exact congrArg (fun tasks => (w.tasks.size, World.later { v.world hush w with tasks } _)) tasks

theorem world_park :
    (v.world hush w).park i = ((w.park i).1, v.world hush (w.park i).2) :=
  congrArg (Prod.mk _) (world_stand v hush { w with tickets := w.tickets + 1 } i (.parked w.tickets))

theorem world_schedule (ticket : Nat) (length : Span) :
    (v.world hush w).schedule i ticket length = v.world hush (w.schedule i ticket length) := by
  cases length <;> rfl

theorem world_unschedule : (v.world hush w).unschedule i = v.world hush (w.unschedule i) := rfl

theorem world_sleep (length : Span) :
    (v.world hush w).sleep i length = v.world hush (w.sleep i length) := by
  have parked : ((v.world hush w).park i).2.schedule i ((v.world hush w).park i).1 length =
      v.world hush ((w.park i).2.schedule i (w.park i).1 length) := by
    rw [world_park, world_schedule]
  have queued : ((v.world hush w).stand i .queued).later (.turn i) =
      v.world hush ((w.stand i .queued).later (.turn i)) := by rw [world_stand, world_later]
  unfold World.sleep
  cases length with
  | forever => exact parked
  | ms r =>
      simp only
      split
      · exact queued
      · exact parked

theorem world_cancel : (v.world hush w).cancel i = v.world hush (w.cancel i) := by
  unfold World.cancel
  rw [world_task]
  cases w.tasks[i]? with
  | none => rfl
  | some t =>
      obtain ⟨work, standing, cancelled, watchers⟩ := t
      have marked : (v.world hush w).change i (fun t => { t with cancelled := true }) = _ :=
        world_change w i (f := fun t => { t with cancelled := true }) fun _ => rfl
      cases standing with
      | parked ticket =>
          show (((v.world hush w).stand i .interrupted).unschedule i).later (.turn i) = _
          rw [world_stand, world_unschedule, world_later]
      | «over» => rfl
      | _ => exact marked

theorem world_tell (watcher : Watcher) :
    (v.world hush w).tell watcher = v.world hush (w.tell watcher) := by
  cases watcher with
  | release task ticket => rfl
  | wake task =>
      show ((v.world hush w).stand task .released).later (.turn task) = _
      rw [world_stand, world_later]
      rfl

theorem world_finish : (v.world hush w).finish i = v.world hush (w.finish i) := by
  have told : ∀ (watchers : List Watcher) (w : World α),
      watchers.foldl World.tell (v.world hush w) = v.world hush (watchers.foldl World.tell w) := by
    intro watchers
    induction watchers with
    | nil => exact fun _ => rfl
    | cons watcher rest ih =>
        intro w
        rw [List.foldl_cons, List.foldl_cons, world_tell, ih]
  unfold World.finish
  rw [world_task]
  cases w.tasks[i]? with
  | none => rfl
  | some t =>
      have ceased : (v.world hush w).change i (fun t => { t with standing := .over, watchers := [] }) = _ :=
        world_change w i (f := fun t => { t with standing := .over, watchers := [] }) fun _ => rfl
      simp only [Option.map_some]
      rw [ceased, told]
      rfl

theorem world_isOver : (v.world hush w).isOver i = w.isOver i := by
  unfold World.isOver
  rw [world_task]
  cases w.tasks[i]? <;> rfl

theorem world_attempt? : (v.world hush w).attempt? i = (w.attempt? i).map v.attempt := by
  unfold World.attempt?
  rw [world_task]
  cases w.tasks[i]? with
  | none => rfl
  | some t =>
      obtain ⟨work, _, _, _⟩ := t
      cases work <;> rfl

theorem world_execution? : (v.world hush w).execution? i = (w.execution? i).map v.execution := by
  unfold World.execution?
  rw [world_task]
  cases w.tasks[i]? with
  | none => rfl
  | some t =>
      obtain ⟨work, _, _, _⟩ := t
      cases work with
      | runner m => cases m <;> rfl
      | _ => rfl

theorem world_reply (r : Reply α) :
    (v.world hush w).reply (v.reply r) = v.world hush (w.reply r) :=
  congrArg (fun replies => { v.world hush w with replies }) Array.map_push.symm

theorem world_cancelAll : (v.world hush w).cancelAll = v.world hush w.cancelAll := by
  have cancelled : ∀ (tasks : List Nat) (w : World α),
      tasks.foldl (fun w i => w.cancel i) (v.world hush w) =
        v.world hush (tasks.foldl (fun w i => w.cancel i) w) := by
    intro tasks
    induction tasks with
    | nil => exact fun _ => rfl
    | cons i rest ih =>
        intro w
        rw [List.foldl_cons, List.foldl_cons, world_cancel, ih]
  have size : (v.world hush w).tasks.size = w.tasks.size := Array.size_map
  unfold World.cancelAll
  rw [size]
  exact cancelled _ w

theorem world_nextRound : (v.world hush w).nextRound = w.nextRound.map (v.world hush) := by
  have next : (v.world hush w).next = w.next := rfl
  have timers : (v.world hush w).timers = w.timers := rfl
  unfold World.nextRound
  rw [next, timers]
  cases w.next <;> cases w.timers <;> rfl

end Scheduler

/-! ### Block logic -/

section Attempts

variable {v hush} {w : World α} {i : Nat} {a : Attempt}

theorem world_attempt (w : World α) (i : Nat) (a : Attempt) :
    (v.world hush w).withWork i (.attempt (v.attempt a)) = v.world hush (w.withWork i (.attempt a)) :=
  world_withWork v hush w i (.attempt a)

theorem world_attemptOver (w : World α) (i : Nat) (a : Attempt) (y : Yield) :
    (v.world hush w).attemptOver i (v.attempt a) y = v.world hush (w.attemptOver i a y) := by
  have put := @world_attempt α v hush w i { a with mode := .over y }
  exact (congrArg (World.finish · i) put).trans (world_finish v hush _ i)

theorem world_attemptSleeps (w : World α) (i : Nat) (a : Attempt) (length : Span) :
    ((v.world hush w).withWork i (.attempt (v.attempt a))).sleep i length =
      v.world hush ((w.withWork i (.attempt a)).sleep i length) := by
  rw [world_attempt, world_sleep]

theorem world_attemptPaused (r : Pause × Process × Session) :
    (v.world hush w).attemptPaused i (v.attempt a) (v.paused r) =
      v.world hush (w.attemptPaused i a r) := by
  obtain ⟨pause, p, s⟩ := r
  obtain ⟨q, collected?, mode⟩ := a
  have ceased := @world_attemptOver α v hush (w.withSession s) i ⟨p, collected?, mode⟩
  cases pause with
  | item x =>
      cases collected? with
      | none => exact ceased _
      | some collected =>
          have put := @world_attempt α v hush (w.withSession s) i
            ⟨p, some (x :: collected), .working⟩
          exact congrArg (fun w : World α => { w with busy? := some i }) put
  | sleep length insists =>
      exact world_attemptSleeps (w.withSession s) i
        ⟨p, collected?, .asleep (if insists then some length else none)⟩ length
  | ended e => cases e <;> cases collected? <;> exact ceased _

theorem attemptPaused_session (w : World α) (i : Nat) (a : Attempt) (r : Pause × Process × Session)
    {y : Work α} (there : w.work? i = some y) : (w.attemptPaused i a r).session = r.2.2 :=
  (World.attemptPaused_puts there a r).session

/-- A turn of block logic. -/
theorem world_attemptTurn (there : w.work? i = some (.attempt a)) (known : a.process.Known w.session)
    (cancelled : Bool) (clear : v.Clear w.session (w.attemptTurn i a cancelled).session) :
    (v.world hush w).attemptTurn i (v.attempt a) cancelled =
      v.world hush (w.attemptTurn i a cancelled) := by
  have resumes : v.Clear w.session (w.attemptPaused i a (a.process.resume w.session)).session →
      (v.world hush w).attemptPaused i (v.attempt a) ((v.process a.process).resume (v.session w.session)) =
        v.world hush (w.attemptPaused i a (a.process.resume w.session)) := by
    intro clear
    rw [attemptPaused_session w i a _ there] at clear
    rw [resume known clear, world_attemptPaused]
  obtain ⟨p, collected?, mode⟩ := a
  cases mode with
  | «over» y => rfl
  | working => exact resumes clear
  | fresh =>
      cases cancelled with
      | false => exact resumes clear
      | true => exact world_attemptOver w i ⟨p, collected?, .fresh⟩ (.pause (.ended .interrupted))
  | asleep insists? =>
      cases cancelled with
      | false => cases insists? <;> exact resumes clear
      | true =>
          cases insists? with
          | some length => exact world_attemptSleeps w i ⟨p, collected?, .asleep none⟩ length
          | none =>
              have clear : v.Clear w.session
                (w.attemptPaused i ⟨p, collected?, .asleep none⟩ (p.interrupt w.session)).session := clear
              rw [attemptPaused_session w i _ _ there] at clear
              show (v.world hush w).attemptPaused i (v.attempt ⟨p, collected?, .asleep none⟩)
                ((v.process p).interrupt (v.session w.session)) = _
              rw [interrupt known clear, world_attemptPaused]
              rfl

end Attempts

/-! ### Traversals -/

section Walks

variable {v hush} {w : World α} {i : Nat} {t : Traversal}

theorem world_walk (w : World α) (i : Nat) (k : Walk) (mode : WalkMode) :
    (v.world hush w).walkMode i (v.walk k) (v.walkMode mode) = v.world hush (w.walkMode i k mode) :=
  world_withWork v hush w i (.walk { k with mode })

theorem world_walkOn (w : World α) (i : Nat) (k : Walk) (mode : WalkMode) :
    (v.world hush w).walkOn i (v.walk k) (v.walkMode mode) = v.world hush (w.walkOn i k mode) :=
  congrArg (fun w : World α => { w with busy? := some i }) (world_walk w i k mode)

theorem world_walkSleeps (w : World α) (i : Nat) (k : Walk) (mode : WalkMode) (length : Span) :
    ((v.world hush w).walkMode i (v.walk k) (v.walkMode mode)).sleep i length =
      v.world hush ((w.walkMode i k mode).sleep i length) := by
  rw [world_walk, world_sleep]

theorem world_walkOver (w : World α) (i : Nat) (e : WalkEnd) :
    (v.world hush w).walkOver i e = v.world hush (w.walkOver i e) := by
  have put := @world_walk α v hush w i ⟨⟨[], []⟩, .walking⟩ (.over e)
  exact (congrArg (World.finish · i) put).trans (world_finish v hush _ i)

theorem world_walkWait (w : World α) (i : Nat) (t : Traversal) (p : Process) :
    (v.world hush w).walkWait i (v.traversal t) (v.process p) = v.world hush (w.walkWait i t p) := by
  let waits (w : World α) (t : Traversal) (a : Attempt) (patience : Span) : World α :=
    let spawned := (w.park i).2.spawn (.attempt a) [.release i (w.park i).1]
    (spawned.2.walkMode i ⟨t, .awaiting spawned.1⟩ (.awaiting spawned.1)).schedule i (w.park i).1 patience
  let patience : Span := w.session.options.blockTimeout.span
  have same : waits (v.world hush w) (v.traversal t) (.ofProcess (v.process p)) patience =
      v.world hush (waits w t (.ofProcess p) patience) := by
    have spawned := world_spawn v hush (w.park i).2 (.attempt (.ofProcess p)) [.release i (w.park i).1]
    simp only [waits, ofProcess, world_park]
    rw [show Work.attempt (v.attempt (.ofProcess p)) = v.work hush (.attempt (.ofProcess p)) from rfl, spawned]
    have put := @world_walk α v hush
      ((w.park i).2.spawn (.attempt (.ofProcess p)) [.release i (w.park i).1]).2 i
      ⟨t, .awaiting ((w.park i).2.spawn (.attempt (.ofProcess p)) [.release i (w.park i).1]).1⟩
      (.awaiting ((w.park i).2.spawn (.attempt (.ofProcess p)) [.release i (w.park i).1]).1)
    exact (congrArg (World.schedule · i (w.park i).1 patience) put).trans (world_schedule v hush _ i _ _)
  exact same

/-- What a move of a traversal comes to. -/
theorem world_walkMove (w : World α) (i : Nat) (r : Move × Session) :
    (v.world hush w).walkMove i (v.moved r) = v.world hush (w.walkMove i r) := by
  obtain ⟨m, s⟩ := r
  have on := @world_walkOn α v hush (w.withSession s) i
  cases m with
  | go t => exact on ⟨t, .walking⟩ .walking
  | wait p t => exact world_walkWait (w.withSession s) i t p
  | delay id t =>
      exact world_walkSleeps (w.withSession s) i ⟨t, .walking⟩ (.delaying id) s.options.stepDelay.span
  | finished => exact on ⟨⟨[], []⟩, .walking⟩ (.unwinding .normal)
  | fail f t =>
      exact world_walkOn (w.withSession (s.note (.failed f))) i ⟨t, .walking⟩ (.unwinding (.failed f))

theorem world_walkClosed (w : World α) (i : Nat) (k : Walk) (e : WalkEnd)
    (r : Pause × Process × Session) :
    (v.world hush w).walkClosed i (v.walk k) e (v.paused r) = v.world hush (w.walkClosed i k e r) := by
  obtain ⟨pause, p, s⟩ := r
  have on := @world_walkOn α v hush (w.withSession s) i k (.unwinding e)
  cases pause with
  | item x => exact on
  | sleep length insists =>
      exact world_walkSleeps (w.withSession s) i k
        (.closing p (if insists then some length else none) e) length
  | ended how =>
      cases how with
      | interrupted => exact world_walkOver (w.withSession s) i .cancelled
      | _ => exact on

theorem world_walkAbandon (w : World α) (i : Nat) (k : Walk) (attempt : Nat) (outOfTime : Bool) :
    (v.world hush w).walkAbandon i (v.walk k) attempt outOfTime =
      v.world hush (w.walkAbandon i k attempt outOfTime) := by
  have put := @world_walk α v hush (w.park i).2 i k (.abandoning attempt outOfTime)
  unfold World.walkAbandon
  simp only [world_park]
  rw [show v.walkMode (.abandoning attempt outOfTime) = .abandoning attempt outOfTime from rfl] at put
  rw [put, world_watch, world_cancel]

/-- A traversal takes what an attempt came to. -/
theorem world_walkTake (k : Walk) (a : Attempt) (outOfTime : Bool)
    (clear : v.Clear w.session (w.walkTake i k a outOfTime).session) :
    (v.world hush w).walkTake i (v.walk k) (v.attempt a) outOfTime =
      v.world hush (w.walkTake i k a outOfTime) := by
  have put : (v.traversal k.traversal).withSource (World.sourceOf (v.attempt a)) =
      v.traversal (k.traversal.withSource (World.sourceOf a)) := by rw [sourceOf, withSource]
  have on := fun t mode => @world_walkOn α v hush w i ⟨t, .walking⟩ mode
  unfold World.walkTake at clear ⊢
  simp only [walk, put] at clear ⊢
  generalize k.traversal.withSource (World.sourceOf a) = t at clear ⊢
  have moves : ∀ r : Move × Session, v.Clear w.session (w.walkMove i r).session → v.Clear w.session r.2 :=
    fun r clear => settled (w.walkMove_session i r ▸ clear)
  have answers : ∀ pause, v.Clear w.session
        (w.walkMove i (t.answer w.session pause (World.sourceOf a))).session →
      (v.world hush w).walkMove i ((v.traversal t).answer (v.session w.session) pause
          (World.sourceOf (v.attempt a))) =
        v.world hush (w.walkMove i (t.answer w.session pause (World.sourceOf a))) := by
    intro pause clear
    rw [sourceOf, answer t pause _ (moves _ clear), world_walkMove]
  obtain ⟨p, collected?, mode⟩ := a
  cases mode with
  | «over» y =>
      cases y with
      | items vs => exact on t .walking
      | pause pause =>
          cases pause with
          | ended e =>
              cases e with
              | interrupted =>
                  cases outOfTime with
                  | false => exact on t (.unwinding .cancelled)
                  | true =>
                      obtain ⟨entries, stack⟩ := t
                      cases stack with
                      | nil => exact on ⟨entries, []⟩ (.unwinding .cancelled)
                      | cons frame outer =>
                          have timedOut := blockTimedOut (v := v) (e := frame.element) (moves
                            (.fail (w.session.blockTimedOut frame.element).1 ⟨entries, frame :: outer⟩,
                              (w.session.blockTimedOut frame.element).2) clear)
                          show (v.world hush w).walkMove i
                            (.fail ((v.session w.session).blockTimedOut frame.element).1 _,
                              ((v.session w.session).blockTimedOut frame.element).2) = _
                          rw [timedOut]
                          exact world_walkMove w i
                            (.fail (w.session.blockTimedOut frame.element).1 ⟨entries, frame :: outer⟩,
                              (w.session.blockTimedOut frame.element).2)
              | _ => exact answers _ clear
          | _ => exact answers _ clear
  | _ => rfl

/-- An element under way is closed. -/
theorem world_walkUnwind {y : Work α} (there : w.work? i = some y) (k : Walk) (e : WalkEnd)
    (known : k.traversal.Known w.session)
    (clear : v.Clear w.session (w.walkUnwind i k e).session) :
    (v.world hush w).walkUnwind i (v.walk k) e = v.world hush (w.walkUnwind i k e) := by
  obtain ⟨⟨entries, stack⟩, mode⟩ := k
  cases stack with
  | nil => exact world_walkOver w i e
  | cons frame outer =>
      have closes : ∀ p : Process, p.Known w.session →
          v.Clear w.session (w.walkClosed i ⟨⟨entries, outer⟩, mode⟩ e (p.close w.session)).session →
          (v.world hush w).walkClosed i (v.walk ⟨⟨entries, outer⟩, mode⟩) e
              ((v.process p).close (v.session w.session)) =
            v.world hush (w.walkClosed i ⟨⟨entries, outer⟩, mode⟩ e (p.close w.session)) := by
        intro p known clear
        obtain ⟨_, put, _⟩ := World.walkClosed_comes there ⟨entries, outer⟩ e (p.close w.session) mode
        rw [put.session, Stage.closed_session] at clear
        rw [closeProcess known clear, world_walkClosed]
      have inside : frame.source.Known w.session := known frame List.mem_cons_self
      have source : (v.frame frame).source = v.source frame.source := rfl
      unfold World.walkUnwind at clear ⊢
      simp only [walk, traversal, List.map_cons, source] at clear ⊢
      cases drawn : frame.source with
      | stream p | sequence p =>
          simp only [drawn] at clear
          exact closes p (inside p (by rw [drawn]; rfl)) clear
      | _ => exact world_walkOn w i ⟨⟨entries, outer⟩, mode⟩ (.unwinding e)

/-- The opening of a run. -/
theorem world_opening {y : Work α} (there : w.work? i = some y) (t : Traversal)
    (clear : v.Clear w.session (w.walkTurn i ⟨t, .opening⟩ false).session) :
    (v.world hush w).walkTurn i (v.walk ⟨t, .opening⟩) false =
      v.world hush (w.walkTurn i ⟨t, .opening⟩ false) := by
  obtain ⟨r, next, _, put, _⟩ := World.opening_comes there ⟨t, .opening⟩ rfl
  have session : (w.walkTurn i ⟨t, .opening⟩ false).session = w.session.opening.2 := by
    rw [put.session]
    simp only [Stage.next] at next
    split at next <;> rename_i same <;> cases next <;> rw [same]
  rw [session] at clear
  have opened : (v.world hush w).session.opening = _ := opening clear
  unfold World.walkTurn
  rw [opened]
  simp only
  cases w.session.opening with
  | mk r s =>
      cases r with
      | ok entries => exact world_walkOn (w.withSession s) i ⟨⟨entries, []⟩, .walking⟩ .walking
      | error f => exact world_walkOver (w.withSession s) i (.failed f)

/-- A turn of a traversal. -/
theorem world_walkTurn {k : Walk} (there : w.work? i = some (.walk k))
    (sound : ∀ st, w.stageOf k = some st → st.Sound w.session) (cancelled : Bool)
    (clear : v.Clear w.session (w.walkTurn i k cancelled).session) :
    (v.world hush w).walkTurn i (v.walk k) cancelled = v.world hush (w.walkTurn i k cancelled) := by
  obtain ⟨t, mode⟩ := k
  have cut := fun mode => @world_walkOn α v hush w i ⟨t, mode⟩ (.unwinding .cancelled)
  cases mode with
  | «over» e => rfl
  | opening =>
      cases cancelled with
      | true => exact world_walkOver w i .cancelled
      | false => exact world_opening there t clear
  | walking =>
      cases cancelled with
      | true => exact cut .walking
      | false =>
          have known : t.Known w.session := (sound _ rfl).1
          have stepped : v.Clear w.session (t.step w.session).2 :=
            settled (w.walkMove_session i _ ▸ clear)
          show (v.world hush w).walkMove i ((v.traversal t).step (v.session w.session)) = _
          rw [step t known stepped, world_walkMove]
          rfl
  | awaiting attempt =>
      unfold World.walkTurn at clear ⊢
      simp only [walk, walkMode] at clear ⊢
      rw [world_unschedule, world_isOver, world_attempt?]
      have given := @world_walkAbandon α v hush (w.unschedule i) i
        ⟨t, .awaiting attempt⟩ attempt (!cancelled)
      cases «over» : (w.unschedule i).isOver attempt <;>
        cases found : (w.unschedule i).attempt? attempt <;>
        simp only [«over», found, Option.map_none, Option.map_some] at clear ⊢
      case true.some a => exact world_walkTake ⟨t, .awaiting attempt⟩ a false clear
      all_goals exact given
  | abandoning attempt outOfTime =>
      cases cancelled with
      | true => exact cut (.abandoning attempt outOfTime)
      | false =>
          unfold World.walkTurn at clear ⊢
          simp only [walk, walkMode] at clear ⊢
          rw [world_attempt?]
          cases found : w.attempt? attempt with
          | none => rfl
          | some a =>
              simp only [found, Option.map_some] at clear ⊢
              cases outOfTime with
              | true => exact world_walkTake ⟨t, .abandoning attempt true⟩ a true clear
              | false =>
                  simp only [Bool.false_eq_true, if_false]
                  rw [sourceOf, withSource]
                  exact world_walkOn w i ⟨t.withSource (World.sourceOf a), .walking⟩ (.unwinding .cancelled)
  | delaying id =>
      cases cancelled with
      | true => exact cut (.delaying id)
      | false =>
          have done : (v.session w.session).completed id = v.session (w.session.completed id) :=
            (Commutes.completed id w.session).2 clear
          show (v.world hush w).walkMove i (.go (v.traversal t), (v.session w.session).completed id) = _
          rw [done]
          exact world_walkMove w i (.go t, w.session.completed id)
  | unwinding e =>
      cases cancelled with
      | true => exact cut (.unwinding e)
      | false => exact world_walkUnwind there ⟨t, .unwinding e⟩ e (sound _ rfl).1 clear
  | closing p insists? e =>
      have known : p.Known w.session := (sound _ rfl).2
      have closes : ∀ r : Pause × Process × Session,
          v.Clear w.session (w.walkClosed i ⟨t, .closing p insists? e⟩ e r).session →
          v.Clear w.session r.2.2 := fun r clear => by
        obtain ⟨_, put, _⟩ := World.walkClosed_comes there t e r (.closing p insists? e)
        rwa [put.session, Stage.closed_session] at clear
      cases cancelled with
      | false =>
          show (v.world hush w).walkClosed i (v.walk ⟨t, .closing p insists? e⟩) e
            ((v.process p).resume (v.session w.session)) = _
          rw [resume known (closes _ (by cases insists? <;> exact clear)), world_walkClosed]
          cases insists? <;> rfl
      | true =>
          cases insists? with
          | some length =>
              exact world_walkSleeps w i ⟨t, .closing p (some length) e⟩ (.closing p none e) length
          | none =>
              show (v.world hush w).walkClosed i (v.walk ⟨t, .closing p none e⟩) e
                ((v.process p).interrupt (v.session w.session)) = _
              rw [interrupt known (closes _ clear), world_walkClosed]
              rfl

end Walks

end View

end BlockGraph
