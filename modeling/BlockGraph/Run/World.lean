import BlockGraph.Run.Traversal
/-!
Worlds: a session in simulated time, with the tasks at work in it. Tasks take turns, one at a time and
in the order in which they became ready; a task runs until it has to wait. Time stands still while any
task is ready and then jumps to the next timer.
-/
namespace BlockGraph

/-- What is asked of a session when a run is to be executed. -/
structure Request where
  options : Except OptionsFault Options
  bindings : Value
  listener : Listener

/-- How an execution ended. -/
inductive Outcome where
  | finished
  | failed (f : RunFault)
  | refused (f : OptionsFault)
  | cancelled

/-- An execution that ended: how, what the session was like then, and how long it took. -/
structure Execution where
  outcome : Outcome
  session : Session
  elapsed : Rat
  listener : Nat

/-- What a caller does. The executions it starts go on beside it until it joins them, latest first. -/
inductive Command (α : Type) where
  | act (f : Session → α × Session)
  | wait (length : Span)
  | execute (r : Request)
  | start (r : Request)
  | cancel
  | join

/-- What a caller gets to know. -/
inductive Reply (α : Type) where
  | acted (a : α)
  | waited
  | executed (e : Execution)

/-- How a traversal ended. -/
inductive WalkEnd where
  | normal
  | failed (f : RunFault)
  | cancelled

/-- What a traversal is doing. -/
inductive WalkMode where
  | opening
  | walking
  /-- Block logic is at work in a task of its own. -/
  | awaiting (attempt : Nat)
  /-- Block logic was cancelled; the traversal waits until it is over. -/
  | abandoning (attempt : Nat) (outOfTime : Bool)
  | delaying (element : String)
  /-- Elements under way are closed, innermost first. -/
  | unwinding (e : WalkEnd)
  /-- One of them sleeps while it is closed. -/
  | closing (p : Process) (insists? : Option Span) (e : WalkEnd)
  | over (e : WalkEnd)

structure Walk where
  traversal : Traversal
  mode : WalkMode

/-- What an attempt to get the next item out of block logic came to. -/
inductive Yield where
  | pause (p : Pause)
  /-- All items at once, from logic that hands them over together. -/
  | items (vs : List Value)

inductive AttemptMode where
  | fresh
  | working
  | asleep (insists? : Option Span)
  | over (y : Yield)

/-- An attempt to get the next item out of block logic. With `collected?` it is one to get them all. -/
structure Attempt where
  process : Process
  collected? : Option (List Value)
  mode : AttemptMode

/-- An execution under way. -/
structure Pending where
  listener : Nat
  began : Rat
  walk : Nat

inductive RunnerMode where
  | fresh (r : Request)
  | pending (p : Pending)
  | over (e : Execution)

inductive CallerMode where
  | ready
  | executing (p : Pending)
  | waiting
  | joining (task : Nat)
  | over

/-- The caller: what it still has to do, and the executions it has started, latest first. -/
structure Caller (α : Type) where
  commands : List (Command α)
  mode : CallerMode
  started : List Nat

inductive Work (α : Type) where
  | caller (c : Caller α)
  | runner (m : RunnerMode)
  | walk (w : Walk)
  | attempt (a : Attempt)

/-- Whether a task may go on. A parked task holds the ticket it waits for; once that is released or
called in, its turn comes. -/
inductive Standing where
  | queued
  | parked (ticket : Nat)
  | released
  | interrupted
  | over
deriving DecidableEq

/-- Who is told when a task is over. -/
inductive Watcher where
  | release (task ticket : Nat)
  | wake (task : Nat)

structure Task (α : Type) where
  work : Work α
  standing : Standing
  cancelled : Bool
  watchers : List Watcher

/-- Something that is due in the next round. -/
inductive Due where
  | turn (task : Nat)
  | release (task ticket : Nat)

structure Timer where
  time : Rat
  task : Nat
  ticket : Nat

/-- How far a world is from its end. After the caller's last command one more round is played; then
what is still at work is cancelled. -/
inductive Phase where
  | live
  | lastRound
  | draining
deriving DecidableEq

structure World (α : Type) where
  session : Session
  now : Rat
  round : List Due
  next : List Due
  timers : List Timer
  tickets : Nat
  tasks : Array (Task α)
  busy? : Option Nat
  walk? : Option Nat
  replies : Array (Reply α)
  phase : Phase

namespace World

variable {α : Type}

def later (w : World α) (d : Due) : World α := { w with next := d :: w.next }

def change (w : World α) (task : Nat) (f : Task α → Task α) : World α :=
  { w with tasks := w.tasks.modify task f }

def withWork (w : World α) (task : Nat) (work : Work α) : World α :=
  w.change task fun t => { t with work }

def stand (w : World α) (task : Nat) (standing : Standing) : World α :=
  w.change task fun t => { t with standing }

/-- A new task; its turn comes in the next round. -/
def spawn (w : World α) (work : Work α) (watchers : List Watcher) : Nat × World α :=
  let task := w.tasks.size
  (task, { w with tasks := w.tasks.push ⟨work, .queued, false, watchers⟩ }.later (.turn task))

/-- Parks a task and gives the ticket it waits for. -/
def park (w : World α) (task : Nat) : Nat × World α :=
  (w.tickets, { w with tickets := w.tickets + 1 }.stand task (.parked w.tickets))

/-- Inserts a timer behind those that are due no later. -/
def insertTimer (t : Timer) : List Timer → List Timer
  | [] => [t]
  | u :: rest => if u.time ≤ t.time then u :: insertTimer t rest else t :: u :: rest

/-- Releases a ticket after some time. -/
def schedule (w : World α) (task ticket : Nat) (length : Span) : World α :=
  match length with
  | .forever => w
  | .ms r => { w with timers := insertTimer ⟨w.now + r, task, ticket⟩ w.timers }

def unschedule (w : World α) (task : Nat) : World α :=
  { w with timers := w.timers.filter (·.task != task) }

/-- Lets a task sleep. One that sleeps for no time only lets the others have their turn. -/
def sleep (w : World α) (task : Nat) (length : Span) : World α :=
  let nothing := match length with
    | .ms r => decide (r ≤ 0)
    | .forever => false
  if nothing then (w.stand task .queued).later (.turn task)
  else
    let (ticket, w) := w.park task
    w.schedule task ticket length

/-- Cancels a task: what it waits for is called in, or else its next turn is a cancelled one. -/
def cancel (w : World α) (task : Nat) : World α :=
  match w.tasks[task]? with
  | none => w
  | some t => match t.standing with
    | .over => w
    | .parked _ => ((w.stand task .interrupted).unschedule task).later (.turn task)
    | _ => w.change task fun t => { t with cancelled := true }

def tell (w : World α) : Watcher → World α
  | .release task ticket => w.later (.release task ticket)
  | .wake task => (w.stand task .released).later (.turn task)

/-- A task is over: those who watch it are told. -/
def finish (w : World α) (task : Nat) : World α :=
  match w.tasks[task]? with
  | none => w
  | some t =>
    let w := w.change task fun t => { t with standing := .over, watchers := [] }
    t.watchers.foldl tell w

def isOver (w : World α) (task : Nat) : Bool :=
  match w.tasks[task]? with
  | some t => t.standing == .over
  | none => true

def watch (w : World α) (task : Nat) (watchers : List Watcher) : World α :=
  w.change task fun t => { t with watchers }

def withSession (w : World α) (s : Session) : World α := { w with session := s }

/-! ### Attempts -/

def attemptOver (w : World α) (task : Nat) (a : Attempt) (y : Yield) : World α :=
  (w.withWork task (.attempt { a with mode := .over y })).finish task

/-- Goes on after the process of an attempt has paused. -/
def attemptPaused (w : World α) (task : Nat) (a : Attempt) (r : Pause × Process × Session) :
    World α :=
  let (pause, process, s) := r
  let w := w.withSession s
  let a := { a with process }
  match pause, a.collected? with
  | .item v, some collected =>
    { w.withWork task (.attempt { a with collected? := some (v :: collected), mode := .working }) with
      busy? := some task }
  | .sleep length insists, _ =>
    let insists? := if insists then some length else none
    (w.withWork task (.attempt { a with mode := .asleep insists? })).sleep task length
  | .ended .normal, some collected => w.attemptOver task a (.items collected.reverse)
  | pause, _ => w.attemptOver task a (.pause pause)

def attemptTurn (w : World α) (task : Nat) (a : Attempt) (cancelled : Bool) : World α :=
  match a.mode, cancelled with
  | .over _, _ => w
  | .asleep (some length), true =>
    (w.withWork task (.attempt { a with mode := .asleep none })).sleep task length
  | .asleep none, true => w.attemptPaused task a (a.process.interrupt w.session)
  | .fresh, true => w.attemptOver task a (.pause (.ended .interrupted))
  | _, _ => w.attemptPaused task a (a.process.resume w.session)

/-! ### Traversals -/

def walkMode (w : World α) (task : Nat) (k : Walk) (mode : WalkMode) : World α :=
  w.withWork task (.walk { k with mode })

/-- Lets a traversal go on at once. -/
def walkOn (w : World α) (task : Nat) (k : Walk) (mode : WalkMode) : World α :=
  { w.walkMode task k mode with busy? := some task }

/-- Starts an attempt for a traversal, which waits for it no longer than blocks may take. -/
def walkWait (w : World α) (task : Nat) (t : Traversal) (p : Process) : World α :=
  let collected? := match p.progress with
    | .fresh logic => if logic.form = .deferred then some [] else none
    | _ => none
  let (ticket, w) := w.park task
  let (attempt, w) := w.spawn (.attempt ⟨p, collected?, .fresh⟩) [.release task ticket]
  let patience := match w.session.options.blockTimeout.units? with
    | some u => Span.ms (mkRat u Double.unitsPerOne)
    | none => .forever
  (w.walkMode task ⟨t, .awaiting attempt⟩ (.awaiting attempt)).schedule task ticket patience

def walkMove (w : World α) (task : Nat) (r : Move × Session) : World α :=
  let (move, s) := r
  let w := w.withSession s
  match move with
  | .go t => w.walkOn task ⟨t, .walking⟩ .walking
  | .wait p t => w.walkWait task t p
  | .delay id t =>
    let length := match s.options.stepDelay.units? with
      | some u => Span.ms (mkRat u Double.unitsPerOne)
      | none => .forever
    (w.walkMode task ⟨t, .walking⟩ (.delaying id)).sleep task length
  | .finished => w.walkOn task ⟨⟨[], []⟩, .walking⟩ (.unwinding .normal)
  | .fail f t => (w.withSession (s.note (.failed f))).walkOn task ⟨t, .walking⟩ (.unwinding (.failed f))

def walkOver (w : World α) (task : Nat) (e : WalkEnd) : World α :=
  (w.walkMode task ⟨⟨[], []⟩, .walking⟩ (.over e)).finish task

/-- The source of block logic whose attempt is over. -/
def sourceOf (a : Attempt) : Source :=
  match a.mode with
  | .over (.items vs) => .items vs
  | _ => .stream a.process

/-- A traversal takes what an attempt came to. -/
def walkTake (w : World α) (task : Nat) (k : Walk) (a : Attempt) (outOfTime : Bool) : World α :=
  let t := k.traversal.withSource (sourceOf a)
  match a.mode with
  | .over (.items _) => w.walkOn task ⟨t, .walking⟩ .walking
  | .over (.pause (.ended .interrupted)) =>
    if outOfTime then
      match t.stack with
      | frame :: _ =>
        let (f, s) := w.session.blockTimedOut frame.element
        w.walkMove task (.fail f t, s)
      | [] => w.walkOn task ⟨t, .walking⟩ (.unwinding .cancelled)
    else w.walkOn task ⟨t, .walking⟩ (.unwinding .cancelled)
  | .over (.pause pause) => w.walkMove task (t.answer w.session pause (sourceOf a))
  | _ => w

def attempt? (w : World α) (task : Nat) : Option Attempt :=
  match w.tasks[task]? with
  | some ⟨.attempt a, _, _, _⟩ => some a
  | _ => none

/-- Cancels an attempt and waits until it is over. -/
def walkAbandon (w : World α) (task : Nat) (k : Walk) (attempt : Nat) (outOfTime : Bool) : World α :=
  let (ticket, w) := w.park task
  let w := w.walkMode task k (.abandoning attempt outOfTime)
  (w.watch attempt [.release task ticket]).cancel attempt

/-- Goes on after a process has paused while it was being closed. Items it hands over are lost, and
so are its faults. -/
def walkClosed (w : World α) (task : Nat) (k : Walk) (e : WalkEnd) (r : Pause × Process × Session) :
    World α :=
  let (pause, p, s) := r
  let w := w.withSession s
  match pause with
  | .sleep length insists =>
    let insists? := if insists then some length else none
    (w.walkMode task k (.closing p insists? e)).sleep task length
  | .ended .interrupted => w.walkOver task .cancelled
  | _ => w.walkOn task k (.unwinding e)

/-- Closes the innermost element that is still under way. -/
def walkUnwind (w : World α) (task : Nat) (k : Walk) (e : WalkEnd) : World α :=
  match k.traversal.stack with
  | [] => w.walkOver task e
  | frame :: outer =>
    let k := { k with traversal := { k.traversal with stack := outer } }
    match frame.source with
    | .stream p | .sequence p => w.walkClosed task k e (p.close w.session)
    | _ => w.walkOn task k (.unwinding e)

/-- A turn of a traversal. -/
def walkTurn (w : World α) (task : Nat) (k : Walk) (cancelled : Bool) : World α :=
  match k.mode, cancelled with
  | .over _, _ => w
  | .opening, true => w.walkOver task .cancelled
  | .opening, false =>
    match w.session.opening with
    | (.ok entries, s) => (w.withSession s).walkOn task ⟨⟨entries, []⟩, .walking⟩ .walking
    | (.error f, s) => (w.withSession s).walkOver task (.failed f)
  | .awaiting attempt, cancelled =>
    let w := w.unschedule task
    match w.isOver attempt, w.attempt? attempt with
    | true, some a => w.walkTake task k a false
    | _, _ => w.walkAbandon task k attempt (!cancelled)
  | .abandoning attempt outOfTime, false =>
    match w.attempt? attempt with
    | some a =>
      if outOfTime then w.walkTake task k a true
      else
        let t := k.traversal.withSource (sourceOf a)
        w.walkOn task ⟨t, .walking⟩ (.unwinding .cancelled)
    | none => w
  | .delaying id, false => w.walkMove task (.go k.traversal, w.session.completed id)
  | .closing p _ e, false => w.walkClosed task k e (p.resume w.session)
  | .closing p (some length) e, true =>
    (w.walkMode task k (.closing p none e)).sleep task length
  | .closing p none e, true => w.walkClosed task k e (p.interrupt w.session)
  | .walking, false => w.walkMove task (k.traversal.step w.session)
  | .unwinding e, false => w.walkUnwind task k e
  | _, true => w.walkOn task k (.unwinding .cancelled)

/-! ### Executions -/

/-- Ends an execution: the session no longer runs. -/
def close (w : World α) (began : Rat) (listener : Nat) (outcome : Outcome) (s : Session) :
    Execution × World α :=
  (⟨outcome, s.closed, w.now - began, listener⟩, w.withSession s.closed)

/-- An execution is refused because the session is not free. The listener of the new one is told. -/
def refuse (w : World α) (r : Request) (options : Options) (f : RunFault) : Execution × World α :=
  let s := Session.tell 2 w.session options r.listener (.error f)
  (⟨.failed f, s, 0, r.listener.number⟩, w.withSession s)

/-- Starts an execution; it is over at once if it is refused. -/
def begin (w : World α) (task : Nat) (r : Request) : (Execution ⊕ Pending) × World α :=
  let refused := fun (e : Execution × World α) => (Sum.inl e.1, e.2)
  match r.options with
  | .error f => (.inl ⟨.refused f, w.session, 0, r.listener.number⟩, w)
  | .ok options =>
    if w.session.running then refused (w.refuse r options .inProgress)
    else if (w.walk?.any fun task => !w.isOver task) then refused (w.refuse r options .shuttingDown)
    else
      match (if r.bindings.isTrue then r.bindings else .mapping []).toEntries with
      | .error f =>
        let s := { w.session.cleared with options, listener := r.listener }
        (.inl ⟨.failed (.value f), s, 0, r.listener.number⟩, w.withSession s)
      | .ok bindings =>
        let s := w.session.taken options r.listener bindings
        let (ticket, w) := (w.withSession s).park task
        let (walk, w) := w.spawn (.walk ⟨⟨[], []⟩, .opening⟩) [.release task ticket]
        let budget := match options.maxTime.units? with
          | some u => Span.ms (mkRat u Double.unitsPerOne)
          | none => .forever
        let w := { w with walk? := some walk }.schedule task ticket budget
        (.inr ⟨r.listener.number, w.now, walk⟩, w)

def walkEnd? (w : World α) (task : Nat) : Option WalkEnd :=
  match w.tasks[task]? with
  | some ⟨.walk ⟨_, .over e⟩, _, _, _⟩ => some e
  | _ => none

/-- Cancels an execution: its traversal is cancelled with it, but not waited for. -/
def abort (w : World α) (p : Pending) : Execution × World α :=
  (w.cancel p.walk).close p.began p.listener .cancelled w.session.aborted

/-- The execution's wait is over: its traversal has ended, or its time has run out. -/
def conclude (w : World α) (task : Nat) (p : Pending) (cancelled : Bool) : Execution × World α :=
  let w := w.unschedule task
  if cancelled then w.abort p
  else match w.walkEnd? p.walk with
    | some .normal => w.close p.began p.listener .finished w.session.finished
    | some (.failed f) => w.close p.began p.listener (.failed f) (w.session.failedWith f)
    | some .cancelled => w.abort p
    | none =>
      let f := RunFault.runTimeout w.session.options.maxTime
      (w.cancel p.walk).close p.began p.listener (.failed f)
        ({ w.session with stopRequested := true }.failedWith f)

def runnerOver (task : Nat) (r : Execution × World α) : World α :=
  (r.2.withWork task (.runner (.over r.1))).finish task

def runnerTurn (w : World α) (task : Nat) (m : RunnerMode) (cancelled : Bool) : World α :=
  match m, cancelled with
  | .over _, _ => w
  | .fresh r, true =>
    runnerOver task (⟨.cancelled, w.session, 0, r.listener.number⟩, w)
  | .fresh r, false => match w.begin task r with
    | (.inl e, w) => runnerOver task (e, w)
    | (.inr p, w) => w.withWork task (.runner (.pending p))
  | .pending p, cancelled => runnerOver task (w.conclude task p cancelled)

/-! ### The caller -/

def reply (w : World α) (r : Reply α) : World α := { w with replies := w.replies.push r }

def execution? (w : World α) (task : Nat) : Option Execution :=
  match w.tasks[task]? with
  | some ⟨.runner (.over e), _, _, _⟩ => some e
  | _ => none

/-- Carries out commands until one of them has to be waited for. -/
def command (w : World α) (task : Nat) (started : List Nat) : List (Command α) → World α
  | [] => (w.withWork task (.caller ⟨[], .over, started⟩)).finish task
  | .act f :: rest =>
    let (a, s) := f w.session
    command ((w.withSession s).reply (.acted a)) task started rest
  | .wait length :: rest =>
    (w.withWork task (.caller ⟨rest, .waiting, started⟩)).sleep task length
  | .execute r :: rest => match w.begin task r with
    | (.inl e, w) => command (w.reply (.executed e)) task started rest
    | (.inr p, w) => w.withWork task (.caller ⟨rest, .executing p, started⟩)
  | .start r :: rest =>
    let (runner, w) := w.spawn (.runner (.fresh r)) []
    command w task (runner :: started) rest
  | .cancel :: rest => match started with
    | runner :: _ => command (w.cancel runner) task started rest
    | [] => command w task started rest
  | .join :: rest => match started with
    | [] => command w task [] rest
    | runner :: others => match w.execution? runner with
      | some e => command (w.reply (.executed e)) task others rest
      | none =>
        let (_, w) := w.park task
        (w.watch runner [.wake task]).withWork task (.caller ⟨rest, .joining runner, others⟩)

def callerTurn (w : World α) (task : Nat) (c : Caller α) (cancelled : Bool) : World α :=
  match c.mode with
  | .over => w
  | .ready => w.command task c.started c.commands
  | .waiting => (w.reply .waited).command task c.started c.commands
  | .executing p =>
    let (e, w) := w.conclude task p cancelled
    (w.reply (.executed e)).command task c.started c.commands
  | .joining runner =>
    let w := match w.execution? runner with
      | some e => w.reply (.executed e)
      | none => w
    w.command task c.started c.commands

/-! ### Rounds -/

def turn (w : World α) (task : Nat) : World α :=
  match w.tasks[task]? with
  | none => w
  | some t =>
    let cancelled := t.cancelled || t.standing == .interrupted
    let w := w.change task fun t =>
      { t with cancelled := false, standing := if t.standing == .over then .over else .queued }
    match t.work with
    | .caller c => w.callerTurn task c cancelled
    | .runner m => w.runnerTurn task m cancelled
    | .walk k => w.walkTurn task k cancelled
    | .attempt a => w.attemptTurn task a cancelled

def due (w : World α) : Due → World α
  | .turn task => w.turn task
  | .release task ticket =>
    match w.tasks[task]? with
    | some t =>
      if t.standing = .parked ticket then (w.stand task .released).later (.turn task) else w
    | none => w

/-- The timers that are due by now, as things to be done in this round, and the others. -/
def ring (now : Rat) (timers : List Timer) : List Due × List Timer :=
  let (rung, others) := timers.span fun t => t.time ≤ now
  (rung.map fun t => .release t.task t.ticket, others)

/-- Starts the next round with what became ready in the last one and the timers that are due. When
nothing is ready, time jumps to the next timer. -/
def nextRound (w : World α) : Option (World α) :=
  match w.next, w.timers with
  | [], [] => none
  | next, timers =>
    let now := match next, timers with
      | [], t :: _ => if w.now < t.time then t.time else w.now
      | _, _ => w.now
    let (rung, timers) := ring now timers
    some { w with now, round := next.reverse ++ rung, next := [], timers }

def callerOver (w : World α) : Bool := w.isOver 0

/-- Cancels whatever is still at work. -/
def cancelAll (w : World α) : World α :=
  (List.range w.tasks.size).foldl (fun w task => w.cancel task) w

/-- One step of a world: a task that is at work goes on, or else the next thing that is due is done.
There is no step left when nothing more can happen. -/
def step (w : World α) : Option (World α) :=
  match w.busy? with
  | some task => some ({ w with busy? := none }.turn task)
  | none => match w.round with
    | d :: rest => some ({ w with round := rest }.due d)
    | [] =>
      match w.phase, w.callerOver with
      | .live, true =>
        let w := { w with phase := .lastRound }
        some ((if w.next.isEmpty then none else w.nextRound).getD w)
      | .lastRound, _ => some { w.cancelAll with phase := .draining }
      | _, _ => w.nextRound

/-- Steps until nothing more can happen; the fuel is far more than any caller has the patience for. -/
def run : Nat → World α → World α
  | 0, w => w
  | fuel + 1, w => match w.step with
    | none => w
    | some w => run fuel w

def fuel : Nat := 1000000000

/-- A world in which a caller is about to carry out commands on a session. -/
def ofCommands (s : Session) (commands : List (Command α)) : World α :=
  { session := s, now := 0, round := [.turn 0], next := [], timers := [], tickets := 0
    tasks := #[⟨.caller ⟨commands, .ready, []⟩, .queued, false, []⟩]
    busy? := none, walk? := none, replies := #[], phase := .live }

/-- What comes of commands on a session: the replies, and the session in the end. -/
def play (s : Session) (commands : List (Command α)) : List (Reply α) × Session :=
  let w := run fuel (ofCommands s commands)
  (w.replies.toList, w.session)

end World

end BlockGraph
