import BlockGraph.Proofs.Executions
import BlockGraph.Proofs.Lens
import BlockGraph.Proofs.LikeMoves
/-!
Worlds that are alike: the same is at work in them at the same time, in sessions that are related by a likeness.
How much the two may differ in what callers ask for, and in what came of executions, is left to a pair of lenses
under which they look the same. Turns of block logic and traversals, and ends of executions, come to the same.
-/
namespace BlockGraph

/-- Whether two lenses leave sessions out, and what is at work in runs as it is. -/
structure Lens.Pair {α : Type} (v v' : Lens α) : Prop where
  sessions : ∀ s t, v.session t = v'.session s
  inner : ∀ x : Work α, x.Inner → v.work x = v'.work x
  only : ∀ x x' : Work α, v.work x' = v'.work x → x.Inner ∨ x'.Inner → x' = x

/-- Whether two executions ended in the same way, in sessions that are related. -/
structure Execution.Like (R : Session → Session → Prop) (e e' : Execution) : Prop where
  outcome : e'.outcome = e.outcome
  session : R e.session e'.session
  elapsed : e'.elapsed = e.elapsed
  listener : e'.listener = e.listener

namespace World

variable {α : Type}

/-- Whether the sessions of two worlds are related, and all else looks the same. -/
structure Like (R : Session → Session → Prop) (v v' : Lens α) (w w' : World α) : Prop where
  session : R w.session w'.session
  same : v.world w' = v'.world w

namespace Like

variable {R : Session → Session → Prop} {v v' : Lens α} {w w' : World α}

/-! ### The scheduler -/

section Scheduler

variable (h : Like R v v' w w') (i : Nat)
include h

/-- A move of the scheduler leaves worlds alike. -/
theorem move (f : World α → World α) (lens : ∀ (v : Lens α) w, f (v.world w) = v.world (f w))
    (still : ∀ w, (f w).session = w.session) : Like R v v' (f w) (f w') := by
  refine ⟨?_, ?_⟩
  · rw [still, still]
    exact h.session
  · rw [← lens, ← lens, h.same]

theorem later (d : Due) : Like R v v' (w.later d) (w'.later d) := h.move (·.later d) (fun _ _ => rfl) fun _ => rfl

theorem withSession (pair : v.Pair v') {s t : Session} (like : R s t) :
    Like R v v' (w.withSession s) (w'.withSession t) := by
  refine ⟨like, ?_⟩
  have put : (v.world w').withSession (v.session t) = (v'.world w).withSession (v.session t) := by rw [h.same]
  rw [Lens.withSession, pair.sessions s t, Lens.withSession] at put
  exact put

theorem withWork {x x' : Work α} (same : v.work x' = v'.work x) :
    Like R v v' (w.withWork i x) (w'.withWork i x') := by
  refine ⟨h.session, ?_⟩
  rw [← Lens.withWork, ← Lens.withWork, same, h.same]

theorem unschedule : Like R v v' (w.unschedule i) (w'.unschedule i) :=
  h.move (·.unschedule i) (fun v w => v.unschedule w i) fun _ => rfl

theorem schedule (ticket : Nat) (length : Span) :
    Like R v v' (w.schedule i ticket length) (w'.schedule i ticket length) :=
  h.move (·.schedule i ticket length) (fun v w => v.schedule w i ticket length) fun w =>
    (w.schedule_quiet i ticket length).session

theorem sleep (length : Span) : Like R v v' (w.sleep i length) (w'.sleep i length) :=
  h.move (·.sleep i length) (fun v w => v.sleep w i length) fun w => (w.sleep_quiet i length).session

theorem cancel : Like R v v' (w.cancel i) (w'.cancel i) :=
  h.move (·.cancel i) (fun v w => v.cancel w i) fun w => (w.cancel_quiet i).session

theorem finish : Like R v v' (w.finish i) (w'.finish i) :=
  h.move (·.finish i) (fun v w => v.finish w i) fun w => w.finish_session i

theorem watch (watchers : List Watcher) : Like R v v' (w.watch i watchers) (w'.watch i watchers) :=
  h.move (·.watch i watchers) (fun v w => v.watch w i watchers) fun _ => rfl

theorem atTurn : Like R v v' (w.atTurn i) (w'.atTurn i) := h.move (·.atTurn i) (fun v w => v.atTurn w i) fun _ => rfl

theorem busy (task? : Option Nat) : Like R v v' { w with busy? := task? } { w' with busy? := task? } :=
  h.move (fun w => { w with busy? := task? }) (fun _ _ => rfl) fun _ => rfl

theorem awaits (walk? : Option Nat) : Like R v v' { w with walk? } { w' with walk? } :=
  h.move (fun w => { w with walk? }) (fun _ _ => rfl) fun _ => rfl

theorem park : (w'.park i).1 = (w.park i).1 ∧ Like R v v' (w.park i).2 (w'.park i).2 := by
  have tickets := congrArg World.tickets h.same
  exact ⟨tickets, h.move (fun w => (w.park i).2) (fun v w => congrArg Prod.snd (v.park w i)) fun w =>
    (w.park_quiet i).session⟩

theorem spawn {x x' : Work α} (same : v.work x' = v'.work x) (watchers : List Watcher) :
    (w'.spawn x' watchers).1 = (w.spawn x watchers).1 ∧
      Like R v v' (w.spawn x watchers).2 (w'.spawn x' watchers).2 := by
  have spawned : (v.world w').spawn (v.work x') watchers = (v'.world w).spawn (v'.work x) watchers := by
    rw [same, h.same]
  rw [Lens.spawn, Lens.spawn] at spawned
  obtain ⟨task, rest⟩ := Prod.mk.inj spawned
  exact ⟨task, h.session, rest⟩

theorem isOver : w'.isOver i = w.isOver i := by rw [← v.isOver, h.same, v'.isOver]

theorem work? : (w'.work? i).map v.work = (w.work? i).map v'.work := by
  rw [← v.work?, h.same, v'.work?]

/-- A task that is at work in a run is at work at the very same in both worlds. -/
theorem works (pair : v.Pair v') (x : Work α) (inner : x.Inner) : w'.work? i = some x ↔ w.work? i = some x := by
  have work := h.work? i
  constructor
  · intro here
    rw [here] at work
    obtain ⟨y, there, same⟩ := Option.map_eq_some_iff.mp work.symm
    exact there.trans (congrArg some (pair.only y x same.symm (.inr inner)).symm)
  · intro here
    rw [here] at work
    obtain ⟨y, there, same⟩ := Option.map_eq_some_iff.mp work
    exact there.trans (congrArg some (pair.only x y same (.inl inner)))

theorem attempt? (pair : v.Pair v') : w'.attempt? i = w.attempt? i := by
  refine Option.ext fun a => ?_
  rw [attempt?_eq, attempt?_eq]
  exact h.works i pair _ (.attempt a)

theorem walkEnd? (pair : v.Pair v') : w'.walkEnd? i = w.walkEnd? i := by
  refine Option.ext fun e => ?_
  rw [Shows.walkEnd?_eq, Shows.walkEnd?_eq]
  exact exists_congr fun t => h.works i pair _ (.walk ⟨t, .over e⟩)

end Scheduler

/-! ### Attempts -/

section Attempts

variable (l : Likeness R) (pair : v.Pair v') (h : Like R v v' w w') (i : Nat)

section

include pair h

theorem attempt (a : Attempt) : Like R v v' (w.withWork i (.attempt a)) (w'.withWork i (.attempt a)) :=
  h.withWork i (pair.inner _ (.attempt a))

theorem attemptOver (a : Attempt) (y : Yield) : Like R v v' (w.attemptOver i a y) (w'.attemptOver i a y) :=
  (attempt pair h i { a with mode := .over y }).finish i

theorem attemptPaused (a : Attempt) {r r' : Pause × Process × Session} (halts : Halts R r r') :
    Like R v v' (w.attemptPaused i a r) (w'.attemptPaused i a r') := by
  obtain ⟨pause, rest, after⟩ := halts
  obtain ⟨x, p, s⟩ := r
  obtain ⟨x', p', s'⟩ := r'
  cases pause
  cases rest
  obtain ⟨q, collected?, mode⟩ := a
  have paused := h.withSession pair after
  cases x with
  | item y =>
      cases collected? with
      | none => exact attemptOver pair paused i _ _
      | some collected => exact (attempt pair paused i ⟨p, some (y :: collected), .working⟩).busy (some i)
  | sleep length insists =>
      exact (attempt pair paused i ⟨p, collected?, .asleep (if insists then some length else none)⟩).sleep i length
  | ended e => cases e <;> cases collected? <;> exact attemptOver pair paused i _ _

end

include l pair h

theorem attemptTurn (a : Attempt) (cancelled : Bool) :
    Like R v v' (w.attemptTurn i a cancelled) (w'.attemptTurn i a cancelled) := by
  obtain ⟨p, collected?, mode⟩ := a
  have resumes := attemptPaused pair h i ⟨p, collected?, mode⟩ (l.resume h.session p)
  cases mode with
  | «over» y => exact h
  | working => exact resumes
  | fresh =>
      cases cancelled with
      | false => exact resumes
      | true => exact attemptOver pair h i _ _
  | asleep insists? =>
      cases cancelled with
      | false => cases insists? <;> exact resumes
      | true =>
          cases insists? with
          | some length => exact (attempt pair h i ⟨p, collected?, .asleep none⟩).sleep i length
          | none => exact attemptPaused pair h i _ (l.interrupt h.session p)

end Attempts

/-! ### Traversals -/

section Walks

variable (l : Likeness R) (pair : v.Pair v') (h : Like R v v' w w') (i : Nat)

section

include pair h

theorem walkMode (k : Walk) (mode : WalkMode) : Like R v v' (w.walkMode i k mode) (w'.walkMode i k mode) :=
  h.withWork i (pair.inner _ (.walk _))

theorem walkOn (k : Walk) (mode : WalkMode) : Like R v v' (w.walkOn i k mode) (w'.walkOn i k mode) :=
  (walkMode pair h i k mode).busy (some i)

theorem walkOver (e : WalkEnd) : Like R v v' (w.walkOver i e) (w'.walkOver i e) :=
  (walkMode pair h i _ _).finish i

theorem walkClosed (k : Walk) (e : WalkEnd) {r r' : Pause × Process × Session} (halts : Halts R r r') :
    Like R v v' (w.walkClosed i k e r) (w'.walkClosed i k e r') := by
  obtain ⟨pause, rest, after⟩ := halts
  obtain ⟨x, p, s⟩ := r
  obtain ⟨x', p', s'⟩ := r'
  cases pause
  cases rest
  have closed := h.withSession pair after
  cases x with
  | item y => exact walkOn pair closed i _ _
  | sleep length insists => exact (walkMode pair closed i _ _).sleep i length
  | ended how =>
      cases how with
      | interrupted => exact walkOver pair closed i _
      | _ => exact walkOn pair closed i _ _

theorem walkAbandon (k : Walk) (attempt : Nat) (outOfTime : Bool) :
    Like R v v' (w.walkAbandon i k attempt outOfTime) (w'.walkAbandon i k attempt outOfTime) := by
  obtain ⟨ticket, parked⟩ := h.park i
  unfold World.walkAbandon
  generalize w.park i = parked₁ at ticket parked
  generalize w'.park i = parked₂ at ticket parked
  obtain ⟨n, w₁⟩ := parked₁
  obtain ⟨n', w₁'⟩ := parked₂
  cases ticket
  exact ((walkMode pair parked i _ _).watch attempt _).cancel attempt

end

include l pair h

theorem walkWait (t : Traversal) (p : Process) : Like R v v' (w.walkWait i t p) (w'.walkWait i t p) := by
  let waits (w : World α) (n : Nat) (patience : Double) : World α :=
    let spawned := w.spawn (.attempt (.ofProcess p)) [.release i n]
    (spawned.2.walkMode i ⟨t, .awaiting spawned.1⟩ (.awaiting spawned.1)).schedule i n patience.span
  have asks : ∀ {w w' : World α} {n n' patience patience'}, Like R v v' w w' → n' = n → patience' = patience →
      Like R v v' (waits w n patience) (waits w' n' patience') := by
    rintro w w' _ n _ patience h rfl rfl
    have fresh : Work.Inner (.attempt (.ofProcess p) : Work α) := .attempt _
    obtain ⟨task, spawned⟩ := h.spawn (pair.inner _ fresh) [.release i n]
    simp only [waits, task]
    exact (walkMode pair spawned i _ _).schedule i n _
  obtain ⟨ticket, parked⟩ := h.park i
  exact asks parked ticket (l.patience h.session)

theorem walkMove {r r' : Move × Session} (likens : Likens R r r') :
    Like R v v' (w.walkMove i r) (w'.walkMove i r') := by
  obtain ⟨result, after⟩ := likens
  obtain ⟨m, s⟩ := r
  obtain ⟨m', s'⟩ := r'
  cases result
  have moved := h.withSession pair after
  cases m with
  | go t => exact walkOn pair moved i _ _
  | wait p t => exact walkWait l pair moved i t p
  | delay id t =>
      unfold World.walkMove
      simp only
      rw [l.delays after]
      exact (walkMode pair moved i _ _).sleep i _
  | finished => exact walkOn pair moved i _ _
  | fail f t => exact walkOn pair (h.withSession pair (l.note after (.failed f))) i _ _

theorem walkTake (k : Walk) (a : Attempt) (outOfTime : Bool) :
    Like R v v' (w.walkTake i k a outOfTime) (w'.walkTake i k a outOfTime) := by
  have answers := fun t pause source => walkMove l pair h i (l.answer h.session t pause source)
  unfold World.walkTake
  obtain ⟨p, collected?, mode⟩ := a
  cases mode with
  | «over» y =>
      cases y with
      | items vs => exact walkOn pair h i _ _
      | pause x =>
          cases x with
          | ended e =>
              cases e with
              | interrupted =>
                  simp only
                  split
                  · split
                    · exact walkMove l pair h i (Likeness.fails (l.blockTimedOut h.session _) _)
                    · exact walkOn pair h i _ _
                  · exact walkOn pair h i _ _
              | _ => exact answers _ _ _
          | _ => exact answers _ _ _
  | _ => exact h

theorem walkUnwind (k : Walk) (e : WalkEnd) : Like R v v' (w.walkUnwind i k e) (w'.walkUnwind i k e) := by
  unfold World.walkUnwind
  split
  · exact walkOver pair h i e
  · simp only
    split
    · exact walkClosed pair h i _ e (l.close h.session _)
    · exact walkClosed pair h i _ e (l.close h.session _)
    · exact walkOn pair h i _ _

/-- A turn of a traversal. If it opens, or goes on, it has to do so alike. -/
theorem walkTurn (k : Walk) (cancelled : Bool)
    (opens : k.mode = .opening → cancelled = false → Likens R w.session.opening w'.session.opening)
    (goes : k.mode = .walking → cancelled = false →
      Likens R (k.traversal.step w.session) (k.traversal.step w'.session)) :
    Like R v v' (w.walkTurn i k cancelled) (w'.walkTurn i k cancelled) := by
  obtain ⟨t, mode⟩ := k
  have cut := walkOn pair h i ⟨t, mode⟩ (.unwinding .cancelled)
  cases mode with
  | «over» e => exact h
  | opening =>
      cases cancelled with
      | true => exact walkOver pair h i _
      | false =>
          have likens := opens rfl rfl
          unfold World.walkTurn
          simp only
          generalize w.session.opening = r at likens ⊢
          obtain ⟨x, s⟩ := r
          obtain ⟨s', same, after⟩ := likens.split
          rw [same]
          cases x with
          | ok entries => exact walkOn pair (h.withSession pair after) i _ _
          | error f => exact walkOver pair (h.withSession pair after) i _
  | walking =>
      cases cancelled with
      | true => exact cut
      | false => exact walkMove l pair h i (goes rfl rfl)
  | awaiting attempt =>
      have waits := h.unschedule i
      unfold World.walkTurn
      simp only
      rw [waits.isOver, waits.attempt? attempt pair]
      cases (w.unschedule i).isOver attempt <;> cases (w.unschedule i).attempt? attempt
      case true.some a => exact walkTake l pair waits i _ a false
      all_goals exact walkAbandon pair waits i _ attempt _
  | abandoning attempt outOfTime =>
      cases cancelled with
      | true => exact cut
      | false =>
          unfold World.walkTurn
          simp only
          rw [h.attempt? attempt pair]
          cases w.attempt? attempt with
          | none => exact h
          | some a =>
              simp only
              split
              · exact walkTake l pair h i _ a true
              · exact walkOn pair h i _ _
  | delaying id =>
      cases cancelled with
      | true => exact cut
      | false =>
          have done : Likens R (Move.go t, w.session.completed id) (Move.go t, w'.session.completed id) :=
            ⟨rfl, l.completed h.session id⟩
          exact walkMove l pair h i done
  | unwinding e =>
      cases cancelled with
      | true => exact cut
      | false => exact walkUnwind l pair h i _ e
  | closing p insists? e =>
      cases cancelled with
      | false => cases insists? <;> exact walkClosed pair h i _ e (l.resume h.session p)
      | true =>
          cases insists? with
          | some length => exact (walkMode pair h i _ _).sleep i length
          | none => exact walkClosed pair h i _ e (l.interrupt h.session p)

end Walks

/-! ### Executions -/

section Executions

variable (l : Likeness R) (pair : v.Pair v') (h : Like R v v' w w') (i : Nat)
include l pair h

theorem close (began : Rat) (listener : Nat) (outcome : Outcome) {s t : Session} (like : R s t) :
    (w.close began listener outcome s).1.Like R (w'.close began listener outcome t).1 ∧
      Like R v v' (w.close began listener outcome s).2 (w'.close began listener outcome t).2 := by
  have now : (v.world w').now = (v'.world w).now := by rw [h.same]
  replace now : w'.now = w.now := now
  have closed := l.closed like
  refine ⟨⟨rfl, closed, ?_, rfl⟩, h.withSession pair closed⟩
  exact congrArg (· - began) now

theorem abort (p : Pending) :
    (w.abort p).1.Like R (w'.abort p).1 ∧ Like R v v' (w.abort p).2 (w'.abort p).2 :=
  close l pair (h.cancel p.walk) p.began p.listener .cancelled (l.aborted h.session)

theorem conclude (p : Pending) (cancelled : Bool) :
    (w.conclude i p cancelled).1.Like R (w'.conclude i p cancelled).1 ∧
      Like R v v' (w.conclude i p cancelled).2 (w'.conclude i p cancelled).2 := by
  have waits := h.unschedule i
  unfold World.conclude
  simp only
  rw [waits.walkEnd? p.walk pair]
  split
  · exact abort l pair waits p
  · split
    · exact close l pair waits _ _ _ (l.finished waits.session)
    · exact close l pair waits _ _ _ (l.failedWith waits.session _)
    · exact abort l pair waits p
    · rw [l.lasts waits.session]
      exact close l pair (waits.cancel p.walk) _ _ _ (l.failedWith (l.asked waits.session) _)

end Executions

/-! ### Turns -/

/-- The same task comes next in both worlds. -/
theorem upNext (h : Like R v v' w w') {u : World α} {task : Nat} (up : w.upNext = some (u, task)) :
    ∃ u', w'.upNext = some (u', task) ∧ Like R v v' u u' := by
  have seen := v.upNext w'
  rw [h.same, v'.upNext, up] at seen
  obtain ⟨⟨u', task'⟩, up', same⟩ := Option.map_eq_some_iff.mp seen.symm
  obtain ⟨same, rfl⟩ := Prod.mk.inj same
  refine ⟨u', up', ?_, same⟩
  rw [(upNext_quiet up).session, (upNext_quiet up').session]
  exact h.session

theorem upNext_none (h : Like R v v' w w') (nobody : w.upNext = none) : w'.upNext = none := by
  have seen := v.upNext w'
  rw [h.same, v'.upNext, nobody] at seen
  exact Option.map_eq_none_iff.mp seen.symm

theorem ticks (h : Like R v v' w w') {u : World α} (ticks : w.ticks = some u) :
    ∃ u', w'.ticks = some u' ∧ Like R v v' u u' := by
  have seen := v.ticks w'
  rw [h.same, v'.ticks, ticks] at seen
  obtain ⟨u', ticks', same⟩ := Option.map_eq_some_iff.mp seen.symm
  refine ⟨u', ticks', ?_, same⟩
  rw [(ticks_quiet ticks).session, (ticks_quiet ticks').session]
  exact h.session

/-- A task in its turn works at what looks the same in both worlds. -/
theorem turn (h : Like R v v' w w') (task : Nat) : (w.turn task = w ∧ w'.turn task = w') ∨
    ∃ x x' cancelled, w.work? task = some x ∧ w'.work? task = some x' ∧ v.work x' = v'.work x ∧
      w.turn task = (w.atTurn task).works task x cancelled ∧
      w'.turn task = (w'.atTurn task).works task x' cancelled := by
  have tasks : (w'.tasks[task]?).map v.task = (w.tasks[task]?).map v'.task := by
    rw [← Lens.tasks, h.same, Lens.tasks]
  cases found : w.tasks[task]? with
  | none =>
      rw [found] at tasks
      have none' := Option.map_eq_none_iff.mp tasks
      left
      unfold World.turn
      rw [found, none']
      exact ⟨rfl, rfl⟩
  | some t =>
      rw [found] at tasks
      obtain ⟨t', found', seen⟩ := Option.map_eq_some_iff.mp tasks
      obtain ⟨x, standing, cancelled, watchers⟩ := t
      obtain ⟨x', standing', cancelled', watchers'⟩ := t'
      have looks : v.work x' = v'.work x := congrArg Task.work seen
      obtain rfl : standing' = standing := congrArg Task.standing seen
      obtain rfl : cancelled' = cancelled := congrArg Task.cancelled seen
      exact .inr ⟨x, x', cancelled' || standing' == .interrupted, by rw [World.work?, found]; rfl,
        by rw [World.work?, found']; rfl, looks, turn_eq found, turn_eq found'⟩

/-- A step gives the same task its turn in both worlds, or none in either. -/
theorem step (h : Like R v v' w w') {w₁ : World α} (step : w.step = some w₁) :
    (∃ w₁', w'.step = some w₁' ∧ Quiet w w₁ ∧ Quiet w' w₁' ∧ Like R v v' w₁ w₁') ∨
      ∃ u u' task x x' cancelled, Quiet w u ∧ Quiet w' u' ∧ Like R v v' u u' ∧ u.work? task = some x ∧
        u'.work? task = some x' ∧ v.work x' = v'.work x ∧ w₁ = u.works task x cancelled ∧
        w'.step = some (u'.works task x' cancelled) := by
  rw [World.step_upNext] at step ⊢
  cases up : w.upNext with
  | none =>
      rw [up] at step
      rw [h.upNext_none up]
      obtain ⟨w₁', step', like⟩ := h.ticks step
      exact .inl ⟨w₁', step', ticks_quiet step, ticks_quiet step', like⟩
  | some next =>
      obtain ⟨u, task⟩ := next
      obtain ⟨u', up', like⟩ := h.upNext up
      rw [up] at step
      rw [up']
      obtain rfl : u.turn task = w₁ := Option.some.inj step
      rcases like.turn task with ⟨still, still'⟩ | ⟨x, x', cancelled, here, here', looks, turns, turns'⟩
      · exact .inl ⟨u', congrArg some still', still.symm ▸ upNext_quiet up, upNext_quiet up', still.symm ▸ like⟩
      · have quiet := u.atTurn_quiet task
        have quiet' := u'.atTurn_quiet task
        exact .inr ⟨u.atTurn task, u'.atTurn task, task, x, x', cancelled, (upNext_quiet up).trans quiet,
          (upNext_quiet up').trans quiet', like.atTurn task, (quiet.work task).trans here,
          (quiet'.work task).trans here', looks, turns, congrArg some turns'⟩

/-- When no step is left in one world, none is left in the other. -/
theorem step_none (h : Like R v v' w w') (none_ : w.step = none) : w'.step = none := by
  rw [World.step_upNext] at none_ ⊢
  cases up : w.upNext with
  | some next =>
      rw [up] at none_
      cases none_
  | none =>
      rw [up] at none_
      rw [h.upNext_none up]
      have seen := v.ticks w'
      have ticks : w.ticks = none := none_
      rw [h.same, v'.ticks, ticks] at seen
      exact Option.map_eq_none_iff.mp seen.symm

end Like

end World

end BlockGraph
