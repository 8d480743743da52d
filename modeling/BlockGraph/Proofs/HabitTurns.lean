import BlockGraph.Proofs.Habits
/-!
Habits across turns: what a relation between sessions that every small change respects says of a whole turn
of a task, and of a step of a world.
-/
namespace BlockGraph

/-- A relation that holds across the beginnings of executions, too. -/
structure Begins (R : Session → Session → Prop) : Prop extends Reacts R where
  refused : ∀ s n f, R s { s with heard := s.heard.push (n, .error f) }
  spoiled : ∀ s options listener, s.running = false → R s { s.cleared with options, listener }
  taken : ∀ s options listener bindings, s.running = false → R s (s.taken options listener bindings)

/-- A relation that holds across all that happens to a session, but for what is stored and recorded. -/
structure Lifelong (R : Session → Session → Prop) : Prop extends Visits R, Begins R where
  marked : ∀ s status stopRequested error? errorCount successCount,
    R s { s with status, stopRequested, error?, errorCount, successCount }
  closed : ∀ s, R s s.closed

/-- Whether a traversal has elements under way, or is about to enter others. -/
def Walk.Live (k : Walk) : Prop := k.mode ≠ .opening ∧ ∀ e, k.mode ≠ .over e

/-- Whether a relation holds across what a task stores and records. -/
def Work.Writes {α : Type} (R : Session → Session → Prop) (s : Session) : Work α → Prop
  | .attempt a => a.process.Stores R s
  | .walk k => k.Live →
      k.traversal.Writes R s ∧ ∀ p insists? e, k.mode = .closing p insists? e → p.Stores R s
  | _ => True

/-- Whether a relation holds across what a caller does to a session. -/
def Command.Respects {α : Type} (R : Session → Session → Prop) : Command α → Prop
  | .act f => ∀ s, R s (f s).2
  | _ => True

/-- What callers may do to a session themselves: they look at it, ask for a stop, reset it, or change what its
registry has. -/
inductive Session.Handled (s : Session) : Session → Prop
  | seen : Handled s s
  | stopped : Handled s s.stop
  | reset {s' : Session} : s.reset? = some s' → Handled s s'
  | altered (registry : Registry) (journal : Array JournalEntry) : Handled s { s with registry, journal }

/-- A command of a caller that does no more to a session. -/
def Command.Handles {α : Type} : Command α → Prop
  | .act f => ∀ s : Session, s.Handled (f s).2
  | .execute r | .start r => r.Proper
  | _ => True

theorem Session.cleared_of_reset? {s s' : Session} (free : s.reset? = some s') :
    s.running = false ∧ s' = s.cleared := by
  unfold reset? at free
  split at free
  · cases free
  · rename_i idle
    exact ⟨Bool.eq_false_iff.mpr idle, (Option.some.inj free).symm⟩

theorem Session.Handled.reacts {R : Session → Session → Prop} (r : Reacts R)
    (altered : ∀ s registry, R s { s with registry }) {s s' : Session} (h : s.Handled s') : R s s' := by
  cases h with
  | seen => exact r.refl s
  | stopped => exact r.stop s
  | reset free =>
      obtain ⟨idle, same⟩ := Session.cleared_of_reset? free
      exact same ▸ r.reset s idle
  | altered registry journal => exact r.trans (altered s registry) (r.reported _ journal)

namespace Command.Handles

variable {α : Type} {x : Command α}

theorem proper (h : x.Handles) : x.Proper := by
  cases x with
  | act f =>
      intro s
      have handled : s.Handled (f s).2 := h s
      generalize (f s).2 = s' at handled ⊢
      cases handled with
      | seen => exact .refl
      | stopped => exact s.stop_deeds
      | reset free =>
          obtain ⟨idle, same⟩ := Session.cleared_of_reset? free
          exact same ▸ .single (.reset idle)
      | altered registry journal => exact (Relation.ReflTransGen.single (.registry registry)).tail (.report journal)
  | execute r => exact h
  | start r => exact h
  | _ => exact trivial

theorem respects {R : Session → Session → Prop} (r : Reacts R)
    (altered : ∀ s registry, R s { s with registry }) (h : x.Handles) : x.Respects R := by
  cases x with
  | act f => exact fun s => Session.Handled.reacts r altered (h s)
  | _ => exact trivial

end Command.Handles

variable {α : Type} {R : Session → Session → Prop} {w : World α} {task : Nat}

/-- What comes after a change that leaves the session alone. -/
theorem Session.along {s s₁ s₂ : Session} (before : R s s₁) (same : s₂ = s₁) : R s s₂ := same ▸ before

/-! ### Logic and traversals -/

theorem Habit.attemptTurn (h : Habit R) {a : Attempt} (here : w.work? task = some (.attempt a))
    (stores : a.process.Stores R w.session) (cancelled : Bool) :
    R w.session (w.attemptTurn task a cancelled).session := by
  rcases World.attemptTurn_session here cancelled with same | same | same
  · exact same ▸ h.refl _
  · exact same ▸ h.resume stores
  · exact same ▸ h.interrupt stores

theorem World.walkClosed_session (w : World α) (task : Nat) (k : Walk) (e : WalkEnd)
    (r : Pause × Process × Session) : (w.walkClosed task k e r).session = r.2.2 := by
  obtain ⟨pause, p, s⟩ := r
  cases pause with
  | item v => rfl
  | sleep length insists => exact (World.sleep_quiet _ _ _).session
  | ended how =>
      cases how with
      | interrupted => exact World.finish_session _ _
      | _ => rfl

namespace Visits

variable (h : Visits R) {s : Session}
include h

theorem walkMove {r : Move × Session} (moved : R s r.2) : R s (w.walkMove task r).session := by
  rw [World.walkMove_session]
  obtain ⟨m, s'⟩ := r
  cases m with
  | fail f t => exact h.trans moved (h.noted s' _)
  | _ => exact moved

theorem walkTake {k : Walk} (writes : k.traversal.Writes R w.session) (a : Attempt) (outOfTime : Bool) :
    R w.session (w.walkTake task k a outOfTime).session := by
  have records := Traversal.records_withSource writes.records (World.sourceOf a)
  have answers : ∀ pause, R w.session
      (w.walkMove task ((k.traversal.withSource (World.sourceOf a)).answer w.session pause
        (World.sourceOf a))).session := fun pause =>
    h.walkMove (h.answer records w.session pause (World.sourceOf a))
  unfold World.walkTake
  obtain ⟨p, collected?, mode⟩ := a
  cases mode with
  | «over» y =>
      cases y with
      | items vs => exact h.refl _
      | pause x =>
          cases x with
          | ended e =>
              cases e with
              | interrupted =>
                  simp only
                  split
                  · split
                    · exact h.walkMove (h.blockTimedOut w.session _)
                    · exact h.refl _
                  · exact h.refl _
              | _ => exact answers _
          | _ => exact answers _
  | _ => exact h.refl _

theorem walkUnwind {k : Walk} (writes : k.traversal.Writes R w.session) (e : WalkEnd) :
    R w.session (w.walkUnwind task k e).session := by
  unfold World.walkUnwind
  split
  · exact Session.along (h.refl _) (World.finish_session _ _)
  · rename_i frame outer stack
    have here : frame ∈ k.traversal.stack.head? := by rw [stack]; rfl
    have stores := writes.stores frame here
    simp only
    split
    · rename_i p source
      exact Session.along (h.close (stores p (by rw [source]; rfl))) (w.walkClosed_session task _ e _)
    · rename_i p source
      exact Session.along (h.close (stores p (by rw [source]; rfl))) (w.walkClosed_session task _ e _)
    · exact h.refl _

theorem walkTurn {k : Walk} (writes : (Work.walk k : Work α).Writes R w.session) (cancelled : Bool) :
    R w.session (w.walkTurn task k cancelled).session := by
  obtain ⟨t, mode⟩ := k
  cases mode with
  | «over» e => exact h.refl _
  | opening =>
      cases cancelled with
      | true => exact Session.along (h.refl _) (World.finish_session _ _)
      | false =>
          have opened := h.opening w.session
          unfold World.walkTurn
          simp only
          split <;> rename_i same <;> rw [same] at opened
          · exact opened
          · exact Session.along opened (World.finish_session _ _)
  | walking =>
      cases cancelled with
      | true => exact h.refl _
      | false => exact h.walkMove (h.step (writes ⟨nofun, nofun⟩).1)
  | awaiting attempt =>
      obtain ⟨writes, _⟩ := writes ⟨nofun, nofun⟩
      unfold World.walkTurn
      simp only
      split
      · exact h.walkTake (w := w.unschedule task) writes _ false
      · refine Session.along (h.refl _) ?_
        have parked := ((w.unschedule_quiet task).trans ((w.unschedule task).park_quiet task)).session
        exact (World.cancel_quiet _ attempt).session.trans parked
  | abandoning attempt outOfTime =>
      obtain ⟨writes, _⟩ := writes ⟨nofun, nofun⟩
      cases cancelled with
      | true => exact h.refl _
      | false =>
          unfold World.walkTurn
          simp only
          split
          · split
            · exact h.walkTake writes _ true
            · exact h.refl _
          · exact h.refl _
  | delaying id =>
      cases cancelled with
      | true => exact h.refl _
      | false => exact h.walkMove (h.completed w.session id)
  | unwinding e =>
      cases cancelled with
      | true => exact h.refl _
      | false => exact h.walkUnwind (writes ⟨nofun, nofun⟩).1 e
  | closing p insists? e =>
      have stores := (writes ⟨nofun, nofun⟩).2 p insists? e rfl
      cases cancelled with
      | false => cases insists? <;> exact Session.along (h.resume stores) (w.walkClosed_session task _ e _)
      | true =>
          cases insists? with
          | some length => exact Session.along (h.refl _) (World.sleep_quiet _ _ _).session
          | none => exact Session.along (h.interrupt stores) (w.walkClosed_session task _ e _)

end Visits

/-- Whatever logic and traversals do to a session: each relation holds across it that holds across visits,
whatever is stored. -/
def Session.Drifts (s s' : Session) : Prop :=
  ∀ R : Session → Session → Prop, Visits R → (∀ s run slots, R s (s.withSlots run slots)) → R s s'

theorem World.works_drifts {x : Work α} (here : w.work? task = some x) (inner : x.Inner) (cancelled : Bool) :
    w.session.Drifts (w.works task x cancelled).session := by
  intro R visits writes
  have stores := visits.toHabit.stores_of_withSlots writes
  cases inner with
  | attempt a => exact visits.toHabit.attemptTurn here (stores _ _) cancelled
  | walk k =>
      refine visits.walkTurn (fun _ => ⟨⟨fun frame _ s e => ?_, fun _ _ p _ => stores p _⟩,
        fun p _ _ _ => stores p _⟩) cancelled
      exact visits.trans (writes s _ _) (visits.noted _ _)

/-! ### Executions and callers -/

namespace Begins

variable (h : Begins R)
include h

theorem begin (w : World α) (task : Nat) (r : Request) : R w.session (w.begin task r).2.session := by
  have told := fun options f => h.tell 2 w.session options r.listener (.error f) (h.refused _ _ _)
  unfold World.begin
  cases r.options with
  | error f => exact h.refl _
  | ok options =>
      simp only
      split
      · exact told options _
      · rename_i idle
        have idle := Bool.eq_false_iff.mpr idle
        split
        · exact told options _
        · split
          · exact h.spoiled _ options r.listener idle
          · rename_i bindings _
            refine Session.along (h.taken w.session options r.listener bindings idle) ?_
            refine (World.schedule_quiet _ task _ _).session.trans ?_
            exact (World.park_quiet (w.withSession _) task).session

theorem command (commands : List (Command α)) (acts : ∀ x ∈ commands, x.Respects R) (w : World α) (task : Nat)
    (started : List Nat) : R w.session (w.command task started commands).session := by
  induction commands generalizing w started with
  | nil => exact Session.along (h.refl _) (World.finish_session _ _)
  | cons x rest ih =>
      have ih := ih fun x member => acts x (List.mem_cons_of_mem _ member)
      cases x with
      | act f =>
          have acted := acts (.act f) List.mem_cons_self w.session
          exact h.trans acted (ih ((w.withSession (f w.session).2).reply (.acted (f w.session).1)) started)
      | wait length => exact Session.along (h.refl _) (World.sleep_quiet _ _ _).session
      | execute r =>
          have begun := h.begin w task r
          unfold World.command
          split <;> rename_i e w' same <;> rw [same] at begun
          · exact h.trans begun (ih (w'.reply (.executed e)) started)
          · exact begun
      | start r => exact ih (w.spawn (.runner (.fresh r)) []).2 _
      | cancel =>
          cases started with
          | nil => exact ih w []
          | cons runner older =>
              have same : (w.cancel runner).session = w.session := (w.cancel_quiet runner).session
              exact same ▸ ih (w.cancel runner) (runner :: older)
      | join =>
          cases started with
          | nil => exact ih w []
          | cons runner older =>
              unfold World.command
              simp only
              cases w.execution? runner with
              | some e => exact ih (w.reply (.executed e)) older
              | none => exact Session.along (h.refl _) (w.park_quiet task).session

/-- A turn of an execution beside its caller that has not begun to wait. -/
theorem runnerTurn {m : RunnerMode} (free : (Work.runner m : Work α).pending? = none) (cancelled : Bool) :
    R w.session (w.runnerTurn task m cancelled).session := by
  cases m with
  | «over» e => exact h.refl _
  | pending p => cases free
  | fresh r =>
      cases cancelled with
      | true => exact Session.along (h.refl _) (World.finish_session _ _)
      | false =>
          have begun := h.begin w task r
          unfold World.runnerTurn
          simp only
          split <;> rename_i same <;> rw [same] at begun
          · exact Session.along begun (World.finish_session _ _)
          · exact begun

/-- A turn of a caller that waits for no execution. -/
theorem callerTurn {k : Caller α} (free : (Work.caller k).pending? = none)
    (acts : ∀ x ∈ k.commands, x.Respects R) (cancelled : Bool) :
    R w.session (w.callerTurn task k cancelled).session := by
  obtain ⟨commands, mode, started⟩ := k
  have does := fun w => h.command commands acts w task started
  cases mode with
  | «over» => exact h.refl _
  | ready => exact does w
  | waiting => exact does (w.reply .waited)
  | executing p => cases free
  | joining runner =>
      unfold World.callerTurn
      simp only
      split
      · rename_i e _
        exact does (w.reply (.executed e))
      · exact does w

end Begins

/-- A failure is logged, reported and told once it is counted. -/
theorem Habit.failedWith (h : Habit R) (refused : ∀ s n f, R s { s with heard := s.heard.push (n, .error f) })
    (s : Session) (f : RunFault) :
    R { s with errorCount := s.errorCount + 1, status := .failed, error? := some f.message } (s.failedWith f) :=
  h.trans (h.trans (h.say _ _ (by simp)) (h.reported _ _)) (h.tell 2 _ _ _ _ (refused _ _ _))

namespace Lifelong

variable (h : Lifelong R)
include h

theorem failedWith (s : Session) (f : RunFault) : R s (s.failedWith f) :=
  h.trans (h.marked s .failed s.stopRequested (some f.message) (s.errorCount + 1) s.successCount)
    (h.toHabit.failedWith h.refused s f)

theorem finished (s : Session) : R s s.finished := by
  unfold Session.finished
  split
  · exact h.trans (h.marked s .stopped s.stopRequested s.error? s.errorCount s.successCount) (h.say _ _ (by simp))
  · exact h.trans (h.marked s .completed s.stopRequested s.error? s.errorCount (s.successCount + 1))
      (h.say _ _ (by simp))

theorem aborted (s : Session) : R s s.aborted :=
  h.trans (h.marked s .stopped true s.error? s.errorCount s.successCount) (h.say _ _ (by simp))

theorem conclude (w : World α) (task : Nat) (p : Pending) (cancelled : Bool) :
    R w.session (w.conclude task p cancelled).2.session := by
  have ends := fun {s} (said : R w.session s) => h.trans said (h.closed s)
  have aborted : R w.session ((w.unschedule task).abort p).2.session := by
    exact ends (h.aborted w.session)
  unfold World.conclude
  simp only
  split
  · exact aborted
  · split
    · exact ends (h.finished w.session)
    · exact ends (h.failedWith w.session _)
    · exact aborted
    · exact ends (h.trans (h.marked w.session w.session.status true w.session.error? w.session.errorCount
        w.session.successCount) (h.failedWith _ _))

theorem runnerTurn (m : RunnerMode) (cancelled : Bool) :
    R w.session (w.runnerTurn task m cancelled).session := by
  cases m with
  | pending p =>
      exact Session.along (h.conclude w task p cancelled) (World.finish_session _ _)
  | _ => exact h.toBegins.runnerTurn rfl cancelled

theorem callerTurn {k : Caller α} (acts : ∀ x ∈ k.commands, x.Respects R) (cancelled : Bool) :
    R w.session (w.callerTurn task k cancelled).session := by
  obtain ⟨commands, mode, started⟩ := k
  cases mode with
  | executing p =>
      have concluded := h.conclude w task p cancelled
      unfold World.callerTurn
      simp only
      generalize w.conclude task p cancelled = r at concluded
      exact h.trans concluded (h.toBegins.command commands acts (r.2.reply (.executed r.1)) task started)
  | _ => exact h.toBegins.callerTurn rfl acts cancelled

/-- What a task does in its turn. -/
theorem works {x : Work α} (here : w.work? task = some x) (writes : x.Writes R w.session)
    (acts : ∀ k, x = .caller k → ∀ y ∈ k.commands, y.Respects R) (cancelled : Bool) :
    R w.session (w.works task x cancelled).session := by
  cases x with
  | caller k => exact h.callerTurn (acts k rfl) cancelled
  | runner m => exact h.runnerTurn m cancelled
  | walk k => exact h.walkTurn writes cancelled
  | attempt a => exact h.attemptTurn here writes cancelled

end Lifelong

end BlockGraph
