import BlockGraph.Proofs.ViewMoves
/-!
Stages of a traversal under a view: a traversal that is left to itself comes to what it comes to without
the view, stage by stage.
-/
namespace BlockGraph

/-- An element that is being closed has paused; what comes of that leaves the session alone. -/
theorem Stage.closed_session (t : Traversal) (e : WalkEnd) (r : Pause × Process × Session) :
    (Stage.closed t e r).2 = r.2.2 := by
  obtain ⟨pause, p, s⟩ := r
  cases pause with
  | ended how => cases how <;> rfl
  | _ => rfl

namespace View

variable (v : View)

def attempt (a : Attempt) : Attempt := { a with process := v.process a.process }

def stage : Stage → Stage
  | .opening => .opening
  | .walking t => .walking (v.traversal t)
  | .awaiting t a given? => .awaiting (v.traversal t) (v.attempt a) given?
  | .delaying t id => .delaying (v.traversal t) id
  | .unwinding t e => .unwinding (v.traversal t) e
  | .closing t p insists? e => .closing (v.traversal t) (v.process p) insists? e
  | .over e => .over e

/-- What a stage comes to. -/
def staged (r : Stage × Session) : Stage × Session := (v.stage r.1, v.session r.2)

variable {v} {t : Traversal} {s : Session}

theorem ofProcess (p : Process) : Attempt.ofProcess (v.process p) = v.attempt (.ofProcess p) := by
  obtain ⟨c, progress⟩ := p
  cases progress with
  | fresh logic =>
      show (⟨v.process ⟨c, .fresh logic⟩, if (v.logic logic).form = .deferred then some [] else none,
        .fresh⟩ : Attempt) = _
      rw [form]
      rfl
  | _ => rfl

theorem settle (r : Move × Session) : Stage.settle (v.moved r) = v.staged (Stage.settle r) := by
  obtain ⟨m, s⟩ := r
  cases m with
  | wait p t => exact congrArg (fun a => (Stage.awaiting (v.traversal t) a none, v.session s)) (ofProcess p)
  | _ => rfl

theorem pausedAttempt (a : Attempt) (pause : Pause) (p : Process) :
    (v.attempt a).paused pause (v.process p) = v.attempt (a.paused pause p) := by
  obtain ⟨q, collected?, mode⟩ := a
  cases pause with
  | sleep length insists => rfl
  | item x => cases collected? <;> rfl
  | ended e =>
      cases e with
      | normal => cases collected? <;> rfl
      | _ => rfl

theorem sourceOf (a : Attempt) : World.sourceOf (v.attempt a) = v.source (World.sourceOf a) := by
  obtain ⟨p, collected?, mode⟩ := a
  cases mode with
  | «over» y => cases y <;> rfl
  | _ => rfl

theorem settled {r : Move × Session} (clear : v.Clear s (Stage.settle r).2) : v.Clear s r.2 := by
  obtain ⟨m, s'⟩ := r
  cases m with
  | fail f t => exact ⟨clear.stored, clear.calm⟩
  | _ => exact clear

theorem closed (t : Traversal) (e : WalkEnd) (r : Pause × Process × Session) :
    Stage.closed (v.traversal t) e (v.paused r) = v.staged (Stage.closed t e r) := by
  obtain ⟨pause, p, s⟩ := r
  cases pause with
  | ended how => cases how <;> rfl
  | _ => rfl

theorem took (t : Traversal) (a : Attempt) (outOfTime : Bool) (y : Yield)
    (clear : v.Clear s (Stage.took t a outOfTime y s).2) :
    Stage.took (v.traversal t) (v.attempt a) outOfTime y (v.session s) =
      v.staged (Stage.took t a outOfTime y s) := by
  have put : (v.traversal t).withSource (World.sourceOf (v.attempt a)) =
      v.traversal (t.withSource (World.sourceOf a)) := by rw [sourceOf, withSource]
  unfold Stage.took at clear ⊢
  simp only [put] at clear ⊢
  generalize t.withSource (World.sourceOf a) = t at clear ⊢
  have answers : ∀ pause, v.Clear s (Stage.settle (t.answer s pause (World.sourceOf a))).2 →
      Stage.settle ((v.traversal t).answer (v.session s) pause (World.sourceOf (v.attempt a))) =
        v.staged (Stage.settle (t.answer s pause (World.sourceOf a))) := fun pause clear => by
    rw [sourceOf, answer t pause _ (settled clear), settle]
  cases y with
  | items vs => rfl
  | pause p =>
      cases p with
      | ended e =>
          cases e with
          | interrupted =>
              obtain ⟨entries, stack⟩ := t
              cases outOfTime with
              | false => rfl
              | true =>
                  cases stack with
                  | nil => rfl
                  | cons frame outer =>
                      have timedOut := blockTimedOut (v := v) (s := s) (e := frame.element)
                        ⟨clear.stored, clear.calm⟩
                      show Stage.settle (.fail ((v.session s).blockTimedOut frame.element).1 _,
                        ((v.session s).blockTimedOut frame.element).2) = _
                      rw [timedOut]
                      rfl
          | _ => exact answers _ clear
      | _ => exact answers _ clear

/-- A traversal that is left to itself comes to the same under a view. -/
theorem next {st : Stage} (sound : st.Sound s)
    (clear : ∀ r, st.next s = some r → v.Clear s r.2) :
    (v.stage st).next (v.session s) = (st.next s).map v.staged := by
  cases st with
  | opening =>
      have opened : v.Clear s s.opening.2 := by
        simp only [Stage.next] at clear
        split at clear <;> rename_i same <;> rw [same] <;> exact clear _ rfl
      simp only [stage, Stage.next]
      rw [opening opened]
      cases s.opening with
      | mk r s₁ => cases r <;> rfl
  | walking t =>
      have stepped := step (v := v) t sound.1 (settled (clear _ rfl))
      simp only [stage, Stage.next]
      rw [stepped, settle]
      rfl
  | awaiting t a given? =>
      have known : a.process.Known s := sound.2.1
      have resumed := resume (v := v) known
      obtain ⟨p, collected?, mode⟩ := a
      cases mode with
      | «over» y => exact congrArg some (took t ⟨p, collected?, .over y⟩ (given? == some true) y (clear _ rfl))
      | _ =>
          show some (Stage.awaiting (v.traversal t) (Attempt.paused (v.attempt ⟨p, collected?, _⟩)
            ((v.process p).resume (v.session s)).1 ((v.process p).resume (v.session s)).2.1) given?,
            ((v.process p).resume (v.session s)).2.2) = _
          rw [resumed (clear _ rfl), paused, pausedAttempt]
          rfl
  | delaying t id =>
      have done : (v.session s).completed id = v.session (s.completed id) :=
        (Commutes.completed id s).2 (clear _ rfl)
      simp only [stage, Stage.next]
      rw [done]
      rfl
  | unwinding t e =>
      obtain ⟨entries, stack⟩ := t
      cases stack with
      | nil => rfl
      | cons frame outer =>
          have closes : ∀ p : Process, p.Known s → v.Clear s (Stage.closed ⟨entries, outer⟩ e (p.close s)).2 →
              Stage.closed (v.traversal ⟨entries, outer⟩) e ((v.process p).close (v.session s)) =
                v.staged (Stage.closed ⟨entries, outer⟩ e (p.close s)) := by
            intro p known clear
            rw [Stage.closed_session] at clear
            rw [closeProcess known clear, closed]
          have inside : frame.source.Known s := sound.1 frame List.mem_cons_self
          have source : (v.frame frame).source = v.source frame.source := rfl
          simp only [Stage.next] at clear
          simp only [stage, traversal, List.map_cons, Stage.next, source]
          cases drawn : frame.source with
          | stream p | sequence p =>
              simp only [drawn] at clear
              exact congrArg some (closes p (inside p (by rw [drawn]; rfl)) (clear _ rfl))
          | _ => rfl
  | closing t p insists? e =>
      have resumed := resume (v := v) (p := p) sound.2 (by
        have := clear _ rfl
        rwa [Stage.closed_session] at this)
      simp only [stage, Stage.next]
      rw [resumed, closed]
      rfl
  | «over» e => rfl

end View

end BlockGraph
