import BlockGraph.Proofs.Intact
import BlockGraph.Proofs.Recursion
/-!
The stack as a recursion: every stage of a traversal stands for what the recursion still has to do, and
the next stage stands for the same. So a traversal that comes to its end has come to the result of the
recursion.
-/
namespace BlockGraph

namespace Frame

/-- While the run is active, a connection that is left to fire is followed. -/
theorem finish_active {s : Session} (on : s.active = true) (e : Element) (source : Source)
    (c : Connection) (rest : List Connection) :
    finish ⟨e, source, c :: rest⟩ s =
      (((s.note (.traversed c.id)).notify (.traverse c.id)).visit c.target).bind fun
      | (none, s) => finish ⟨e, source, rest⟩ s
      | (some f, s) => (source.shut s).map (some f, ·) := by
  rw [finish, Session.follow, on]
  simp only [if_true, Option.bind_eq_bind, Option.bind_assoc]
  refine congrArg _ (funext fun r => ?_)
  obtain ⟨f?, s⟩ := r
  cases f? with
  | none => rfl
  | some f => exact Option.map_eq_bind.symm

/-- Closes elements under way, innermost first. -/
def unwind (stack : List Frame) (r : Visit) : Option Visit :=
  match stack with
  | [] => some r
  | frame :: outer => (frame.source.shut r.2).bind fun s => unwind outer (r.1, s)

/-- Goes on with all elements under way, innermost first, and then with entry points. -/
def finishAll (entries : List String) (stack : List Frame) (s : Session) : Option Visit :=
  match stack with
  | [] => s.visitAll entries
  | frame :: outer => (frame.finish s).bind fun
    | (none, s) => finishAll entries outer s
    | (some f, s) => unwind outer (some f, s)

end Frame

namespace Traversal

/-- Goes on with a traversal after something in it came out in some way. -/
def goOn (t : Traversal) (r : Visit) : Option Visit :=
  match r with
  | (none, s) => Frame.finishAll t.entries t.stack s
  | (some f, s) => Frame.unwind t.stack (some f, s)

variable {entries : List String} {frame : Frame} {outer : List Frame} {s : Session}

theorem goOn_none : goOn ⟨entries, frame :: outer⟩ (none, s) = (frame.finish s).bind (goOn ⟨entries, outer⟩) :=
  rfl

/-- An element with nothing left to fire goes on with its logic. -/
theorem goOn_rest {e : Element} {source : Source} :
    goOn ⟨entries, ⟨e, source, []⟩ :: outer⟩ (none, s) =
      ((s.pull e source).bind (Session.take e)).bind (goOn ⟨entries, outer⟩) := by
  rw [goOn_none, Frame.finish, Session.follow, ← Session.drive_eq]
  rfl

/-- When an item was recorded, the connections that it fires are followed. -/
theorem goOn_fired {e : Element} {source : Source} {item : Value} {emission : Emission}
    (made : Emission.ofItem item = .ok emission) :
    goOn ⟨entries, ⟨e, source, s.fired e.id emission⟩ :: outer⟩ (none, s.record e.id emission) =
      (Session.take e (.ok (some (item, source)), s)).bind (goOn ⟨entries, outer⟩) := by
  rw [goOn_none, Session.take]
  simp only [made]

end Traversal

/-- Logic that has ended need not be closed. -/
theorem Process.shut_over {p : Process} (ceased : p.progress = .over) (s : Session) :
    p.shut s = some s := by
  rw [shut, close, ceased]

theorem Attempt.ofProcess_collected (p : Process) :
    (ofProcess p).collected? = if p.form? = some .deferred then some [] else none := by
  unfold ofProcess Process.form?
  cases p.progress with
  | fresh logic => simp only [Option.some.injEq]
  | _ => rfl

namespace Attempt

/-- What an attempt to get an item, or all items, out of block logic comes to in the end. -/
def pull (a : Attempt) (s : Session) (e : Element) : Option Pulled :=
  match a.mode, a.collected? with
  | .over (.items vs), _ => some (s.pulledItems vs)
  | .over (.pause pause), _ => some (s.pulledPause e (.stream a.process) pause)
  | _, some collected => (a.process.gather s collected).map fun (how, items, s) => s.pulledAll e items how
  | _, none => (a.process.await s).map fun (pause, p, s) => s.pulledPause e (.stream p) pause

/-- Whether an attempt is one at intact logic, which it leaves only when that has paused. -/
structure Intact (a : Attempt) : Prop where
  process : a.process.Intact
  ended : ∀ pause, a.mode = .over (.pause pause) →
    a.process.Went pause ∧ ∀ length insists, pause ≠ .sleep length insists

theorem pull_alive {a : Attempt} (alive : ∀ y, a.mode ≠ .over y) (s : Session) (e : Element) :
    a.pull s e = match a.collected? with
      | some collected =>
        (a.process.gather s collected).map fun (how, items, s) => s.pulledAll e items how
      | none => (a.process.await s).map fun (pause, p, s) => s.pulledPause e (.stream p) pause := by
  obtain ⟨p, collected?, mode⟩ := a
  cases mode with
  | «over» y => exact absurd rfl (alive y)
  | _ => cases collected? <;> rfl

/-- Logic that goes on once comes to the same in the end. -/
theorem paused_pull {a : Attempt} (alive : ∀ y, a.mode ≠ .over y) (h : a.process.Intact) (s : Session)
    (e : Element) :
    (a.paused (a.process.resume s).1 (a.process.resume s).2.1).Intact ∧
      a.pull s e = (a.paused (a.process.resume s).1 (a.process.resume s).2.1).pull
        (a.process.resume s).2.2 e := by
  have went := Process.resume_went h s
  rw [pull_alive alive]
  obtain ⟨p, collected?, mode⟩ := a
  simp only at went ⊢
  cases resumed : p.resume s with
  | mk pause rest =>
      obtain ⟨q, s'⟩ := rest
      rw [resumed] at went
      have working : ∀ collected? mode, (∀ y, mode ≠ .over y) → (⟨q, collected?, mode⟩ : Attempt).Intact :=
        fun _ mode working => ⟨went.intact, fun pause ceased => absurd ceased (working _)⟩
      have ceased : (∀ length insists, pause ≠ .sleep length insists) →
          (⟨q, collected?, .over (.pause pause)⟩ : Attempt).Intact := fun awake =>
        ⟨went.intact, fun pause' same => by cases same; exact ⟨went, awake⟩⟩
      cases collected? with
      | none =>
          rw [Process.await, resumed]
          cases pause with
          | item v => exact ⟨ceased fun _ _ => nofun, rfl⟩
          | sleep length insists => exact ⟨working _ _ fun _ => nofun, rfl⟩
          | ended how =>
              cases how <;> exact ⟨ceased fun _ _ => nofun, rfl⟩
      | some collected =>
          simp only
          rw [Process.gather, resumed]
          cases pause with
          | item v => exact ⟨working _ _ fun _ => nofun, rfl⟩
          | sleep length insists => exact ⟨working _ _ fun _ => nofun, rfl⟩
          | ended how =>
              cases how with
              | normal => exact ⟨⟨went.intact, fun pause same => by cases same⟩, rfl⟩
              | _ => exact ⟨ceased fun _ _ => nofun, rfl⟩

end Attempt

/-! ### What stages stand for -/

namespace WalkEnd

/-- How a traversal with such an end came out. One that was cancelled did not. -/
def visit? (e : WalkEnd) (s : Session) : Option Visit :=
  match e with
  | .normal => some (none, s)
  | .failed f => some (some f, s)
  | .cancelled => none

end WalkEnd

def Traversal.Intact (t : Traversal) : Prop := ∀ frame ∈ t.stack, frame.source.Intact

namespace Stage

/-- What the recursion still comes to at a stage. -/
def explores (st : Stage) (s : Session) : Option Visit :=
  match st with
  | opening => s.explore
  | walking t => t.goOn (none, s)
  | awaiting ⟨_, []⟩ _ _ => none
  | awaiting ⟨entries, frame :: outer⟩ a _ =>
    ((a.pull s frame.element).bind (Session.take frame.element)).bind (Traversal.goOn ⟨entries, outer⟩)
  | delaying t id => t.goOn (none, s.completed id)
  | unwinding t e => (e.visit? s).bind (Frame.unwind t.stack)
  | closing t p _ e => (p.await s).bind fun (_, _, s) => (e.visit? s).bind (Frame.unwind t.stack)
  | .over e => e.visit? s

/-- Whether a traversal is at work at intact logic, and not cancelled. -/
def Intact (st : Stage) : Prop :=
  match st with
  | opening => True
  | walking t | delaying t _ => t.Intact
  | awaiting t a _ => t.Intact ∧ a.Intact ∧ ∃ frame outer, t.stack = frame :: outer ∧ frame.pending = []
  | unwinding t e => t.Intact ∧ e ≠ .cancelled
  | closing t p _ e => t.Intact ∧ p.Intact ∧ e ≠ .cancelled
  | .over e => e ≠ .cancelled

/-- Whether an intact stage stands for something that the recursion comes to. -/
structure Stands (r : Stage × Session) (v : Option Visit) : Prop where
  intact : r.1.Intact
  explores : r.1.explores r.2 = v

end Stage

namespace Traversal

variable {t : Traversal} {entries : List String} {outer : List Frame} {e : Element} {source : Source}
  {s : Session}

theorem Intact.cons {frame : Frame} (h : frame.source.Intact) (below : Intact ⟨entries, outer⟩) :
    Intact ⟨entries, frame :: outer⟩ := by
  intro other member
  rcases List.mem_cons.mp member with rfl | rest
  · exact h
  · exact below other rest

theorem Intact.below {frame : Frame} (h : Intact ⟨entries, frame :: outer⟩) : Intact ⟨entries, outer⟩ :=
  fun other member => h other (List.mem_cons_of_mem _ member)

theorem go_stands (h : t.Intact) (s : Session) : Stage.Stands (Stage.settle (.go t, s)) (t.goOn (none, s)) :=
  ⟨h, rfl⟩

theorem fail_stands (h : t.Intact) (f : RunFault) (s : Session) :
    Stage.Stands (Stage.settle (.fail f t, s)) (t.goOn (.fail f s)) :=
  ⟨⟨h, fun same => by cases same⟩, rfl⟩

/-- Starting an element comes to a frame, or to a failure. -/
theorem start_frame (s : Session) (e : Element) (logic : Logic) :
    (∃ f, (start s e logic).1 = .error f) ∨
      ∃ c, (start s e logic).1 = .ok (some ⟨e, Source.ofLogic c logic, []⟩) := by
  unfold start
  simp only
  split
  · exact .inl ⟨_, rfl⟩
  · exact .inr ⟨_, rfl⟩

theorem visit_stands (h : t.Intact) (s : Session) (id : String) :
    Stage.Stands (Stage.settle (t.visit s id)) ((s.visit id).bind t.goOn) := by
  unfold visit
  rw [Session.visit]
  cases on : s.active with
  | false =>
      rw [begin_inactive on, if_pos rfl]
      exact go_stands h _
  | true =>
      rw [if_neg fun same => by cases same]
      by_cases beyond : s.options.maxSteps < ((s.steps + 1 : Nat) : Int)
      · rw [begin_overBudget on beyond, if_pos beyond]
        exact fail_stands h _ _
      rw [if_neg beyond]
      by_cases seen : id ∈ s.processed
      · rw [begin_seen on (Int.not_lt.mp beyond) seen, if_pos seen]
        exact go_stands h _
      rw [begin_fresh on (Int.not_lt.mp beyond) seen, if_neg seen]
      cases s.graph.element? id with
      | none => exact go_stands h _
      | some e =>
          simp only
          cases s.registry.find? e.type with
          | none => exact fail_stands h _ _
          | some d =>
              simp only
              have started := start_frame s.counted e d.logic
              cases begun : start s.counted e d.logic with
              | mk r s' =>
                  rw [begun] at started
                  rcases started with ⟨f, same⟩ | ⟨c, same⟩
                  · cases same
                    exact fail_stands h _ _
                  · cases same
                    simp only
                    rw [Session.drive_eq, ← goOn_rest]
                    exact go_stands (.cons (.ofLogic c d.logic) h) _

theorem accept_stands (h : source.Intact) (below : Intact ⟨entries, outer⟩) (pending : List Connection)
    (s : Session) (item : Value) :
    Stage.Stands (Stage.settle (accept ⟨entries, ⟨e, source, pending⟩ :: outer⟩ s item))
      ((Session.take e (.ok (some (item, source)), s)).bind (goOn ⟨entries, outer⟩)) := by
  unfold accept
  simp only
  cases made : Emission.ofItem item with
  | error f =>
      have intact : Intact ⟨entries, ⟨e, source, pending⟩ :: outer⟩ := .cons h below
      have failed := fail_stands intact (s.blockFailed e f).1 (s.blockFailed e f).2
      rw [Session.take]
      simp only [made, Option.bind_map]
      exact failed
  | ok emission =>
      have intact : Intact ⟨entries, ⟨e, source, s.fired e.id emission⟩ :: outer⟩ := .cons h below
      rw [← goOn_fired made]
      exact go_stands intact _

theorem complete_stands (h : t.Intact) (s : Session) (id : String) :
    Stage.Stands (Stage.settle (complete t s id)) (t.goOn (none, s.completed id)) := by
  unfold complete
  split
  · exact go_stands h _
  · exact ⟨h, rfl⟩

/-- Logic that has ended need not be closed. -/
theorem endWith_stands (h : source.Intact) (ended : ∀ s, source.shut s = some s)
    (below : Intact ⟨entries, outer⟩) (pending : List Connection) (s : Session) (how : Ending) :
    Stage.Stands (Stage.settle (endWith ⟨entries, ⟨e, source, pending⟩ :: outer⟩ s how))
      ((Session.take e (s.pulledEnd e how)).bind (goOn ⟨entries, outer⟩)) := by
  have failed : ∀ f s, Stage.Stands (Stage.settle (.fail f ⟨entries, ⟨e, source, pending⟩ :: outer⟩, s))
      ((some (Visit.fail f s)).bind (goOn ⟨entries, outer⟩)) := by
    intro f s
    have intact : Intact ⟨entries, ⟨e, source, pending⟩ :: outer⟩ := .cons h below
    have fails := fail_stands intact f s
    refine ⟨fails.intact, fails.explores.trans ?_⟩
    show (source.shut _).bind _ = _
    rw [ended]
    rfl
  have ceased := complete_stands below s e.id
  unfold endWith
  cases how with
  | fault f =>
      rw [Session.pulledEnd]
      simp only
      split <;> exact failed _ _
  | normal => exact ceased
  | closed => exact ceased
  | interrupted => exact ceased

/-- What logic has come to is taken, unless it sleeps. -/
theorem answer_stands {pause : Pause} (h : source.Intact)
    (ended : ∀ how, pause = .ended how → ∀ s, source.shut s = some s)
    (awake : ∀ length insists, pause ≠ .sleep length insists)
    (below : Intact ⟨entries, outer⟩) (old : Source) (pending : List Connection) (s : Session) :
    Stage.Stands (Stage.settle (answer ⟨entries, ⟨e, old, pending⟩ :: outer⟩ s pause source))
      ((Session.take e (s.pulledPause e source pause)).bind (goOn ⟨entries, outer⟩)) := by
  cases pause with
  | item v => exact accept_stands h below pending s v
  | sleep length insists => exact absurd rfl (awake length insists)
  | ended how => exact endWith_stands h (ended how rfl) below pending s how

/-- Immediate logic goes on. -/
theorem gather_stands {p : Process} (h : p.Intact) (below : Intact ⟨entries, outer⟩)
    (collected : List Value) (s : Session) :
    Stage.Stands (Stage.settle (gather ⟨entries, ⟨e, .gathering p collected, []⟩ :: outer⟩ s
        ⟨e, .gathering p collected, []⟩ p collected))
      (((s.pull e (.gathering p collected)).bind (Session.take e)).bind (goOn ⟨entries, outer⟩)) := by
  have went := Process.resume_went h s
  unfold gather
  rw [Session.pull, Process.gather]
  cases resumed : p.resume s with
  | mk pause rest =>
      obtain ⟨q, s'⟩ := rest
      rw [resumed] at went
      have goes : ∀ source : Source, source.Intact →
          Stage.Stands (Stage.settle (.go ⟨entries, ⟨e, source, []⟩ :: outer⟩, s'))
            (((s'.pull e source).bind (Session.take e)).bind (goOn ⟨entries, outer⟩)) := by
        intro source h
        rw [← goOn_rest]
        exact go_stands (.cons h below) s'
      cases pause with
      | item v => exact goes (.gathering q (v :: collected)) (.gathering went.intact _)
      | sleep length insists => exact goes (.gathering q collected) (.gathering went.intact _)
      | ended how =>
          cases how with
          | fault f => exact fail_stands below _ _
          | _ => exact goes (.items collected.reverse) (.items _)

/-- The innermost element goes on. -/
theorem advance_stands (h : source.Intact) (below : Intact ⟨entries, outer⟩) (s : Session) :
    Stage.Stands (Stage.settle (advance ⟨entries, ⟨e, source, []⟩ :: outer⟩ s ⟨e, source, []⟩))
      (((s.pull e source).bind (Session.take e)).bind (goOn ⟨entries, outer⟩)) := by
  have waits : ∀ p : Process, p.Intact → ∀ collected?, (Attempt.ofProcess p).collected? = collected? →
      Stage.Stands (Stage.awaiting ⟨entries, ⟨e, .busy, []⟩ :: outer⟩ (.ofProcess p) none, s)
        ((((⟨p, collected?, .fresh⟩ : Attempt).pull s e).bind (Session.take e)).bind
          (goOn ⟨entries, outer⟩)) := by
    intro p h collected? same
    refine ⟨⟨.cons .busy below, ⟨h, fun pause ceased => ?_⟩, _, _, rfl, rfl⟩, ?_⟩
    · cases ceased
    · rw [← same]
      rfl
  cases source with
  | gathering p collected => exact gather_stands (h.intact p rfl) below collected s
  | items vs =>
      cases vs with
      | nil => exact endWith_stands h (fun _ => rfl) below [] s .normal
      | cons v rest => exact accept_stands (.items rest) below [] s v
  | sequence p =>
      have went := Process.resume_went (h.intact p rfl) s
      unfold advance
      rw [Session.pull, Process.await]
      simp only
      cases resumed : p.resume s with
      | mk pause rest =>
          obtain ⟨q, s'⟩ := rest
          rw [resumed] at went
          have answers : (∀ length insists, pause ≠ .sleep length insists) →
              Stage.Stands (Stage.settle
                  (answer ⟨entries, ⟨e, .sequence p, []⟩ :: outer⟩ s' pause (.sequence q)))
                ((Session.take e (s'.pulledPause e (.sequence q) pause)).bind (goOn ⟨entries, outer⟩)) :=
            fun awake => answer_stands (.sequence went.intact)
              (fun how same s => Process.shut_over (went.ended how same) s) awake below _ [] s'
          cases pause with
          | item v => exact answers fun _ _ same => by cases same
          | sleep length insists =>
              have intact : Intact ⟨entries, ⟨e, .sequence q, []⟩ :: outer⟩ :=
                .cons (.sequence went.intact) below
              have goes := go_stands intact s'
              rw [goOn_rest] at goes
              exact goes
          | ended how => exact answers fun _ _ same => by cases same
  | stream p =>
      exact waits p (h.intact p rfl) none
        ((Attempt.ofProcess_collected p).trans (if_neg (h.stream p rfl)))
  | deferred p =>
      exact waits p (h.intact p rfl) (some [])
        ((Attempt.ofProcess_collected p).trans (if_pos (h.deferred p rfl)))
  | busy => exact endWith_stands h (fun _ => rfl) below [] s .normal

/-- One step. -/
theorem step_stands (h : t.Intact) (s : Session) :
    Stage.Stands (Stage.settle (t.step s)) (t.goOn (none, s)) := by
  obtain ⟨entries, stack⟩ := t
  unfold step
  cases stack with
  | nil =>
      have ceased : ∀ entries, Session.visitAll s entries = some (none, s) →
          Stage.Stands (Stage.settle (.finished, s)) (goOn ⟨entries, []⟩ (none, s)) := by
        intro entries none
        refine ⟨⟨h, fun same => by cases same⟩, ?_⟩
        exact none.symm
      cases entries with
      | nil => exact ceased [] rfl
      | cons id rest =>
          cases on : s.active with
          | false => exact ceased _ (by rw [Session.visitAll, on]; rfl)
          | true =>
              have visits := visit_stands (t := ⟨rest, []⟩) h (s.note (.entered id)) id
              refine ⟨visits.intact, visits.explores.trans ?_⟩
              show _ = Session.visitAll s (id :: rest)
              rw [Session.visitAll, on]
              refine congrArg _ (funext fun r => ?_)
              obtain ⟨f?, s⟩ := r
              cases f? <;> rfl
  | cons frame outer =>
      obtain ⟨e, source, pending⟩ := frame
      have here : source.Intact := h _ List.mem_cons_self
      cases pending with
      | nil =>
          rw [goOn_rest]
          exact advance_stands here h.below s
      | cons c rest =>
          have same : ∀ pending, Intact ⟨entries, ⟨e, source, pending⟩ :: outer⟩ := fun _ =>
            .cons here h.below
          cases on : s.active with
          | false =>
              have cleared := go_stands (same []) s
              refine ⟨cleared.intact, cleared.explores.trans ?_⟩
              rw [goOn_none, goOn_none, Frame.finish, Frame.finish, Session.follow, Session.follow, on]
              rfl
          | true =>
              have visits := visit_stands (same rest)
                ((s.note (.traversed c.id)).notify (.traverse c.id)) c.target
              refine ⟨visits.intact, visits.explores.trans ?_⟩
              rw [goOn_none, Frame.finish_active on, Option.bind_assoc]
              refine congrArg _ (funext fun r => ?_)
              obtain ⟨f?, s⟩ := r
              cases f? with
              | none => rfl
              | some f =>
                  simp only [Option.bind_map]
                  rfl

end Traversal

/-! ### The next stage stands for the same -/

namespace Stage

variable {entries : List String} {frame : Frame} {outer : List Frame}

theorem took_stands {a : Attempt} {y : Yield} (h : a.Intact) (ceased : a.mode = .over y)
    (below : Traversal.Intact ⟨entries, outer⟩) (rest : frame.pending = []) (outOfTime : Bool)
    (s : Session) (given? : Option Bool) :
    Stands (took ⟨entries, frame :: outer⟩ a outOfTime y s)
      ((awaiting ⟨entries, frame :: outer⟩ a given?).explores s) := by
  obtain ⟨e, source, pending⟩ := frame
  cases rest
  obtain ⟨p, collected?, mode⟩ := a
  cases ceased
  cases y with
  | items vs =>
      have intact : Traversal.Intact ⟨entries, ⟨e, .items vs, []⟩ :: outer⟩ := .cons (.items vs) below
      have goes := Traversal.go_stands intact s
      rw [Traversal.goOn_rest] at goes
      exact goes
  | pause pause =>
      obtain ⟨went, awake⟩ := h.ended pause rfl
      have answers := Traversal.answer_stands (e := e) (.stream_of_went went)
        (fun how same s => Process.shut_over (went.ended how same) s) awake below (.stream p) [] s
      cases pause with
      | item v => exact answers
      | sleep length insists => exact answers
      | ended how =>
          cases how with
          | interrupted => exact absurd rfl went.uninterrupted
          | _ => exact answers

/-- Logic that is being closed has paused. -/
theorem closed_stands {pause : Pause} {p : Process} (went : p.Went pause) {t : Traversal} (h : t.Intact)
    {e : WalkEnd} (alive : e ≠ .cancelled) (s : Session) :
    Stands (closed t e (pause, p, s)) (match pause with
      | .sleep _ _ => (p.await s).bind fun (_, _, s) => (e.visit? s).bind (Frame.unwind t.stack)
      | _ => (e.visit? s).bind (Frame.unwind t.stack)) := by
  cases pause with
  | item v => exact ⟨⟨h, alive⟩, rfl⟩
  | sleep length insists => exact ⟨⟨h, went.intact, alive⟩, rfl⟩
  | ended how =>
      cases how with
      | interrupted => exact absurd rfl went.uninterrupted
      | _ => exact ⟨⟨h, alive⟩, rfl⟩

theorem visit?_unwind {e : WalkEnd} (alive : e ≠ .cancelled) (s : Session) :
    (e.visit? s).bind (Frame.unwind (frame :: outer)) =
      (frame.source.shut s).bind fun s => (e.visit? s).bind (Frame.unwind outer) := by
  cases e with
  | normal => rfl
  | failed f => rfl
  | cancelled => exact absurd rfl alive

theorem unwinding_stands {e : WalkEnd} (h : Traversal.Intact ⟨entries, frame :: outer⟩)
    (alive : e ≠ .cancelled) (s : Session) {r : Stage × Session}
    (next : (unwinding ⟨entries, frame :: outer⟩ e).next s = some r) :
    Stands r ((unwinding ⟨entries, frame :: outer⟩ e).explores s) := by
  have below := h.below
  have closes : ∀ p : Process, Stands (closed ⟨entries, outer⟩ e (p.close s))
      ((p.shut s).bind fun s => (e.visit? s).bind (Frame.unwind outer)) := by
    intro p
    have went := p.shut_went s
    unfold Process.shut
    cases result : p.close s with
    | mk pause rest =>
        obtain ⟨q, s'⟩ := rest
        rw [result] at went
        have stands := closed_stands went below alive s'
        cases pause with
        | item v => exact stands
        | sleep length insists =>
            simp only [Option.bind_map]
            exact stands
        | ended how => exact stands
  show Stands r ((e.visit? s).bind (Frame.unwind (frame :: outer)))
  rw [visit?_unwind alive]
  unfold Stage.next at next
  simp only at next
  cases source : frame.source with
  | stream p =>
      rw [source] at next
      rw [← Option.some.inj next]
      exact closes p
  | sequence p =>
      rw [source] at next
      rw [← Option.some.inj next]
      exact closes p
  | _ =>
      rw [source] at next
      rw [← Option.some.inj next]
      exact ⟨⟨below, alive⟩, rfl⟩

/-- The next stage of a traversal that is left to itself stands for the same. -/
theorem next_stands {st : Stage} {s : Session} (h : st.Intact) {r : Stage × Session}
    (next : st.next s = some r) : Stands r (st.explores s) := by
  cases st with
  | opening =>
      unfold Stage.next at next
      unfold explores Session.explore
      simp only at next ⊢
      cases opened : s.opening with
      | mk result s' =>
          rw [opened] at next
          cases result with
          | ok entries =>
              rw [← Option.some.inj next]
              exact ⟨fun _ member => (List.not_mem_nil member).elim, rfl⟩
          | error f =>
              rw [← Option.some.inj next]
              exact ⟨(fun same => by cases same), rfl⟩
  | walking t =>
      rw [← Option.some.inj next]
      exact Traversal.step_stands h s
  | awaiting t a given? =>
      obtain ⟨intact, working, frame, outer, stack, rest⟩ := h
      obtain ⟨entries, stack⟩ := t
      cases stack
      unfold Stage.next at next
      simp only at next
      split at next
      · rename_i y ceased
        rw [← Option.some.inj next]
        exact took_stands working ceased intact.below rest _ s given?
      · rename_i alive
        obtain ⟨paused, same⟩ := Attempt.paused_pull (fun y ceased => alive y ceased) working.process s
          frame.element
        rw [← Option.some.inj next]
        refine ⟨⟨intact, paused, frame, outer, rfl, rest⟩, ?_⟩
        unfold explores
        simp only [same]
  | delaying t id =>
      rw [← Option.some.inj next]
      exact ⟨h, rfl⟩
  | unwinding t e =>
      obtain ⟨intact, alive⟩ := h
      obtain ⟨entries, stack⟩ := t
      cases stack with
      | nil =>
          rw [← Option.some.inj next]
          refine ⟨alive, ?_⟩
          cases e with
          | cancelled => exact absurd rfl alive
          | _ => rfl
      | cons frame outer => exact unwinding_stands intact alive s next
  | closing t p insists? e =>
      obtain ⟨intact, here, alive⟩ := h
      have went := Process.resume_went here s
      unfold Stage.next at next
      unfold explores
      simp only at next ⊢
      rw [Process.await]
      cases resumed : p.resume s with
      | mk pause rest =>
          obtain ⟨q, s'⟩ := rest
          rw [resumed] at next went
          have stands := closed_stands went intact alive s'
          rw [← Option.some.inj next]
          cases pause <;> exact stands
  | «over» e => cases next

/-- Any number of stages. -/
abbrev Leads : Stage × Session → Stage × Session → Prop :=
  Relation.ReflTransGen fun r r' => r.1.next r.2 = some r'

/-- A traversal that comes to its end has come to the result of the recursion. -/
theorem Leads.explores {r r' : Stage × Session} (steps : Leads r r') (h : r.1.Intact) :
    Stands r' (r.1.explores r.2) := by
  induction steps with
  | refl => exact ⟨h, rfl⟩
  | tail _ next ih =>
      have stands := next_stands ih.intact next
      exact ⟨stands.intact, stands.explores.trans ih.explores⟩

end Stage

end BlockGraph
