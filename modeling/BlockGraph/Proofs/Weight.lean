import BlockGraph.Proofs.Supply
import Mathlib.Data.Prod.Lex
import Mathlib.Data.Finset.Card
/-!
Weights: how much a traversal has left to do. Starting an element makes the elements that were never
started fewer; logic that starts is never new again; and every other move makes the weight less, unless
logic hands over an item.
-/
namespace BlockGraph

/-! ### What logic has left to do -/

namespace Progress

/-- One for logic that has not started, which may still have any number of steps to take. -/
def news : Progress → Nat
  | .fresh _ => 1
  | .resting _ | .over => 0

/-- The steps that are left, with those to be taken at the end. -/
def left : Progress → Nat
  | .resting cursor => cursor.steps.length + cursor.closing.length
  | .fresh _ | .over => 0

end Progress

/-- What becomes of logic with some steps left: it has fewer once it sleeps, and no more once it ends. -/
def Pause.Eases (pause : Pause) (left left' : Nat) : Prop :=
  match pause with
  | .item _ => True
  | .sleep .. => left' < left
  | .ended _ => left' ≤ left

theorem Pause.Eases.trans {pause : Pause} {left mid left' : Nat} (h : pause.Eases mid left')
    (less : mid ≤ left) : pause.Eases left left' := by
  cases pause with
  | item v => trivial
  | sleep length insists => exact Nat.lt_of_lt_of_le h less
  | ended e => exact Nat.le_trans h less

namespace Cursor

theorem advance_eases (c : Context) (steps : List Step) (s : Session) :
    (advance c steps s).1.Eases steps.length (advance c steps s).2.1.length := by
  induction steps generalizing s with
  | nil => exact Nat.le_refl _
  | cons step rest ih =>
      rw [advance]
      split
      · exact (ih _).trans (Nat.le_succ _)
      · trivial
      · trivial
      · exact Nat.lt_succ_self _
      · exact Nat.zero_le _

theorem close_eases (c : Context) (steps : List Step) (pending : Ending) (s : Session) :
    (close c steps pending s).2.1.news = 0 ∧
      (close c steps pending s).1.Eases steps.length (close c steps pending s).2.1.left := by
  have eases := advance_eases c steps s
  rw [close]
  split
  · exact ⟨rfl, Nat.zero_le _⟩
  · exact ⟨rfl, Nat.zero_le _⟩
  · rename_i pause rest s' _ _ same
    rw [same] at eases
    exact ⟨rfl, eases⟩

theorem resume_eases (c : Context) (cursor : Cursor) (s : Session) :
    (resume c cursor s).2.1.news = 0 ∧
      (resume c cursor s).1.Eases (Progress.resting cursor).left (resume c cursor s).2.1.left := by
  have eases := advance_eases c cursor.steps s
  rw [resume]
  split
  · obtain ⟨old, closes⟩ := close_eases c cursor.steps ‹_› s
    exact ⟨old, closes.trans (Nat.le_add_right _ _)⟩
  · split
    · rename_i e _ s' _
      obtain ⟨old, closes⟩ := close_eases c cursor.closing e s'
      exact ⟨old, closes.trans (Nat.le_add_left _ _)⟩
    · rename_i pause rest s' _ same
      rw [same] at eases
      refine ⟨rfl, ?_⟩
      cases pause with
      | item v => trivial
      | sleep length insists => exact Nat.add_lt_add_right eases _
      | ended e => exact Nat.add_le_add_right eases _

theorem breakOff_eases (c : Context) (cursor : Cursor) (e : Ending) (s : Session) :
    (breakOff c cursor e s).2.1.news = 0 ∧
      (breakOff c cursor e s).1.Eases (Progress.resting cursor).left (breakOff c cursor e s).2.1.left := by
  rw [breakOff]
  split
  · exact ⟨rfl, Nat.zero_le _⟩
  · obtain ⟨old, closes⟩ := close_eases c cursor.closing e s
    exact ⟨old, closes.trans (Nat.le_add_left _ _)⟩

end Cursor

namespace Process

def news (p : Process) : Nat := p.progress.news

def left (p : Process) : Nat := p.progress.left

/-- Whether logic has gone on to a pause: it is no longer new, or has got nearer to its end. -/
def Eases (p : Process) (r : Pause × Process × Session) : Prop :=
  r.2.1.news < p.news ∨ r.2.1.news ≤ p.news ∧ r.1.Eases p.left r.2.1.left

theorem resume_eases (p : Process) (s : Session) : p.Eases (p.resume s) := by
  obtain ⟨c, progress⟩ := p
  unfold resume
  cases progress with
  | fresh logic => exact .inl (Nat.lt_of_le_of_lt (Nat.le_of_eq (Cursor.resume_eases c _ s).1) Nat.zero_lt_one)
  | resting cursor =>
      obtain ⟨old, eases⟩ := Cursor.resume_eases c cursor s
      exact .inr ⟨Nat.le_of_eq old, eases⟩
  | «over» => exact .inr ⟨Nat.le_refl _, Nat.le_refl _⟩

theorem close_eases (p : Process) (s : Session) : p.Eases (p.close s) := by
  obtain ⟨c, progress⟩ := p
  unfold close
  cases progress with
  | fresh logic => exact .inl Nat.zero_lt_one
  | resting cursor =>
      obtain ⟨old, eases⟩ := Cursor.breakOff_eases c cursor .closed s
      exact .inr ⟨Nat.le_of_eq old, eases⟩
  | «over» => exact .inr ⟨Nat.le_refl _, Nat.le_refl _⟩

end Process

/-! ### What a traversal has left to do -/

namespace Source

/-- How much logic of a source has not started. -/
def news (source : Source) : Nat := (source.process?.map Process.news).getD 0

/-- What a source has left to do, when an item fires no more than so many connections. -/
def weight (most : Nat) : Source → Nat
  | .gathering p collected => p.left + collected.length * (most + 1) + 1
  | .items rest => rest.length * (most + 1)
  | .sequence p | .stream p | .deferred p => p.left + 3
  | .busy => 0

/-- What there is to do when the source is closed. -/
def toClose : Source → Nat
  | .stream p | .sequence p => p.left
  | _ => 0

theorem toClose_le (most : Nat) (source : Source) : source.toClose ≤ source.weight most := by
  cases source with
  | sequence p | stream p => exact Nat.le_add_right _ _
  | _ => exact Nat.zero_le _

end Source

namespace Frame

def weight (most : Nat) (frame : Frame) : Nat := frame.pending.length + frame.source.weight most + 4

end Frame

namespace Traversal

def news (t : Traversal) : Nat := (t.stack.map (·.source.news)).sum

def weight (most : Nat) (t : Traversal) : Nat := t.entries.length + (t.stack.map (·.weight most)).sum

def toClose (t : Traversal) : Nat := (t.stack.map (·.source.toClose + 2)).sum

variable {entries : List String} {frame : Frame} {outer : List Frame} {most : Nat}

@[simp] theorem news_nil : news ⟨entries, []⟩ = 0 := rfl

@[simp] theorem weight_nil : weight most ⟨entries, []⟩ = entries.length := rfl

@[simp] theorem toClose_nil : toClose ⟨entries, []⟩ = 0 := rfl

@[simp] theorem news_cons : news ⟨entries, frame :: outer⟩ = frame.source.news + news ⟨entries, outer⟩ :=
  rfl

@[simp] theorem weight_cons : weight most ⟨entries, frame :: outer⟩ =
    frame.pending.length + frame.source.weight most + 4 + weight most ⟨entries, outer⟩ := by
  simp only [weight, Frame.weight, List.map_cons, List.sum_cons]
  omega

@[simp] theorem toClose_cons : toClose ⟨entries, frame :: outer⟩ =
    frame.source.toClose + 2 + toClose ⟨entries, outer⟩ := rfl

/-- Closing all elements is less to do than going on with them. -/
theorem toClose_le (most : Nat) (t : Traversal) : t.toClose ≤ t.weight most := by
  obtain ⟨entries, stack⟩ := t
  induction stack with
  | nil => exact Nat.zero_le _
  | cons frame outer ih =>
      have source := frame.source.toClose_le most
      rw [toClose_cons, weight_cons]
      omega

end Traversal

namespace Attempt

/-- What there is to do about an attempt before the traversal goes on. -/
def weight (most : Nat) (a : Attempt) : Nat :=
  match a.mode with
  | .over (.items vs) => vs.length * (most + 1) + 1
  | .over (.pause (.ended _)) => a.process.left
  | .over (.pause _) => a.process.left + most + 4
  | _ => a.process.left + (a.collected?.getD []).length * (most + 1) + 2

end Attempt

namespace Stage

/-- How much logic has not started. -/
def news : Stage → Nat
  | .opening | .over _ => 0
  | .walking t | .delaying t _ | .unwinding t _ => t.news
  | .awaiting t a _ => t.news + a.process.news
  | .closing t p _ _ => t.news + p.news

/-- What a traversal of a graph has left to do. -/
def weight (g : Graph) : Stage → Nat
  | .opening => g.roots.length + 3
  | .walking t => t.weight g.connections.length + 2
  | .awaiting t a _ => t.weight g.connections.length + a.weight g.connections.length + 2
  | .delaying t _ => t.weight g.connections.length + 3
  | .unwinding t _ => t.toClose + 1
  | .closing t p _ _ => t.toClose + p.left + 2
  | .over _ => 0

/-- Whether there is less to do at a stage than at another one. -/
def Lighter (g : Graph) (st' st : Stage) : Prop :=
  st'.news < st.news ∨ st'.news ≤ st.news ∧ st'.weight g < st.weight g

end Stage

end BlockGraph
