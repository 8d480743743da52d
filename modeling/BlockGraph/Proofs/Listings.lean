import BlockGraph.Proofs.Recursion
import Mathlib.Data.List.Forall2
/-!
Logic that does nothing but hand over items. In whatever form it comes, it is asked for them one after the other
and nothing else comes of that, so that sources of the same items cannot be told apart by what is taken from them.
-/
namespace BlockGraph

/-- Whether all that a step does is to hand over an item. -/
def Step.HandsOver (c : Context) (step : Step) (v : Value) : Prop := ∀ s, step.take c s = (.item v, s)

/-- Whether the steps that are left do nothing but hand over some items. -/
structure Cursor.Lists (c : Context) (cursor : Cursor) (items : List Value) : Prop where
  steps : List.Forall₂ (Step.HandsOver c) cursor.steps items
  closing : cursor.closing = []
  going : cursor.pending? = none

/-- Whether logic does nothing but hand over some items, whatever it is told and wherever it is started. -/
def Logic.Lists (l : Logic) (items : List Value) : Prop := ∀ c s, (Process.start c l s).Lists c items

/-- Whether logic under way does nothing any more but hand over some items. -/
inductive Process.Lists : Process → List Value → Prop
  | fresh {c : Context} {l : Logic} {items : List Value} : l.Lists items → Lists ⟨c, .fresh l⟩ items
  | resting {c : Context} {cursor : Cursor} {items : List Value} :
      cursor.Lists c items → Lists ⟨c, .resting cursor⟩ items
  | over {c : Context} : Lists ⟨c, .over⟩ []

/-- Whether all that comes from a source is some items. -/
inductive Source.Lists : Source → List Value → Prop
  | gathering {p : Process} {collected items : List Value} :
      p.Lists items → Lists (.gathering p collected) (collected.reverse ++ items)
  | items (vs : List Value) : Lists (.items vs) vs
  | sequence {p : Process} {items : List Value} : p.Lists items → Lists (.sequence p) items
  | stream {p : Process} {items : List Value} : p.Lists items → Lists (.stream p) items
  | deferred {p : Process} {items : List Value} : p.Lists items → Lists (.deferred p) items

/-! ### Steps and logic -/

namespace Step

variable {c : Context} {step : Step} {v : Value}

theorem item_handsOver (v : Value) : (item v).HandsOver c v := fun _ => rfl

/-- An emission that passes its check where it is emitted. -/
theorem emit_handsOver {port value : Value} {e : Emission} (valid : Emission.ofParts port value = .ok e) :
    (emit port value).HandsOver c e.toItem := by
  intro s
  simp only [take, emitted, valid]

/-- A step that hands over an item does so in every form. -/
theorem HandsOver.possible (h : step.HandsOver c v) (s : Session) (form : Form) :
    Process.sleeps step = false ∧ Process.inForm form step = step := by
  have taken := h s
  cases step with
  | sleep length | insist length | «raise» f => cases taken
  | _ => exact ⟨rfl, rfl⟩

end Step

namespace Process

variable {c : Context} {s : Session}

theorem possible_handsOver {steps : List Step} {items : List Value}
    (h : List.Forall₂ (Step.HandsOver c) steps items) (s : Session) (form : Form) :
    Process.possible form steps = steps := by
  have each : ∀ step ∈ steps, Process.sleeps step = false ∧ Process.inForm form step = step := by
    induction h with
    | nil => exact List.forall_mem_nil _
    | cons first rest ih => exact List.forall_mem_cons.mpr ⟨first.possible s form, ih⟩
  have same : steps.map (inForm form) = steps :=
    (List.map_congr_left fun step member => (each step member).2).trans (List.map_id' steps)
  have awake : steps.filter (!sleeps ·) = steps :=
    List.filter_eq_self.mpr fun step member => by rw [(each step member).1, Bool.not_false]
  cases form <;> simp only [Process.possible, same, awake]

end Process

namespace Logic

variable {items : List Value}

/-- Steps that hand over items make logic that lists them, in each of the four forms. -/
theorem lists_script (form : Form) {steps : List Step}
    (h : ∀ c, List.Forall₂ (Step.HandsOver c) steps items) : (script form steps []).Lists items := by
  intro c s
  have none : Process.possible form [] = [] := by cases form <;> rfl
  rw [Process.start, Process.possible_handsOver (h c) s, none]
  exact ⟨h c, rfl, rfl⟩

/-- The items as they are, handed over in each of the four forms. -/
theorem lists_items (form : Form) (items : List Value) : (script form (items.map .item) []).Lists items := by
  refine lists_script form fun c => ?_
  rw [List.forall₂_map_left_iff]
  exact List.forall₂_same.mpr fun v _ => Step.item_handsOver v

/-- A value that is returned stands for the items that it is made of. -/
theorem lists_constant (form : Form) {v : Value} (iterates : v.iterate = .ok items) :
    (constant form v).Lists items := by
  intro c s
  have steps : Process.itemSteps v = items.map .item := by
    unfold Process.itemSteps
    split
    · cases iterates
    · rw [iterates]
  rw [Process.start, steps]
  refine ⟨?_, rfl, rfl⟩
  rw [List.forall₂_map_left_iff]
  exact List.forall₂_same.mpr fun v _ => Step.item_handsOver v

/-- Logic that returns nothing has no items. -/
theorem lists_null (form : Form) : (constant form .null).Lists [] := fun _ _ => ⟨.nil, rfl, rfl⟩

end Logic

/-! ### Logic under way -/

namespace Cursor.Lists

variable {c : Context} {cursor : Cursor} {items : List Value} {v : Value}

theorem resume_nil (h : cursor.Lists c []) (s : Session) : cursor.resume c s = (.ended .normal, .over, s) := by
  obtain ⟨steps, closing, pending?⟩ := cursor
  obtain ⟨steps, closing, going⟩ := h
  cases steps
  cases closing
  cases going
  rfl

theorem resume_cons (h : cursor.Lists c (v :: items)) (s : Session) :
    ∃ next : Cursor, cursor.resume c s = (.item v, .resting next, s) ∧ next.Lists c items := by
  obtain ⟨steps, closing, pending?⟩ := cursor
  obtain ⟨steps, closing, going⟩ := h
  cases steps with
  | @cons step _ rest _ first others =>
      cases closing
      cases going
      refine ⟨⟨rest, [], none⟩, ?_, others, rfl, rfl⟩
      simp only [Cursor.resume, Cursor.advance, first s]

theorem close (h : cursor.Lists c items) (s : Session) :
    cursor.breakOff c .closed s = (.ended .closed, .over, s) := by
  obtain ⟨steps, closing, pending?⟩ := cursor
  obtain ⟨_, closing, going⟩ := h
  cases closing
  cases going
  rfl

end Cursor.Lists

namespace Process.Lists

variable {p : Process} {items : List Value} {v : Value}

theorem resume_nil (h : p.Lists []) (s : Session) : ∃ q, p.resume s = (.ended .normal, q, s) := by
  cases h with
  | fresh lists => exact ⟨_, congrArg (Process.put _) ((lists _ s).resume_nil s)⟩
  | resting lists => exact ⟨_, congrArg (Process.put _) (lists.resume_nil s)⟩
  | «over» => exact ⟨_, rfl⟩

theorem resume_cons (h : p.Lists (v :: items)) (s : Session) :
    ∃ q, p.resume s = (.item v, q, s) ∧ q.Lists items := by
  cases h with
  | fresh lists =>
      obtain ⟨next, resumed, rest⟩ := (lists _ s).resume_cons s
      exact ⟨_, congrArg (Process.put _) resumed, .resting rest⟩
  | resting lists =>
      obtain ⟨next, resumed, rest⟩ := lists.resume_cons s
      exact ⟨_, congrArg (Process.put _) resumed, .resting rest⟩

/-- Logic that lists items is run to its end without a trace. -/
theorem gather (h : p.Lists items) (s : Session) (collected : List Value) :
    p.gather s collected = some (.normal, collected.reverse ++ items, s) := by
  induction items generalizing p collected with
  | nil =>
      obtain ⟨q, resumed⟩ := h.resume_nil s
      rw [Process.gather, resumed, List.append_nil]
  | cons v rest ih =>
      obtain ⟨q, resumed, lists⟩ := h.resume_cons s
      rw [Process.gather, resumed]
      simp only
      rw [ih lists, List.reverse_cons, List.append_assoc, List.singleton_append]

theorem shut (h : p.Lists items) (s : Session) : p.shut s = some s := by
  have closes : ∃ q, p.close s = (.ended .closed, q, s) := by
    cases h with
    | resting lists => exact ⟨_, congrArg (Process.put _) (lists.close s)⟩
    | _ => exact ⟨_, rfl⟩
  obtain ⟨q, closed⟩ := closes
  rw [Process.shut, closed]

end Process.Lists

/-! ### Sources -/

namespace Source

variable {source : Source} {items : List Value} {v : Value}

/-- The source of an element whose logic lists items. -/
theorem lists_ofLogic {l : Logic} (h : l.Lists items) (c : Context) : (ofLogic c l).Lists items := by
  have fresh : Process.Lists ⟨c, .fresh l⟩ items := .fresh h
  unfold ofLogic
  simp only
  split
  · exact .stream fresh
  · exact .sequence fresh
  · exact .deferred fresh
  · exact .gathering fresh

namespace Lists

/-- When a source has no item left, the element comes to its end. -/
theorem pull_nil (h : source.Lists []) (s : Session) (e : Element) : s.pull e source = some (.ok none, s) := by
  generalize none_ : ([] : List Value) = items at h
  cases h with
  | gathering lists =>
      rw [Session.pull, lists.gather, ← none_]
      rfl
  | items vs =>
      cases none_
      rfl
  | sequence lists | stream lists =>
      cases none_
      obtain ⟨q, resumed⟩ := lists.resume_nil s
      rw [Session.pull, Process.await, resumed]
      rfl
  | deferred lists =>
      cases none_
      rw [Session.pull, lists.gather]
      rfl

/-- A source hands over the first of its items, and keeps the others. -/
theorem pull_cons (h : source.Lists (v :: items)) (s : Session) (e : Element) :
    ∃ next : Source, s.pull e source = some (.ok (some (v, next)), s) ∧ next.Lists items := by
  generalize some_ : v :: items = all at h
  cases h with
  | gathering lists =>
      refine ⟨.items items, ?_, .items items⟩
      rw [Session.pull, lists.gather, ← some_]
      rfl
  | items vs =>
      cases some_
      exact ⟨.items items, rfl, .items items⟩
  | sequence lists =>
      cases some_
      obtain ⟨q, resumed, rest⟩ := lists.resume_cons s
      refine ⟨.sequence q, ?_, .sequence rest⟩
      rw [Session.pull, Process.await, resumed]
      rfl
  | stream lists =>
      cases some_
      obtain ⟨q, resumed, rest⟩ := lists.resume_cons s
      refine ⟨.stream q, ?_, .stream rest⟩
      rw [Session.pull, Process.await, resumed]
      rfl
  | deferred lists =>
      cases some_
      refine ⟨.items items, ?_, .items items⟩
      rw [Session.pull, lists.gather]
      rfl

/-- Nothing comes of closing a source of items. -/
theorem shut (h : source.Lists items) (s : Session) : source.shut s = some s := by
  cases h with
  | sequence lists | stream lists => exact lists.shut s
  | _ => rfl

end Lists

end Source

end BlockGraph
