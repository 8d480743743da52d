import BlockGraph.Proofs.Rations
import BlockGraph.Standard.Library
/-!
Plans: what steps the standard blocks list. All of them but two list only steps that are taken once; the
loop and the conditional loop list one step that counts.
-/
namespace BlockGraph

namespace Plan

/-- Whether a plan adds only steps that are taken once. -/
def Single {α : Type} (p : Plan α) : Prop :=
  ∀ (sight : Sight) (planned : Array Step), (∀ step ∈ planned, step.IsSingle) →
    ∀ step ∈ ((p.run sight).run.run planned).2, step.IsSingle

variable {α β : Type}

theorem single_pure (a : α) : Single (pure a) := fun _ _ single => single

theorem single_read : Single (read : Plan Sight) := fun _ _ single => single

theorem single_of (r : Except Fault α) : Single (of r) := by
  intro _ _ single
  cases r <;> exact single

theorem single_step (step : Step) (once : step.IsSingle) : Single (Plan.step step) := by
  intro _ planned single other member
  rcases Array.mem_push.mp member with old | rfl
  · exact single other old
  · exact once

theorem single_bind {p : Plan α} {f : α → Plan β} (first : Single p) (next : ∀ a, Single (f a)) :
    Single (p >>= f) := by
  intro sight planned single
  have begun := first sight planned single
  have same : ((p >>= f).run sight).run.run planned =
      match (p.run sight).run.run planned with
      | (.ok a, planned) => ((f a).run sight).run.run planned
      | (.error fault, planned) => (.error fault, planned) := by
    show _ = _
    simp only [ReaderT.run_bind, ExceptT.run_bind, StateT.run_bind]
    cases (p.run sight).run.run planned with
    | mk r planned => cases r <;> rfl
  rw [same]
  generalize (p.run sight).run.run planned = r at begun
  obtain ⟨r, planned'⟩ := r
  cases r with
  | ok a => exact next a sight planned' begun
  | error fault => exact begun

theorem steps_input (name : String) (f : Value → Plan Unit) (sight : Sight) :
    (input name >>= f).steps sight = (f (Entries.field sight.context.inputs name)).steps sight := rfl

theorem Single.steps {p : Plan Unit} (single : Single p) (sight : Sight) :
    ∀ step ∈ p.steps sight, step.IsSingle := by
  have planned := single sight #[] nofun
  unfold Plan.steps
  generalize (p.run sight).run.run #[] = r at planned
  obtain ⟨r, planned'⟩ := r
  cases r with
  | ok _ => exact fun step member => planned step (Array.mem_toList_iff.mp member)
  | error fault =>
      intro step member
      rcases List.mem_append.mp member with here | last
      · exact planned step (Array.mem_toList_iff.mp here)
      · cases List.mem_singleton.mp last
        trivial

theorem single_input (name : String) : Single (input name) := single_bind single_read fun _ => single_pure _

theorem single_inputOr (name : String) (default : Value) : Single (inputOr name default) :=
  single_bind (single_input name) fun _ => single_pure _

theorem single_number (name : String) (default : Int) : Single (number name default) :=
  single_bind (single_input name) fun _ => single_pure _

theorem single_text (v : Value) : Single (text v) := single_of _

theorem single_json (v : Value) : Single (json v) := single_of _

theorem single_numberText (n : Number) : Single (numberText n) := single_of _

theorem single_stored (key : String) : Single (stored key) :=
  single_bind single_read fun _ => single_pure _

theorem single_say (message : String) : Single (say message) := single_step _ trivial

theorem single_store (key : String) (value : Value) : Single (store key value) := single_step _ trivial

theorem single_emit (port : String) (value : Value) : Single (emit port value) := single_step _ trivial

end Plan

namespace Standard
open Plan

theorem single_eachItem (total done : Nat) (items : List Value) : Single (eachItem total done items) := by
  induction items generalizing done with
  | nil => exact single_pure _
  | cons item rest ih =>
      exact single_bind (single_say _) fun _ => single_bind (single_emit _ _) fun _ => ih _

theorem single_rangeTurns («end» increment : Number) (left done : Nat) (current : Number) :
    Single (rangeTurns «end» increment left done current) := by
  have summary : ∀ (done : Nat) (current : Number), Single (do
      say ("For loop completed after " ++ done.repr ++ " iterations")
      emit "done" (.mapping [(.text "iterations", .int done), (.text "finalValue", .ofNumber current)])) :=
    fun _ _ => single_bind (single_say _) fun _ => single_emit _ _
  induction left generalizing done current with
  | zero => exact summary done current
  | succ left ih =>
      unfold rangeTurns
      dsimp only
      generalize (if increment.isPositive then current.lt «end» else «end».lt current) = goesOn
      cases goesOn with
      | false => exact summary done current
      | true =>
          refine single_bind (single_numberText _) fun _ => single_bind (single_say _) fun _ => ?_
          exact single_bind (single_emit _ _) fun _ => single_bind (single_of _) fun _ => ih _ _

/-- A standard block is one of the two that count, or lists only steps that are taken once. -/
theorem counts_or_single {b : StandardBlock} (standard : b ∈ standardBlocks) :
    b = loop ∨ b = whileLoop ∨ b.type ≠ "loop" ∧ b.type ≠ "while_loop" ∧ Single b.plan := by
  revert b
  simp only [standardBlocks, dataBlocks, controlBlocks, mathBlocks, logicBlocks, exchangeBlocks,
    List.forall_mem_append, List.forall_mem_cons, List.not_mem_nil, false_implies, implies_true, and_true]
  and_intros
  all_goals with_reducible first
    | exact .inl trivial
    | exact .inr (.inl trivial)
    | refine .inr (.inr ⟨?_, ?_, ?_⟩)
  all_goals try decide
  all_goals
    simp only [storedValue, setVariable, getVariable, array, arrayPush, arrayPop, arrayGet, arraySet, object,
      objectGet, objectSet, objectKey, counter, counterIncrement, counterReset, currentCount, stringConcat,
      comment, functionBlock, ifBlock, ifAssign, forRange, returnBlock, delay, add, addAssign, subtract,
      multiply, multiplyAssign, divide, modulo, calculate, random, compare, conjunction, disjunction,
      connective, negation, print, prompt]
  all_goals
    repeat' first
      | with_reducible refine single_bind ?_ fun _ => ?_
      | split
      | simp only [single_pure, single_read, single_of, single_input, single_inputOr, single_number, single_text,
          single_json, single_numberText, single_stored, single_say, single_store, single_emit,
          single_rangeTurns]
      | exact single_step _ trivial

/-! ### The two that count -/

variable {sight : Sight}

/-- Going through a list takes single steps. -/
theorem loop_steps_of_list {items : List Value}
    (given : Entries.field sight.context.inputs "items" = .list items) :
    ∀ step ∈ loop.plan.steps sight, step.IsSingle := by
  have same : loop.plan.steps sight = (eachItem items.length 0 items).steps sight := by
    simp only [loop, steps_input, given]
  rw [same]
  exact (single_eachItem _ _ _).steps sight

theorem loop_steps (other : ∀ items, Entries.field sight.context.inputs "items" ≠ .list items) :
    loop.plan.steps sight =
      [.count 0 ((Entries.field sight.context.inputs "count").toNumber (.int 3))] := by
  simp only [loop, steps_input]
  rfl

theorem whileLoop_steps : whileLoop.plan.steps sight =
    [.turns 0 ((Entries.field sight.context.inputs "maxIterations").toNumber (.int 100))
      (Entries.field sight.context.inputs "condition")] := rfl

end Standard

/-! ### Invocations -/

theorem Process.possible_ends {steps : List Step} (ends : ∀ step ∈ steps, step.Ends) (form : Form) :
    ∀ step ∈ possible form steps, step.Ends := by
  have formed : ∀ steps : List Step, (∀ step ∈ steps, step.Ends) →
      ∀ step ∈ steps.map (inForm form), step.Ends := by
    intro steps ends step member
    obtain ⟨origin, here, rfl⟩ := List.mem_map.mp member
    have old := ends origin here
    unfold inForm
    split
    · trivial
    · exact old
  have few : ∀ step ∈ steps.filter (!sleeps ·), step.Ends := fun step member =>
    ends step (List.mem_of_mem_filter member)
  cases form with
  | stream | deferred => exact formed _ ends
  | sequence | immediate => exact formed _ few

namespace StandardBlock

/-- Whether a block, given its inputs, hands over items without end: a loop that is given no list and counts
to infinity, and a conditional loop whose condition holds and that knows no limit. -/
def Unending (b : StandardBlock) (inputs : Entries) : Prop :=
  b.type = "loop" ∧ (∀ items, Entries.field inputs "items" ≠ .list items) ∧
      (Entries.field inputs "count").toNumber (.int 3) = .infinity ∨
    b.type = "while_loop" ∧ (Entries.field inputs "condition").isTrue = true ∧
      (Entries.field inputs "maxIterations").toNumber (.int 100) = .infinity

/-- One invocation of a block, about to begin. -/
def invoked (b : StandardBlock) (c : Context) : Process := ⟨c, .fresh b.logic⟩

variable {b : StandardBlock} {c : Context}

/-- What a block sees when it is invoked. -/
def sight (c : Context) (s : Session) : Sight :=
  ⟨c, (s.slotsOf c.run).slot c.elementId, (s.slotsOf c.run).slot Slots.globalId, s.draws.current⟩

theorem start_invoked (b : StandardBlock) (c : Context) (s : Session) :
    Process.start c b.logic s = ⟨Process.possible b.form (b.plan.steps (sight c s)), [], none⟩ := rfl

theorem steps_end (standard : b ∈ standardBlocks) {sight : Sight} (finite : ¬b.Unending sight.context.inputs) :
    ∀ step ∈ b.plan.steps sight, step.Ends := by
  rcases Standard.counts_or_single standard with rfl | rfl | ⟨_, _, single⟩
  · by_cases given : ∃ items, Entries.field sight.context.inputs "items" = .list items
    · obtain ⟨items, given⟩ := given
      exact fun step member => (Standard.loop_steps_of_list given step member).ends
    · have other := not_exists.mp given
      rw [Standard.loop_steps other]
      intro step member
      cases List.mem_singleton.mp member
      exact fun endless => finite (.inl ⟨rfl, other, endless⟩)
  · rw [Standard.whileLoop_steps]
    intro step member
    cases List.mem_singleton.mp member
    exact fun holds endless => finite (.inr ⟨rfl, holds, endless⟩)
  · exact fun step member => (single.steps sight step member).ends

/-- All steps of an invocation come to an end, unless its inputs make it endless. -/
theorem invoked_ends (standard : b ∈ standardBlocks) (finite : ¬b.Unending c.inputs) : (b.invoked c).Ends := by
  intro s step member
  have member : step ∈ (Process.start c b.logic s).steps ++ [] := member
  rw [start_invoked, List.append_nil] at member
  exact Process.possible_ends (steps_end standard finite) b.form step member

theorem invoked_intact (b : StandardBlock) (c : Context) : (b.invoked c).Intact := nofun

/-! ### Endless invocations -/

end StandardBlock

/-- Logic with one step, which hands over an item and leaves the next such step, never ends. -/
theorem Process.pause_item {p : Process} (step : Nat → Step)
    (begins : ∀ s, p.resume s = p.put (Cursor.resume p.context ⟨[step 0], [], none⟩ s))
    (comes : ∀ n s, ∃ v s', (step n).take p.context s = (.itemThen v (step (n + 1)), s'))
    (sessions : Nat → Session) (n : Nat) : ∃ v, p.pause sessions n = .item v := by
  have goes : ∀ n s, ∃ v s', Cursor.resume p.context ⟨[step n], [], none⟩ s =
      (.item v, .resting ⟨[step (n + 1)], [], none⟩, s') := by
    intro n s
    obtain ⟨v, s', taken⟩ := comes n s
    refine ⟨v, s', ?_⟩
    simp only [Cursor.resume, Cursor.advance, taken]
  have stands : ∀ n s, (p.after sessions n).resume s =
      p.put (Cursor.resume p.context ⟨[step n], [], none⟩ s) := by
    intro n
    induction n with
    | zero => exact begins
    | succ n ih =>
        intro s
        obtain ⟨v, s', resumed⟩ := goes n (sessions n)
        rw [after, ih, resumed]
        rfl
  obtain ⟨v, s', resumed⟩ := goes n (sessions n)
  refine ⟨v, ?_⟩
  rw [pause, stands, resumed]
  rfl

namespace StandardBlock

variable {b : StandardBlock} {c : Context}

theorem loop_unending (other : ∀ items, Entries.field c.inputs "items" ≠ .list items)
    (endless : (Entries.field c.inputs "count").toNumber (.int 3) = .infinity) (sessions : Nat → Session)
    (n : Nat) : ∃ v, (invoked Standard.loop c).pause sessions n = .item v := by
  refine Process.pause_item (fun n => .count n .infinity) (fun s => ?_) (fun n s => ⟨_, _, rfl⟩) sessions n
  show Process.put _ (Cursor.resume c (Process.start c Standard.loop.logic s) s) = _
  have given : ∀ items, Entries.field (sight c s).context.inputs "items" ≠ .list items := other
  rw [start_invoked, Standard.loop_steps given]
  show Process.put _ (Cursor.resume c ⟨[.count 0 (Value.toNumber _ _)], [], none⟩ s) = _
  rw [show Entries.field (sight c s).context.inputs "count" = Entries.field c.inputs "count" from rfl, endless]
  rfl

theorem whileLoop_unending (holds : (Entries.field c.inputs "condition").isTrue = true)
    (endless : (Entries.field c.inputs "maxIterations").toNumber (.int 100) = .infinity)
    (sessions : Nat → Session) (n : Nat) :
    ∃ v, (invoked Standard.whileLoop c).pause sessions n = .item v := by
  refine Process.pause_item (fun n => .turns n .infinity (Entries.field c.inputs "condition"))
    (fun s => ?_) (fun n s => ?_) sessions n
  · show Process.put _ (Cursor.resume c (Process.start c Standard.whileLoop.logic s) s) = _
    rw [start_invoked, Standard.whileLoop_steps]
    show Process.put _ (Cursor.resume c ⟨[.turns 0 (Value.toNumber _ _) _], [], none⟩ s) = _
    rw [show Entries.field (sight c s).context.inputs "maxIterations" = Entries.field c.inputs "maxIterations"
      from rfl, endless]
    rfl
  · have below : Number.lt (.int n) .infinity = true := rfl
    have never : Number.le .infinity (.int n) = false := rfl
    simp only [Step.take, Step.turned, never, below, holds, Bool.and_false, Bool.and_self]
    exact ⟨_, _, rfl⟩

/-- An invocation that its inputs make endless hands over an item whenever it goes on. -/
theorem invoked_unending (standard : b ∈ standardBlocks) (endless : b.Unending c.inputs)
    (sessions : Nat → Session) (n : Nat) : ∃ v, (b.invoked c).pause sessions n = .item v := by
  rcases Standard.counts_or_single standard with rfl | rfl | ⟨other, other', _⟩
  · rcases endless with ⟨_, other, endless⟩ | ⟨type, _⟩
    · exact loop_unending other endless sessions n
    · exact absurd type (by decide)
  · rcases endless with ⟨type, _⟩ | ⟨_, holds, endless⟩
    · exact absurd type (by decide)
    · exact whileLoop_unending holds endless sessions n
  · rcases endless with ⟨type, _⟩ | ⟨type, _⟩
    · exact absurd type other
    · exact absurd type other'

end StandardBlock

end BlockGraph
