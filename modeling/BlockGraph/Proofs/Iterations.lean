import BlockGraph.Proofs.Equalities
import BlockGraph.Proofs.Remainders
import Mathlib.Data.Rat.Floor
/-!
Iterations: what the loop blocks hand over when they are given integers. A range loop hands over its indices up to its
limit of turns and then a summary, a conditional loop its turns and a summary, and a loop the items of a list or the
numbers below its count. An item that is too large to be emitted ends a loop.
-/
namespace BlockGraph

/-! ### Turns of a range -/

/-- How many steps lead from an integer up to or past an end: none, or less, when the end does not lie ahead. -/
def turnsTo (stop step current : ℤ) : ℤ := ⌈((stop - current : ℤ) : ℚ) / step⌉

section

variable {stop step current : ℤ}

/-- There are turns left as long as the end lies ahead. -/
theorem turnsTo_pos (moves : step ≠ 0) :
    0 < turnsTo stop step current ↔ if 0 < step then current < stop else stop < current := by
  rw [turnsTo, Int.ceil_pos]
  rcases lt_or_gt_of_ne moves with back | forward
  · have downward : (step : ℚ) < 0 := by exact_mod_cast back
    have sides : 0 < ((stop - current : ℤ) : ℚ) / step ↔ ((stop - current : ℤ) : ℚ) < 0 := by
      simp only [div_pos_iff, downward, downward.not_gt, and_true, and_false, false_or]
    rw [if_neg (by omega), sides, Int.cast_lt_zero, sub_neg]
  · have upward : (0 : ℚ) < step := by exact_mod_cast forward
    rw [if_pos forward, div_pos_iff_of_pos_right upward, Int.cast_pos, sub_pos]

/-- Each turn leaves one less. -/
theorem turnsTo_next (moves : step ≠ 0) : turnsTo stop step (current + step) = turnsTo stop step current - 1 := by
  have some : (step : ℚ) ≠ 0 := by exact_mod_cast moves
  rw [turnsTo, turnsTo, ← Int.ceil_sub_one]
  congr 1
  field_simp
  push_cast
  ring

end

namespace Standard
open Plan

variable {sight : Sight} {condition : Value}

/-! ### Range loops -/

/-- What a range loop hands over at a turn, counted from zero. -/
def rangeBody (start step : ℤ) (k : ℕ) : Emission :=
  ⟨"body", .mapping [(.text "index", .int (start + k * step)), (.text "iteration", .int (k + 1))]⟩

/-- What a range loop hands over in the end. -/
def rangeDone (start step : ℤ) (n : ℕ) : Emission :=
  ⟨"done", .mapping [(.text "iterations", .int n), (.text "finalValue", .int (start + n * step))]⟩

section

variable {start stop step : ℤ} {left done : ℕ}

theorem rangeTurns_next (moves : step ≠ 0) {current : ℤ} (more : 0 < turnsTo stop step current) :
    rangeTurns (.int stop) (.int step) (left + 1) done (.int current) = (do
      say ("For loop iteration " ++ (done + 1).repr ++ ": i = " ++ (← numberText (.int current)))
      emit "body" (.mapping [(.text "index", .int current), (.text "iteration", .int (done + 1 : ℕ))])
      rangeTurns (.int stop) (.int step) left (done + 1) (.int (current + step))) := by
  have goesOn : (if Number.isPositive (.int step) then Number.lt (.int current) (.int stop)
      else Number.lt (.int stop) (.int current)) = true := by
    rw [turnsTo_pos moves] at more
    simpa only [Number.isPositive, Number.lt_int, decide_eq_true_eq, apply_ite (· = true)] using more
  rw [rangeTurns.eq_1 _ _ _ _ _ goesOn]
  rfl

theorem rangeTurns_over (moves : step ≠ 0) {current : ℤ} (none : 0 < left → ¬0 < turnsTo stop step current) :
    rangeTurns (.int stop) (.int step) left done (.int current) = (do
      say ("For loop completed after " ++ done.repr ++ " iterations")
      emit "done" (.mapping [(.text "iterations", .int done), (.text "finalValue", .int current)])) := by
  refine rangeTurns.eq_2 _ _ _ _ _ fun less some goesOn => none (by omega) ?_
  rw [turnsTo_pos moves]
  simpa only [Number.isPositive, Number.lt_int, decide_eq_true_eq, apply_ite (· = true)] using goesOn

/-- What lies between two integers that can be shown can be shown. -/
theorem printable_next (moves : step ≠ 0) (shown : stop.natAbs < digitBound) {current : ℤ}
    (printable : current.natAbs < digitBound) (more : 0 < turnsTo stop step (current + step)) :
    (current + step).natAbs < digitBound := by
  rw [turnsTo_pos moves] at more
  split at more <;> omega

/-- What a range loop that has some turns behind it and may take some more has ahead. -/
theorem rangeTurns_gives (moves : step ≠ 0) (shown : stop.natAbs < digitBound)
    (printable : 0 < turnsTo stop step (start + done * step) → (start + done * step).natAbs < digitBound) {n : ℕ}
    (turns : (n : ℤ) = min (left : ℤ) (max 0 (turnsTo stop step (start + done * step)))) :
    (rangeTurns (.int stop) (.int step) left done (.int (start + done * step))).Gives sight fun es e =>
      es = (List.range' done n).map (rangeBody start step) ++ [rangeDone start step (done + n)] ∧ e = .normal := by
  induction n generalizing left done with
  | zero =>
      rw [rangeTurns_over moves (by omega)]
      refine gives_say _ (gives_emitted rfl ?_ ?_)
      · exact fun _ => ⟨rfl, rfl⟩
      · exact fun large => (large trivial).elim
  | succ n ih =>
      obtain ⟨left, rfl⟩ : ∃ l, left = l + 1 := ⟨left - 1, by omega⟩
      have more : 0 < turnsTo stop step (start + done * step) := by omega
      have shown' := printable more
      have next : start + ((done + 1 : ℕ) : ℤ) * step = start + done * step + step := by push_cast; ring
      have fewer : turnsTo stop step (start + done * step + step) = turnsTo stop step (start + done * step) - 1 :=
        turnsTo_next moves
      have rest := @ih left (done + 1)
        (fun more => next ▸ printable_next moves shown shown' (next ▸ more)) (by rw [next]; omega)
      rw [next] at rest
      rw [rangeTurns_next moves more]
      refine gives_of (fun line _ => gives_say _ (gives_emit rfl (rest.imp ?_) ?_)) ?_
      · rintro _ _ ⟨rfl, rfl⟩ _
        refine ⟨?_, rfl⟩
        rw [List.range'_succ, List.map_cons, List.cons_append, Nat.add_right_comm]
        rfl
      · exact fun large => (large trivial).elim
      · intro fault fails
        cases (Value.numberText_int shown').symm.trans fails

end

/-! ### Conditional loops -/

/-- What a conditional loop hands over at a turn, counted from zero. -/
def turnBody (condition : Value) (k : ℕ) : Emission :=
  ⟨"body", .mapping [(.text "iteration", .int (k + 1)), (.text "condition", condition)]⟩

/-- What a conditional loop hands over in the end. -/
def turnsDone (n : ℕ) : Emission := ⟨"done", .mapping [(.text "iterations", .int n)]⟩

section

variable {c : Context} {limit : ℤ} {done n : ℕ}

theorem turned_next (more : (done : ℤ) < limit) (holds : condition.isTrue = true) (s : Session) :
    ((Step.turns done (.int limit) condition).take c s).1 =
      .itemThen (turnBody condition done).toItem (.turns (done + 1) (.int limit) condition) := by
  have goesOn : (decide (0 < done) && Number.le (.int limit) (.int done)) = false := by
    rw [Number.le_int, decide_eq_false (not_le.mpr more), Bool.and_false]
  have goes : (Number.lt (.int done) (.int limit) && condition.isTrue) = true := by
    rw [Number.lt_int, decide_eq_true more, holds, Bool.and_true]
  simp only [Step.take, Step.turned, goesOn, goes, Bool.false_eq_true, if_false, if_true]
  rfl

theorem turned_over (shown : limit.natAbs < digitBound) (none : (done : ℤ) < limit → condition.isTrue = false)
    (s : Session) : ((Step.turns done (.int limit) condition).take c s).1 = .item (turnsDone done).toItem := by
  have goes : (Number.lt (.int done) (.int limit) && condition.isTrue) = false := by
    rw [Number.lt_int]
    by_cases more : (done : ℤ) < limit
    · rw [none more, Bool.and_false]
    · rw [decide_eq_false more, Bool.false_and]
  simp only [Step.take, Step.turned, goes, Bool.false_eq_true, if_false, Value.numberText_int shown]
  split <;> rfl

/-- What a conditional loop that has some turns behind it hands over. -/
theorem turns_emits (shown : limit.natAbs < digitBound)
    (turns : n = if condition.isTrue then (limit - done).toNat else 0) :
    Cursor.Emits c [.turns done (.int limit) condition]
      ((List.range' done n).map (turnBody condition) ++ [turnsDone (done + n)]) .normal := by
  induction n generalizing done with
  | zero =>
      refine .item (turned_over shown fun more => ?_) .over
      by_contra holds
      rw [Bool.not_eq_false] at holds
      rw [if_pos holds] at turns
      omega
  | succ n ih =>
      have holds : condition.isTrue = true := by
        by_contra fails
        rw [if_neg fails] at turns
        omega
      rw [if_pos holds] at turns
      have rest := @ih (done + 1) (by rw [if_pos holds]; omega)
      rw [List.range'_succ, List.map_cons, List.cons_append, Nat.add_comm n 1, ← Nat.add_assoc]
      exact .itemThen (turned_next (by omega) holds) rest

end

/-! ### Loops over numbers and lists -/

/-- What a loop hands over at a turn. -/
def loopItem (v : Value) : Emission := ⟨"item", v⟩

section

variable {c : Context} {limit : ℤ} {next n : ℕ}

theorem count_emits (shown : limit.natAbs < digitBound) (turns : n = (limit - next).toNat) :
    Cursor.Emits c [.count next (.int limit)] ((List.range' next n).map fun k : ℕ => loopItem (.int k)) .normal := by
  induction n generalizing next with
  | zero =>
      refine .pass (fun s => ?_) .over
      simp only [Step.take, Step.counted, Number.lt_int, decide_eq_true_eq, if_neg (show ¬(next : ℤ) < limit by omega)]
  | succ n ih =>
      rw [List.range'_succ, List.map_cons]
      refine .itemThen (fun s => ?_) (ih (by omega))
      simp only [Step.take, Step.counted, Number.lt_int, decide_eq_true_eq, if_pos (show (next : ℤ) < limit by omega),
        Value.numberText_int shown]
      rfl

/-- A loop hands over the items of a list as far as they are small enough, and fails at the first that is too large. -/
theorem eachItem_gives (total done : ℕ) (items : List Value) :
    (eachItem total done items).Gives sight fun es e =>
      es = (items.takeWhile (·.Emittable)).map loopItem ∧
        e = (items.find? (¬·.Emittable)).elim .normal (.fault ·.refusal) := by
  induction items generalizing done with
  | nil => exact gives_pure ⟨rfl, rfl⟩
  | cons item rest ih =>
      refine gives_say _ (gives_emit rfl ((ih (done + 1)).imp ?_) ?_)
      · rintro _ _ ⟨rfl, rfl⟩ fits
        simp [fits, loopItem]
      · intro large
        simp [large]

end

/-! ### The loop blocks -/

section

variable {c : Context} {sessions : ℕ → Session}

theorem forRange_emits {start stop step : ℤ} (first : (Entries.field c.inputs "start").toNumber (.int 0) = .int start)
    (last : (Entries.field c.inputs "end").toNumber (.int 10) = .int stop)
    (increment : (Entries.field c.inputs "step").toNumber (.int 1) = .int step) (moves : step ≠ 0)
    (shown : start.natAbs < digitBound) (shown' : stop.natAbs < digitBound) {n : ℕ}
    (turns : (n : ℤ) = min 1000 (max 0 ⌈((stop - start : ℤ) : ℚ) / step⌉)) :
    (forRange.invoked c).Emits sessions ((List.range n).map (rangeBody start step) ++ [rangeDone start step n])
      .normal := by
  have here : start + (0 : ℕ) * step = start := by simp
  have given : forRange.plan.Gives (StandardBlock.sight c (sessions 0)) fun es e =>
      es = (List.range' 0 n).map (rangeBody start step) ++ [rangeDone start step (0 + n)] ∧ e = .normal := by
    show Gives (if Number.isZero ((Entries.field c.inputs "step").toNumber (.int 1)) then _ else
      rangeTurns ((Entries.field c.inputs "end").toNumber (.int 10))
        ((Entries.field c.inputs "step").toNumber (.int 1)) rangeLimit 0
        ((Entries.field c.inputs "start").toNumber (.int 0))) _ _
    have some : Number.isZero (.int step) = false := by simpa [Number.isZero] using moves
    rw [first, last, increment, some, if_neg Bool.false_ne_true]
    have turning := @rangeTurns_gives (StandardBlock.sight c (sessions 0)) start stop step rangeLimit 0 moves shown'
      (fun _ => here.symm ▸ shown) n (by rw [here]; exact turns)
    rwa [here] at turning
  obtain ⟨es, e, emits, rfl, rfl⟩ := StandardBlock.invoked_emits rfl given
  rwa [Nat.zero_add, ← List.range_eq_range'] at emits

theorem whileLoop_emits {limit : ℤ}
    (most : (Entries.field c.inputs "maxIterations").toNumber (.int 100) = .int limit)
    (shown : limit.natAbs < digitBound) {n : ℕ}
    (turns : n = if (Entries.field c.inputs "condition").isTrue then limit.toNat else 0) :
    (whileLoop.invoked c).Emits sessions
      ((List.range n).map (turnBody (Entries.field c.inputs "condition")) ++ [turnsDone n]) .normal := by
  have given : whileLoop.plan.Gives (StandardBlock.sight c (sessions 0)) fun es e =>
      es = (List.range' 0 n).map (turnBody (Entries.field c.inputs "condition")) ++ [turnsDone (0 + n)] ∧
        e = .normal := by
    show Gives (step (.turns 0 ((Entries.field c.inputs "maxIterations").toNumber (.int 100))
      (Entries.field c.inputs "condition"))) _ _
    rw [most]
    exact gives_step (turns_emits shown (by simpa using turns)) ⟨rfl, rfl⟩
  obtain ⟨es, e, emits, rfl, rfl⟩ := StandardBlock.invoked_emits rfl given
  rwa [Nat.zero_add, ← List.range_eq_range'] at emits

theorem loop_emits_items {items : List Value} (given : Entries.field c.inputs "items" = .list items) :
    (loop.invoked c).Emits sessions ((items.takeWhile (·.Emittable)).map loopItem)
      ((items.find? (¬·.Emittable)).elim .normal (.fault ·.refusal)) := by
  have gives : loop.plan.Gives (StandardBlock.sight c (sessions 0)) fun es e =>
      es = (items.takeWhile (·.Emittable)).map loopItem ∧
        e = (items.find? (¬·.Emittable)).elim .normal (.fault ·.refusal) := by
    refine gives_input _ ?_
    simp only [StandardBlock.sight, given]
    exact eachItem_gives items.length 0 items
  obtain ⟨es, e, emits, rfl, rfl⟩ := StandardBlock.invoked_emits rfl gives
  exact emits

theorem loop_emits_numbers {count : ℤ} (none : ∀ items, Entries.field c.inputs "items" ≠ .list items)
    (given : (Entries.field c.inputs "count").toNumber (.int 3) = .int count) (shown : count.natAbs < digitBound) :
    (loop.invoked c).Emits sessions ((List.range count.toNat).map fun k : ℕ => loopItem (.int k)) .normal := by
  have gives : loop.plan.Gives (StandardBlock.sight c (sessions 0)) fun es e =>
      es = ((List.range' 0 count.toNat).map fun k : ℕ => loopItem (.int k)) ∧ e = .normal := by
    have counting : Gives (step (.count 0 ((Entries.field c.inputs "count").toNumber (.int 3))))
        (StandardBlock.sight c (sessions 0)) fun es e =>
          es = ((List.range' 0 count.toNat).map fun k : ℕ => loopItem (.int k)) ∧ e = .normal := by
      rw [given]
      exact gives_step (count_emits shown (by simp)) ⟨rfl, rfl⟩
    refine gives_input _ ?_
    cases found : Entries.field c.inputs "items" with
    | list items => exact absurd found (none items)
    | _ =>
        simp only [StandardBlock.sight, found]
        exact gives_number _ _ counting
  obtain ⟨es, e, emits, rfl, rfl⟩ := StandardBlock.invoked_emits rfl gives
  rwa [← List.range_eq_range'] at emits

end

/-- What the loop blocks hand over when they are given integers that can be written out. -/
theorem loops_emit (c : Context) (sessions : ℕ → Session) :
    (∀ start stop step : ℤ, (Entries.field c.inputs "start").toNumber (.int 0) = .int start →
      (Entries.field c.inputs "end").toNumber (.int 10) = .int stop →
      (Entries.field c.inputs "step").toNumber (.int 1) = .int step → step ≠ 0 →
      start.natAbs < digitBound → stop.natAbs < digitBound →
      ∃ n : ℕ, (n : ℤ) = min 1000 (max 0 ⌈((stop - start : ℤ) : ℚ) / step⌉) ∧ (forRange.invoked c).Emits sessions
        ((List.range n).map (rangeBody start step) ++ [rangeDone start step n]) .normal) ∧
    (∀ limit : ℤ, (Entries.field c.inputs "maxIterations").toNumber (.int 100) = .int limit →
      limit.natAbs < digitBound →
      ∃ n : ℕ, n = (if (Entries.field c.inputs "condition").isTrue then limit.toNat else 0) ∧
        (whileLoop.invoked c).Emits sessions
          ((List.range n).map (turnBody (Entries.field c.inputs "condition")) ++ [turnsDone n]) .normal) ∧
    (∀ items, Entries.field c.inputs "items" = .list items →
      (loop.invoked c).Emits sessions ((items.takeWhile (·.Emittable)).map loopItem)
        ((items.find? (¬·.Emittable)).elim .normal (.fault ·.refusal))) ∧
    (∀ count : ℤ, (∀ items, Entries.field c.inputs "items" ≠ .list items) →
      (Entries.field c.inputs "count").toNumber (.int 3) = .int count → count.natAbs < digitBound →
      (loop.invoked c).Emits sessions ((List.range count.toNat).map fun k : ℕ => loopItem (.int k)) .normal) := by
  refine ⟨fun start stop step first last increment moves shown shown' => ?_, fun limit most shown => ?_,
    fun items given => loop_emits_items given, fun count none given shown => loop_emits_numbers none given shown⟩
  · obtain ⟨n, turns⟩ := Int.eq_ofNat_of_zero_le
      (a := min 1000 (max 0 ⌈((stop - start : ℤ) : ℚ) / step⌉)) (by omega)
    exact ⟨n, turns.symm, forRange_emits first last increment moves shown shown' turns.symm⟩
  · exact ⟨_, rfl, whileLoop_emits most shown rfl⟩

/-- An element that is given bounds, a limit of turns and items. -/
def bounds (items : List Value) : Context :=
  ⟨"A", "loop", [(.text "start", .int 1), (.text "end", .int 8), (.text "step", .int 3),
    (.text "maxIterations", .int 2), (.text "condition", .bool true), (.text "items", .list items)], [], [], 0⟩

theorem loops_emit_bounds : ∀ sessions,
    (forRange.invoked (bounds [.int 5])).Emits sessions
      [rangeBody 1 3 0, rangeBody 1 3 1, rangeBody 1 3 2, rangeDone 1 3 3] .normal ∧
    (whileLoop.invoked (bounds [.int 5])).Emits sessions
      [turnBody (.bool true) 0, turnBody (.bool true) 1, turnsDone 2] .normal ∧
    (loop.invoked (bounds [.int 5, .text "last"])).Emits sessions [loopItem (.int 5), loopItem (.text "last")] .normal ∧
    (loop.invoked ⟨"A", "loop", [(.text "count", .int 2)], [], [], 0⟩).Emits sessions
      [loopItem (.int 0), loopItem (.int 1)] .normal := by
  intro sessions
  have shown {a : ℤ} (small : a.natAbs ≤ 2 ^ 3) : a.natAbs < digitBound := lt_digitBound (by decide) small
  obtain ⟨range, turns, -, -⟩ := loops_emit (bounds [.int 5]) sessions
  obtain ⟨n, three, emits⟩ :=
    range 1 8 3 rfl rfl rfl (by decide) (shown (by decide)) (shown (by decide))
  obtain ⟨m, two, emits'⟩ := turns 2 rfl (shown (by decide))
  obtain ⟨-, -, items, -⟩ := loops_emit (bounds [.int 5, .text "last"]) sessions
  obtain ⟨-, -, -, numbers⟩ := loops_emit ⟨"A", "loop", [(.text "count", .int 2)], [], [], 0⟩ sessions
  have third : ⌈((8 - 1 : ℤ) : ℚ) / (3 : ℤ)⌉ = 3 := by
    rw [Int.ceil_eq_iff]
    norm_num
  obtain rfl : n = 3 := by
    rw [third] at three
    omega
  obtain rfl : m = 2 := two
  exact ⟨emits, emits', items [.int 5, .text "last"] rfl, numbers 2 nofun rfl (shown (by decide))⟩

/-- A list whose one item is a list that is too long. -/
theorem loop_refuses :
    Entries.field (bounds [.list (List.replicate 10001 .null)]).inputs "items" =
      .list [.list (List.replicate 10001 .null)] ∧
    ∀ sessions, ¬(loop.invoked (bounds [.list (List.replicate 10001 .null)])).Emits sessions
      [loopItem (.list (List.replicate 10001 .null))] .normal := by
  refine ⟨rfl, fun sessions emits => ?_⟩
  have large : ¬Value.Emittable (.list (List.replicate 10001 .null)) := by
    rw [Value.Emittable, List.length_replicate]
    decide
  have refused : (loop.invoked (bounds [.list (List.replicate 10001 .null)])).Emits sessions _ _ :=
    loop_emits_items rfl
  rw [List.takeWhile_cons_of_neg (by rwa [decide_eq_true_eq])] at refused
  cases (emits.unique refused).1

end Standard

end BlockGraph
