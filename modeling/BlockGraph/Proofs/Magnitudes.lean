import BlockGraph.Proofs.Containers
/-!
Magnitudes: where computations with numbers can fail. An integer beyond the range of doubles cannot be mixed with a
double, and one with too many digits cannot be shown. A block that computes a number hands over exactly one, or fails
over the size of a number, which it does not do when what it is given is not too large.
-/
namespace BlockGraph

/-! ### Doubles of limited magnitude -/

namespace Double

/-- Whether a double is finite and no larger than a power of two. -/
def Within (k : ℕ) (x : Double) : Prop := ∃ u, x.units? = some u ∧ u.natAbs ≤ 2 ^ k * unitsPerOne

variable {x y : Double} {j k : ℕ} {num den n : ℕ} {s : Bool}

theorem Within.mono (h : x.Within j) (le : j ≤ k) : x.Within k := by
  obtain ⟨u, units, most⟩ := h
  exact ⟨u, units, most.trans (Nat.mul_le_mul_right _ (Nat.pow_le_pow_right (by decide) le))⟩

/-- A quotient that is no larger than a power of two is rounded on a grid below it, and does not pass it. -/
theorem nearestCode_quotient (positive : 0 < den) (small : num ≤ 2 ^ k * den) :
    ∃ e m, nearestCode num den = e * 2 ^ 52 + m ∧ OnGrid e m ∧ (e = 0 ∨ 52 + e ≤ k) ∧ m * 2 ^ e ≤ 2 ^ k := by
  have below : num < 2 ^ (53 + excess (num / den)) * den := by
    rw [← Nat.div_lt_iff_lt_mul positive, pow_add]
    exact lt_excess _
  have high : excess (num / den) = 0 ∨ 2 ^ (52 + excess (num / den)) ≤ num / den := by
    rw [pow_add]
    exact excess_le _
  generalize excess (num / den) = e at below high
  have unit : 0 < den * 2 ^ e := Nat.mul_pos positive (Nat.two_pow_pos e)
  have above : e = 0 ∨ 2 ^ (52 + e) * den ≤ num := high.imp_right fun least =>
    (Nat.le_div_iff_mul_le positive).mp least
  have few : e = 0 ∨ 52 + e ≤ k := high.imp_right fun least => by
    have quotient : num / den ≤ 2 ^ k := Nat.div_le_of_le_mul (by rwa [Nat.mul_comm])
    exact (Nat.pow_le_pow_iff_right (by decide)).mp (least.trans quotient)
  have whole : 2 ^ k = 2 ^ (k - e) * 2 ^ e := by
    rw [← pow_add]
    congr 1
    omega
  refine ⟨e, _, nearestCode_grid below above positive, ⟨roundHalfEven_le unit ?_, ?_⟩, few, ?_⟩
  · calc num ≤ 2 ^ (53 + e) * den := below.le
      _ = 2 * 2 ^ 52 * (den * 2 ^ e) := by ring
  · refine above.imp_right fun least => le_roundHalfEven unit ?_
    calc 2 ^ 52 * (den * 2 ^ e) = 2 ^ (52 + e) * den := by ring
      _ ≤ num := least
  · rw [whole]
    refine Nat.mul_le_mul_right _ (roundHalfEven_le unit ?_)
    calc num ≤ 2 ^ k * den := small
      _ = 2 ^ (k - e) * (den * 2 ^ e) := by rw [whole]; ring

/-- A quotient that is no larger than a power of two is rounded to a double in range that is no larger either. -/
theorem within_ofCode (positive : 0 < den) (small : num ≤ 2 ^ k * unitsPerOne * den) (range : k ≤ 1022) :
    (ofCode s (nearestCode num den)).Within k := by
  obtain ⟨binades, one, limit⟩ := unitsPerOne_eq
  have scaled : 2 ^ k * unitsPerOne = 2 ^ (k + binades) := by rw [pow_add, ← one]
  rw [scaled] at small
  obtain ⟨e, m, near, grid, few, most⟩ := nearestCode_quotient positive small
  have inRange : nearestCode num den < 2047 * Nat.pow 2 52 := by
    clear small scaled most one
    have := grid.most
    rw [near, Nat.pow_eq]
    omega
  rw [ofCode_finite inRange]
  refine ⟨_, rfl, ?_⟩
  rw [near, unitsOfCode_grid grid, scaled]
  split
  · rwa [Int.natAbs_neg, Int.natAbs_natCast]
  · rwa [Int.natAbs_natCast]

theorem within_ofUnits {u : ℤ} (small : u.natAbs ≤ 2 ^ k * unitsPerOne) (range : k ≤ 1022) :
    (ofUnits u).Within k :=
  within_ofCode Nat.one_pos (by rwa [Nat.mul_one]) range

theorem within_ofInt {n : ℤ} (small : n.natAbs ≤ 2 ^ k) (range : k ≤ 1022) :
    ∃ x, ofInt? n = some x ∧ x.Within k := by
  have near : (ofUnits (n * unitsPerOne)).Within k := within_ofUnits (by
    rw [Int.natAbs_mul, Int.natAbs_natCast]
    exact Nat.mul_le_mul_right _ small) range
  refine ⟨_, ?_, near⟩
  rw [ofInt?]
  cases found : ofUnits (n * unitsPerOne) with
  | nan | infinite =>
      rw [found] at near
      obtain ⟨u, units, -⟩ := near
      cases units
  | finite => rfl

theorem Within.neg (h : x.Within k) : (neg x).Within k := by
  obtain ⟨u, units, most⟩ := h
  cases x with
  | nan | infinite => cases units
  | finite s c inRange =>
      cases units
      refine ⟨_, rfl, ?_⟩
      cases s <;> simpa using most

theorem Within.add (h : x.Within k) (h' : y.Within k) (range : k < 1022) : (add x y).Within (k + 1) := by
  obtain ⟨u, units, most⟩ := h
  obtain ⟨v, units', most'⟩ := h'
  have sum : (u + v).natAbs ≤ 2 ^ (k + 1) * unitsPerOne :=
    calc (u + v).natAbs ≤ u.natAbs + v.natAbs := Int.natAbs_add_le u v
      _ ≤ 2 ^ k * unitsPerOne + 2 ^ k * unitsPerOne := Nat.add_le_add most most'
      _ = 2 ^ (k + 1) * unitsPerOne := by ring
  cases x with
  | nan | infinite => cases units
  | finite s c inRange =>
      cases y with
      | nan | infinite => cases units'
      | finite t d inRange' =>
          simp only [add, units, units']
          split
          · refine ⟨0, ?_, by simp⟩
            cases s <;> cases t <;> rfl
          · exact within_ofUnits sum range

theorem Within.sub (h : x.Within k) (h' : y.Within k) (range : k < 1022) : (sub x y).Within (k + 1) :=
  h.add h'.neg range

/-- What is multiplied by a fraction of one does not grow. -/
theorem Within.mul (h : x.Within 0) (h' : y.Within k) (range : k ≤ 1022) : (mul x y).Within k := by
  obtain ⟨u, units, most⟩ := h
  obtain ⟨v, units', most'⟩ := h'
  cases x with
  | nan | infinite => cases units
  | finite s c inRange =>
      cases y with
      | nan | infinite => cases units'
      | finite t d inRange' =>
          have left : unitsOfCode c ≤ unitsPerOne := by
            cases units
            split at most <;> simpa using most
          have right : unitsOfCode d ≤ 2 ^ k * unitsPerOne := by
            cases units'
            split at most' <;> simpa using most'
          refine within_ofCode unitsPerOne_pos ?_ range
          calc unitsOfCode c * unitsOfCode d ≤ unitsPerOne * (2 ^ k * unitsPerOne) := Nat.mul_le_mul left right
            _ = 2 ^ k * unitsPerOne * unitsPerOne := by ring

/-- The greatest integer not above a double is no larger than the bound of that double. -/
theorem Within.floor (h : x.Within k) : ∃ n : ℤ, Number.floorOf x = .ok n ∧ n.natAbs ≤ 2 ^ k := by
  obtain ⟨u, units, most⟩ := h
  cases x with
  | nan | infinite => cases units
  | finite s c inRange =>
      refine ⟨u.fdiv unitsPerOne, ?_, ?_⟩
      · rw [Number.floorOf, floor?, units]
        rfl
      · have one : (0 : ℤ) < unitsPerOne := by exact_mod_cast unitsPerOne_pos
        have high : u ≤ 2 ^ k * unitsPerOne := by exact_mod_cast (Int.le_natAbs (a := u)).trans (Int.ofNat_le.mpr most)
        have low : -(2 ^ k) * unitsPerOne ≤ u := by
          have := Int.ofNat_le.mpr most
          push_cast at this
          rw [neg_mul]
          exact neg_le_of_abs_le this
        rw [Int.fdiv_eq_ediv_of_nonneg _ one.le]
        have above := (Int.le_ediv_iff_mul_le one).mpr low
        have below : u / (unitsPerOne : ℤ) ≤ 2 ^ k := Int.ediv_le_of_le_mul one high
        have small : (u / (unitsPerOne : ℤ)).natAbs ≤ ((2 : ℤ) ^ k).natAbs := by
          generalize (2 : ℤ) ^ k = most at above below
          omega
        rwa [Int.natAbs_pow] at small

end Double

/-! ### Faults over the size of a number -/

/-- Whether a fault is about the size of a number. -/
def Fault.IsNumeric : Fault → Prop
  | .digitLimit | .integerTooLarge | .quotientTooLarge | .infinityToInteger | .nanToInteger => True
  | _ => False

/-- Whether a computation fails, if at all, over the size of a number. -/
def Numeric {α : Type} (r : Except Fault α) : Prop := ∀ f, r = .error f → f.IsNumeric

section

variable {α β : Type} {r : Except Fault α} {g : α → Except Fault β}

theorem Numeric.ok (a : α) : Numeric (.ok a) := nofun

theorem Numeric.bind (h : Numeric r) (next : ∀ a, Numeric (g a)) : Numeric (r >>= g) := by
  intro f fails
  cases r with
  | error f' =>
      cases fails
      exact h _ rfl
  | ok a => exact next a f fails

theorem Fault.IsNumeric.leaving {f : Fault} (h : f.IsNumeric) : Process.leaving .stream f = f := by
  cases f <;> first | rfl | cases h

end

namespace Number

variable {a b n : Number} {k : ℕ} {exact : ℤ → ℤ → ℤ} {rounded : Double → Double → Double}

/-- Up to two to this power, every integer is in the range of doubles. -/
def heldBits : ℕ := 1022

/-- Whether an integer is certain to be in the range of doubles; any double is. -/
def IsHeld : Number → Prop
  | .int n => n.natAbs ≤ 2 ^ heldBits
  | .float _ => True

/-- Whether a number is finite and no larger than a power of two. -/
def Within (k : ℕ) : Number → Prop
  | .int n => n.natAbs ≤ 2 ^ k
  | .float x => x.Within k

/-- Whether a number has a text. -/
def Printable : Number → Prop
  | .int n => n.natAbs < digitBound
  | .float _ => True

theorem Within.mono {j : ℕ} (h : n.Within j) (le : j ≤ k) : n.Within k := by
  cases n with
  | int n => exact Nat.le_trans h (Nat.pow_le_pow_right (by decide) le)
  | float x => exact Double.Within.mono h le

theorem Within.held (h : n.Within k) (range : k ≤ heldBits) : n.IsHeld := by
  cases n with
  | int n => exact Nat.le_trans h (Nat.pow_le_pow_right (by decide) range)
  | float x => trivial

theorem IsHeld.printable (h : n.IsHeld) : n.Printable := by
  cases n with
  | int n => exact lt_digitBound (by decide) h
  | float x => trivial

theorem toDouble_numeric (n : Number) : Numeric n.toDouble := by
  cases n with
  | int n =>
      rw [toDouble]
      cases Double.ofInt? n with
      | none =>
          rintro _ ⟨⟩
          trivial
      | some x => rintro _ ⟨⟩
  | float x => rintro _ ⟨⟩

theorem IsHeld.toDouble (h : n.IsHeld) : ∃ x, n.toDouble = .ok x := by
  cases n with
  | int n =>
      obtain ⟨x, near, -⟩ := Double.within_ofInt h le_rfl
      exact ⟨x, by rw [Number.toDouble, near, Option.elim_some]⟩
  | float x => exact ⟨x, rfl⟩

theorem Within.toDouble (h : n.Within k) (range : k ≤ 1022) : ∃ x, n.toDouble = .ok x ∧ x.Within k := by
  cases n with
  | int n =>
      obtain ⟨x, near, within⟩ := Double.within_ofInt h range
      exact ⟨x, by rw [Number.toDouble, near, Option.elim_some], within⟩
  | float x => exact ⟨x, rfl, h⟩

theorem numberText_numeric (n : Number) : Numeric (Value.numberText n) := by
  cases n with
  | int n =>
      by_cases short : n.natAbs < digitBound
      · rw [Value.numberText_int short]
        nofun
      · have fails : Value.numberText (.int n) = .error .digitLimit :=
          (Value.literal_int n).trans (integerText_long short)
        rw [fails]
        rintro _ ⟨⟩
        trivial
  | float x => exact .ok (Value.doubleText x)

theorem Printable.text (h : n.Printable) : (Value.numberText n).isOk = true := by
  cases n with
  | int n =>
      rw [Value.numberText_int h]
      rfl
  | float x => rfl

/-! ### Operations -/

theorem combine_numeric (a b : Number) : Numeric (combine exact rounded a b) := by
  have mixed : Numeric (do
      let x ← a.toDouble
      let y ← b.toDouble
      return Number.float (rounded x y)) :=
    a.toDouble_numeric.bind fun x => b.toDouble_numeric.bind fun y => .ok _
  cases a <;> cases b <;> first | exact mixed | exact .ok _

/-- Two numbers are combined when their integers are in range; two integers give an integer. -/
theorem combine_held (exact : ℤ → ℤ → ℤ) (rounded : Double → Double → Double) (h : a.IsHeld) (h' : b.IsHeld) :
    (∃ m n, a = .int m ∧ b = .int n ∧ combine exact rounded a b = .ok (.int (exact m n))) ∨
      ∃ x y, a.toDouble = .ok x ∧ b.toDouble = .ok y ∧ combine exact rounded a b = .ok (.float (rounded x y)) := by
  obtain ⟨x, left⟩ := h.toDouble
  obtain ⟨y, right⟩ := h'.toDouble
  have mixed : (do
      let x ← a.toDouble
      let y ← b.toDouble
      return Number.float (rounded x y) : Except Fault Number) = .ok (.float (rounded x y)) := by
    rw [left, right]
    rfl
  cases a with
  | int m =>
      cases b with
      | int n => exact .inl ⟨m, n, rfl, rfl, rfl⟩
      | float y' => exact .inr ⟨x, y, left, right, mixed⟩
  | float x' => cases b <;> exact .inr ⟨x, y, left, right, mixed⟩

/-- The quotient of two integers is one rounding of their ratio, which has to be in range. -/
theorem div_int (m n : ℤ) : Number.div (.int m) (.int n) =
    inRange (Double.ofRatio ((m < 0) != (n < 0)) m.natAbs n.natAbs) := rfl

theorem inRange_numeric (q : Double) : Numeric (inRange q) := by
  cases q with
  | infinite =>
      rintro _ ⟨⟩
      trivial
  | _ => nofun

theorem inRange_within {q : Double} (h : q.Within k) : inRange q = .ok q := by
  obtain ⟨u, units, -⟩ := h
  cases q with
  | nan | infinite => cases units
  | finite => rfl

theorem div_numeric (a b : Number) : Numeric (a.div b) := by
  have mixed : Numeric (do
      let x ← a.toDouble
      let y ← b.toDouble
      return Double.div x y) :=
    a.toDouble_numeric.bind fun x => b.toDouble_numeric.bind fun y => .ok _
  cases a with
  | int m =>
      cases b with
      | int n =>
          rw [div_int]
          exact inRange_numeric _
      | float y => exact mixed
  | float x => cases b <;> exact mixed

theorem div_held (h : a.IsHeld) (h' : b.IsHeld) (divides : b.isZero = false) : ∃ x, a.div b = .ok x := by
  obtain ⟨x, left⟩ := h.toDouble
  obtain ⟨y, right⟩ := h'.toDouble
  have mixed : (do
      let x ← a.toDouble
      let y ← b.toDouble
      return Double.div x y : Except Fault Double) = .ok (Double.div x y) := by
    rw [left, right]
    rfl
  cases a with
  | int m =>
      cases b with
      | int n =>
          have some : 0 < n.natAbs := Int.natAbs_pos.mpr (by simpa [isZero] using divides)
          have near : (Double.ofRatio ((m < 0) != (n < 0)) m.natAbs n.natAbs).Within heldBits := by
            refine Double.within_ofCode some ?_ le_rfl
            calc m.natAbs * Double.unitsPerOne ≤ 2 ^ heldBits * Double.unitsPerOne := Nat.mul_le_mul_right _ h
              _ ≤ 2 ^ heldBits * Double.unitsPerOne * n.natAbs := Nat.le_mul_of_pos_right _ some
          rw [div_int]
          exact ⟨_, inRange_within near⟩
      | float y' => exact ⟨_, mixed⟩
  | float x' => cases b <;> exact ⟨_, mixed⟩

theorem Within.add (h : a.Within k) (h' : b.Within k) (range : k < 1022) : ∃ r, a.add b = .ok r ∧ r.Within (k + 1) := by
  obtain ⟨x, left, near⟩ := h.toDouble range.le
  obtain ⟨y, right, near'⟩ := h'.toDouble range.le
  rcases combine_held (· + ·) Double.add (h.held range.le) (h'.held range.le) with
    ⟨m, n, rfl, rfl, sum⟩ | ⟨x', y', left', right', sum⟩
  · refine ⟨_, sum, (Int.natAbs_add_le m n).trans ?_⟩
    rw [pow_succ, Nat.mul_two]
    exact Nat.add_le_add h h'
  · cases left.symm.trans left'
    cases right.symm.trans right'
    exact ⟨_, sum, near.add near' range⟩

theorem Within.sub (h : a.Within k) (h' : b.Within k) (range : k < 1022) : ∃ r, a.sub b = .ok r ∧ r.Within (k + 1) := by
  obtain ⟨x, left, near⟩ := h.toDouble range.le
  obtain ⟨y, right, near'⟩ := h'.toDouble range.le
  rcases combine_held (· - ·) Double.sub (h.held range.le) (h'.held range.le) with
    ⟨m, n, rfl, rfl, difference⟩ | ⟨x', y', left', right', difference⟩
  · refine ⟨_, difference, (Int.natAbs_sub_le m n).trans ?_⟩
    rw [pow_succ, Nat.mul_two]
    exact Nat.add_le_add h h'
  · cases left.symm.trans left'
    cases right.symm.trans right'
    exact ⟨_, difference, near.sub near' range⟩

theorem floorOf_numeric (x : Double) : Numeric (floorOf x) := by
  cases x with
  | nan | infinite =>
      rintro _ ⟨⟩
      trivial
  | finite => nofun

end Number

/-! ### Blocks that compute a number -/

/-- Whether what is handed over is one number on a port, or nothing because the size of a number made it fail, which
only happens where something is not fine. -/
def Yields (port : String) (fine : Prop) (es : List Emission) (e : Ending) : Prop :=
  (∃ n : Number, es = [⟨port, .ofNumber n⟩] ∧ e = .normal) ∨ es = [] ∧ (∃ f : Fault, f.IsNumeric ∧ e = .fault f) ∧ ¬fine

namespace Plan

variable {α : Type} {sight : Sight} {port : String} {fine : Prop}

/-- What a plan reads is what the block sees. -/
theorem gives_seen {f : Sight → Plan Unit} {post : List Emission → Ending → Prop} (h : (f sight).Gives sight post) :
    (read >>= f).Gives sight post := h

theorem yields_of {r : Except Fault α} {g : α → Plan Unit} (numeric : Numeric r) (needs : fine → r.isOk = true)
    (goes : ∀ a, r = .ok a → (g a).Gives sight (Yields port fine)) : (of r >>= g).Gives sight (Yields port fine) :=
  gives_of goes fun f fails => by
    refine .inr ⟨rfl, ⟨f, numeric f fails, by rw [(numeric f fails).leaving]⟩, fun all => ?_⟩
    have some := needs all
    rw [fails] at some
    cases some

theorem yields_emitted (named : Text.isBlankText port = false) (n : Number) :
    (emit port (.ofNumber n)).Gives sight (Yields port fine) := by
  have fits : (Value.ofNumber n).Emittable := by cases n <;> trivial
  exact gives_emitted named (fun _ => .inl ⟨n, rfl, rfl⟩) fun large => absurd fits large

end Plan

namespace Standard
open Plan

variable {a b n : Number} {sight : Sight} {port opening symbol : String} {fine : Prop}

/-- Three numbers are told, and the last one is emitted. -/
theorem told_gives (named : Text.isBlankText port = false) (line : String → String → String → String)
    (operands : fine → a.Printable ∧ b.Printable) (result : fine → n.Printable) :
    Gives (do
      store "result" (.ofNumber n)
      let left ← numberText a
      let right ← numberText b
      say (line left right (← numberText n))
      emit port (.ofNumber n)) sight (Yields port fine) := by
  refine gives_store rfl _ (yields_of (Number.numberText_numeric a) (fun all => (operands all).1.text) fun _ _ => ?_)
  refine yields_of (Number.numberText_numeric b) (fun all => (operands all).2.text) fun _ _ => ?_
  exact yields_of (Number.numberText_numeric n) (fun all => (result all).text) fun _ _ =>
    gives_say _ (yields_emitted named n)

theorem calculate_gives {r : Except Fault Number} (named : Text.isBlankText port = false) (numeric : Numeric r)
    (operands : fine → a.Printable ∧ b.Printable) (result : fine → ∃ n, r = .ok n ∧ n.Printable) :
    (calculate port opening symbol a b r).Gives sight (Yields port fine) := by
  refine yields_of numeric (fun all => ?_) fun n known => ?_
  · obtain ⟨n, known, -⟩ := result all
    rw [known]
    rfl
  · refine told_gives named (fun left right text => opening ++ left ++ " " ++ symbol ++ " " ++ right ++ " = " ++ text)
      operands fun all => ?_
    obtain ⟨n', known', printable⟩ := result all
    cases known.symm.trans known'
    exact printable

/-- An operation on two numbers, whose result for two integers in range can be shown. -/
theorem combine_gives {exact : ℤ → ℤ → ℤ} {rounded : Double → Double → Double}
    (named : Text.isBlankText port = false)
    (short : ∀ m n : ℤ, m.natAbs ≤ 2 ^ Number.heldBits → n.natAbs ≤ 2 ^ Number.heldBits →
      (exact m n).natAbs ≤ 2 ^ Number.heldBits * 2 ^ Number.heldBits) :
    (calculate port opening symbol a b (Number.combine exact rounded a b)).Gives sight
      (Yields port (a.IsHeld ∧ b.IsHeld)) := by
  refine calculate_gives named (Number.combine_numeric a b) (fun all => ⟨all.1.printable, all.2.printable⟩)
    fun all => ?_
  rcases Number.combine_held exact rounded all.1 all.2 with
    ⟨m, n, rfl, rfl, known⟩ | ⟨x, y, -, -, known⟩
  · have few : Number.heldBits + Number.heldBits < Fault.digitLimitValue := by decide
    exact ⟨_, known, lt_digitBound few ((short m n all.1 all.2).trans (pow_add _ _ _).ge)⟩
  · exact ⟨_, known, trivial⟩

/-! ### Remainders and random numbers -/

theorem remainder_numeric (a b : Number) : Numeric (remainder a b) := by
  refine a.toDouble_numeric.bind fun x => ?_
  split
  · exact .ok _
  · refine b.toDouble_numeric.bind fun y => ?_
    split
    · exact .ok _
    · cases a <;> cases b <;> exact .ok _

/-- A remainder is no larger than what is divided, and can be shown. -/
theorem remainder_held (h : a.IsHeld) (h' : b.IsHeld) (divides : b.isZero = false) :
    ∃ n, remainder a b = .ok n ∧ n.Printable := by
  obtain ⟨x, left⟩ := h.toDouble
  obtain ⟨y, right⟩ := h'.toDouble
  by_cases integers : (∃ m, a = .int m) ∧ ∃ n, b = .int n
  · obtain ⟨⟨m, rfl⟩, n, rfl⟩ := integers
    have small : ∀ k : ℤ, Number.IsHeld (.int k) → k.natAbs < 2 ^ 1023 := fun k held =>
      lt_of_le_of_lt held (Nat.pow_lt_pow_right (by decide : 1 < 2) (by decide : Number.heldBits < 1023))
    have some : n ≠ 0 := by simpa [Number.isZero] using divides
    refine ⟨_, remainder_int (small m h) (small n h') some, lt_digitBound (by decide : 1023 < _) ?_⟩
    rw [Int.natAbs_tmod, natAbs_held, natAbs_held]
    exact (Nat.mod_le _ _).trans (roundBits_le (small m h))
  · have rounded : ∃ z, remainder a b = .ok (.float z) := by
      unfold remainder
      rw [left, Value.ok_bind]
      split
      · exact ⟨_, rfl⟩
      · rw [right, Value.ok_bind]
        split
        · exact ⟨_, rfl⟩
        · cases a with
          | float => cases b <;> exact ⟨_, rfl⟩
          | int m =>
              cases b with
              | float => exact ⟨_, rfl⟩
              | int n => exact absurd ⟨⟨m, rfl⟩, n, rfl⟩ integers
    obtain ⟨z, known⟩ := rounded
    exact ⟨_, known, trivial⟩

theorem bounded_numeric (low high : Number) : Numeric (bounded low high) := by
  refine low.toDouble_numeric.bind fun x => ?_
  split
  · exact high.toDouble_numeric.bind fun y => .ok _
  · exact .ok _

theorem picked_numeric (draw : Double) (low high : Number) : Numeric (picked draw low high) := by
  refine Numeric.bind (Number.combine_numeric _ _) fun range => Numeric.bind (Number.combine_numeric _ _) fun width =>
    Numeric.bind (Number.combine_numeric _ _) fun scaled => ?_
  cases scaled with
  | float x => exact (Number.floorOf_numeric x).bind fun offset => Number.combine_numeric _ _
  | int n => exact Numeric.bind (.ok n) fun offset => Number.combine_numeric _ _

/-- Numbers up to two to this power are certain to be drawn between. -/
def drawnBits : ℕ := 1019

/-- Between two bounds of limited size a number is drawn. -/
theorem picked_held {draw : Double} {low high : Number} (fraction : draw.Within 0) (h : low.Within drawnBits)
    (h' : high.Within drawnBits) : ∃ n, picked draw low high = .ok n ∧ n.IsHeld := by
  obtain ⟨range, subtracted, near⟩ := h'.sub h (by decide)
  have one : (Number.int 1).Within (drawnBits + 1) := Nat.one_le_two_pow
  obtain ⟨width, added, near⟩ := near.add one (by decide)
  obtain ⟨y, double, near⟩ := near.toDouble (by decide)
  have scaled : (Number.float draw).mul width = .ok (.float (Double.mul draw y)) := by
    show (do
      let x ← (Number.float draw).toDouble
      let y ← width.toDouble
      return Number.float (Double.mul x y) : Except Fault Number) = _
    rw [double]
    rfl
  obtain ⟨offset, floor, small⟩ := (fraction.mul near (by decide)).floor
  have found : picked draw low high = (Number.int offset).add low := by
    unfold picked
    rw [subtracted, Value.ok_bind, added, Value.ok_bind, scaled, Value.ok_bind]
    show (Number.floorOf _ >>= _) = _
    rw [floor]
    rfl
  have near : (Number.int offset).Within (drawnBits + 2) := small
  obtain ⟨n, sum, near⟩ := near.add (h.mono (by decide)) (by decide)
  exact ⟨n, found.trans sum, near.held (by decide)⟩

/-- Whether a number is fit to be a bound: it is of limited size, or no finite number at all. -/
def IsBound (n : Number) : Prop := n.Within drawnBits ∨ ∃ x : Double, n = .float x ∧ x.isFinite = false

theorem IsBound.held (h : IsBound n) : n.IsHeld := by
  rcases h with near | ⟨x, rfl, -⟩
  · exact near.held (by decide)
  · trivial

theorem IsBound.within {x : Double} (h : IsBound n) (double : n.toDouble = .ok x) (finite : x.isFinite = true) :
    n.Within drawnBits := by
  refine h.resolve_right ?_
  rintro ⟨y, rfl, unending⟩
  cases double
  cases finite.symm.trans unending

theorem bounded_held {low high : Number} (h : IsBound low) (h' : IsBound high) : ∃ x y, low.toDouble = .ok x ∧
    high.toDouble = .ok y ∧ bounded low high = .ok (x.isFinite && y.isFinite) := by
  obtain ⟨x, left⟩ := h.held.toDouble
  obtain ⟨y, right⟩ := h'.held.toDouble
  refine ⟨x, y, left, right, ?_⟩
  unfold bounded
  rw [left, right]
  show (if _ then _ else _) = _
  cases x.isFinite <;> rfl

/-- A number is drawn between two bounds, or there is none. -/
theorem random_gives (sight : Sight) {low high : Number}
    (first : low = (Entries.field sight.context.inputs "min").toNumber (.int 0))
    (last : high = (Entries.field sight.context.inputs "max").toNumber (.int 100)) :
    random.plan.Gives sight (Yields "value" (IsBound low ∧ IsBound high ∧ sight.draw.Within 0)) := by
  refine gives_number _ _ (gives_number _ _ ?_)
  rw [← first, ← last]
  refine yields_of (bounded_numeric low high) (fun all => ?_) fun within known => ?_
  · obtain ⟨x, y, -, -, known⟩ := bounded_held all.1 all.2.1
    rw [known]
    rfl
  have tells {value : Number} (shown : IsBound low ∧ IsBound high ∧ sight.draw.Within 0 → value.Printable) :=
    @told_gives low high value sight "value" _ rfl
      (fun first last text => "Random(" ++ first ++ ", " ++ last ++ ") = " ++ text)
      (fun all => ⟨all.1.held.printable, all.2.1.held.printable⟩) shown
  cases within with
  | false => exact tells fun _ => trivial
  | true =>
      have draws : (IsBound low ∧ IsBound high ∧ sight.draw.Within 0) →
          ∃ n, picked sight.draw low high = .ok n ∧ n.IsHeld := fun ⟨least, most, fraction⟩ => by
        obtain ⟨x, y, left, right, known'⟩ := bounded_held least most
        obtain ⟨finite, finite'⟩ := Bool.and_eq_true_iff.mp (Except.ok.inj (known'.symm.trans known))
        exact picked_held fraction (least.within left finite) (most.within right finite')
      refine gives_useDraw (gives_seen (yields_of (picked_numeric _ low high) (fun all => ?_) fun value known' =>
        tells fun all => ?_))
      · obtain ⟨n, drawn, -⟩ := draws all
        rw [drawn]
        rfl
      · obtain ⟨n, drawn, held⟩ := draws all
        cases drawn.symm.trans known'
        exact held.printable

/-! ### What the blocks come to -/

theorem position?_held (h : n.IsHeld) : (position? n).isOk = true := by
  obtain ⟨x, known⟩ := h.toDouble
  rw [position?_double known]
  rfl

theorem itemAt_held (h : n.IsHeld) (source : Value) : ∃ w, itemAt source n = .ok w := by
  unfold itemAt
  cases source with
  | list items =>
      have placed := position?_held h
      cases found : position? n with
      | error f =>
          rw [found] at placed
          cases placed
      | ok place => cases place <;> exact ⟨_, rfl⟩
  | _ => exact ⟨_, rfl⟩

/-- Whether what is handed over is one item of an array, or nothing because the index is too large or the item cannot
be shown or emitted. -/
def GivesItem (c : Context) (es : List Emission) (e : Ending) : Prop :=
  (∃ w, itemAt (Entries.field c.inputs "array") (indexOf c) = .ok w ∧ es = [⟨"value", w⟩] ∧ e = .normal) ∨
    es = [] ∧ (∃ f, e = .fault f) ∧ (¬(indexOf c).IsHeld ∨
      ∃ w, itemAt (Entries.field c.inputs "array") (indexOf c) = .ok w ∧ ¬(w.toJson.isOk = true ∧ w.Emittable))

theorem arrayGet_gives (sight : Sight) : arrayGet.plan.Gives sight (GivesItem sight.context) := by
  refine gives_number _ _ (gives_input _ (gives_of (fun w read => ?_) fun f fails => ?_))
  · refine gives_store rfl _ (gives_of (fun _ _ => gives_of (fun _ _ => gives_say _ (gives_emitted rfl ?_ ?_))
      fun f fails => ?_) fun f fails => ?_)
    · exact fun _ => .inl ⟨w, read, rfl, rfl⟩
    · exact fun large => .inr ⟨rfl, ⟨_, rfl⟩, .inr ⟨w, read, fun fine => large fine.2⟩⟩
    · refine .inr ⟨rfl, ⟨_, rfl⟩, .inr ⟨w, read, fun fine => ?_⟩⟩
      rw [fails] at fine
      cases fine.1
    · refine .inr ⟨rfl, ⟨_, rfl⟩, .inl fun held => ?_⟩
      have shown := held.printable.text
      rw [indexOf, fails] at shown
      cases shown
  · refine .inr ⟨rfl, ⟨_, rfl⟩, .inl fun held => ?_⟩
    obtain ⟨w, known⟩ := itemAt_held held (Entries.field sight.context.inputs "array")
    cases fails.symm.trans known

/-- The operands that an element is given. -/
def operand (c : Context) (name : String) (default : ℤ) : Number :=
  (Entries.field c.inputs name).toNumber (.int default)

theorem divide_gives (sight : Sight) : divide.plan.Gives sight
    (Yields "quotient" ((operand sight.context "a" 1).IsHeld ∧ (operand sight.context "b" 1).IsHeld)) := by
  refine gives_number _ _ (gives_number _ _ ?_)
  show Gives (if _ then _ else _) _ _
  split
  · exact gives_say _ (yields_emitted rfl (.float (.infinite false)))
  · rename_i divides
    have divides := Bool.eq_false_iff.mpr divides
    refine calculate_gives rfl ?_ (fun all => ⟨all.1.printable, all.2.printable⟩) fun all => ?_
    · have quotient := Number.div_numeric (operand sight.context "a" 1) (operand sight.context "b" 1)
      exact quotient.bind fun x => .ok (Number.float x)
    · obtain ⟨x, known⟩ := Number.div_held all.1 all.2 divides
      exact ⟨.float x, by rw [operand, operand] at known; rw [known]; rfl, trivial⟩

theorem modulo_gives (sight : Sight) : modulo.plan.Gives sight
    (Yields "remainder" ((operand sight.context "a" 10).IsHeld ∧ (operand sight.context "b" 3).IsHeld)) := by
  refine gives_number _ _ (gives_number _ _ ?_)
  show Gives (if _ then _ else _) _ _
  split
  · exact gives_say _ (yields_emitted rfl (.float .notANumber))
  · rename_i divides
    exact calculate_gives rfl (remainder_numeric _ _) (fun all => ⟨all.1.printable, all.2.printable⟩) fun all =>
      remainder_held all.1 all.2 (Bool.eq_false_iff.mpr divides)

/-- A sum or a difference of two numbers in range is less than their product may be. -/
theorem sum_short {m n : ℤ} (h : m.natAbs ≤ 2 ^ Number.heldBits) (h' : n.natAbs ≤ 2 ^ Number.heldBits) {r : ℤ}
    (short : r.natAbs ≤ m.natAbs + n.natAbs) : r.natAbs ≤ 2 ^ Number.heldBits * 2 ^ Number.heldBits :=
  calc r.natAbs ≤ 2 ^ Number.heldBits + 2 ^ Number.heldBits := short.trans (Nat.add_le_add h h')
    _ = 2 ^ Number.heldBits * 2 := (Nat.mul_two _).symm
    _ ≤ 2 ^ Number.heldBits * 2 ^ Number.heldBits := Nat.mul_le_mul_left _ (Nat.le_self_pow (by decide) 2)

/-- Whatever they are given, the blocks that compute with numbers hand over one number, or fail over the size of a
number; and the block that looks into an array hands over one item, or fails. A computation does not fail when the
integers that it is given are in the range of doubles and, for a random number, the bounds are well within it. -/
theorem computations_settle (c : Context) (sessions : ℕ → Session) :
    (∃ es e, (add.invoked c).Emits sessions es e ∧
      Yields "sum" ((operand c "a" 0).IsHeld ∧ (operand c "b" 0).IsHeld) es e) ∧
    (∃ es e, (subtract.invoked c).Emits sessions es e ∧
      Yields "difference" ((operand c "a" 0).IsHeld ∧ (operand c "b" 0).IsHeld) es e) ∧
    (∃ es e, (multiply.invoked c).Emits sessions es e ∧
      Yields "product" ((operand c "a" 1).IsHeld ∧ (operand c "b" 1).IsHeld) es e) ∧
    (∃ es e, (divide.invoked c).Emits sessions es e ∧
      Yields "quotient" ((operand c "a" 1).IsHeld ∧ (operand c "b" 1).IsHeld) es e) ∧
    (∃ es e, (modulo.invoked c).Emits sessions es e ∧
      Yields "remainder" ((operand c "a" 10).IsHeld ∧ (operand c "b" 3).IsHeld) es e) ∧
    (∃ es e, (random.invoked c).Emits sessions es e ∧ Yields "value" (IsBound (operand c "min" 0) ∧
      IsBound (operand c "max" 100) ∧ (sessions 0).draws.current.Within 0) es e) ∧
    ∃ es e, (arrayGet.invoked c).Emits sessions es e ∧ GivesItem c es e := by
  refine ⟨?_, ?_, ?_, ?_, ?_, ?_, ?_⟩
  · refine StandardBlock.invoked_emits rfl (gives_number _ _ (gives_number _ _ (combine_gives rfl fun m n h h' => ?_)))
    exact sum_short h h' (Int.natAbs_add_le m n)
  · refine StandardBlock.invoked_emits rfl (gives_number _ _ (gives_number _ _ (combine_gives rfl fun m n h h' => ?_)))
    exact sum_short h h' (Int.natAbs_sub_le m n)
  · refine StandardBlock.invoked_emits rfl (gives_number _ _ (gives_number _ _ (combine_gives rfl fun m n h h' => ?_)))
    rw [Int.natAbs_mul]
    exact Nat.mul_le_mul h h'
  · exact StandardBlock.invoked_emits rfl (divide_gives _)
  · exact StandardBlock.invoked_emits rfl (modulo_gives _)
  · exact StandardBlock.invoked_emits rfl (random_gives _ rfl rfl)
  · exact StandardBlock.invoked_emits rfl (arrayGet_gives _)

/-- An index beyond the range of doubles makes the block fail, although no array is that long. -/
theorem arrayGet_beyond {n : ℤ} (large : Double.ofInt? n = none) (items : List Value) (sessions : ℕ → Session) :
    (arrayGet.invoked (receiving [("array", .list items), ("index", .int n)])).Emits sessions []
      (.fault .integerTooLarge) := by
  have fails : itemAt (.list items) (.int n) = .error .integerTooLarge := by
    unfold itemAt position?
    rw [Number.toDouble, large]
    rfl
  let c := receiving [("array", .list items), ("index", .int n)]
  have gives : arrayGet.plan.Gives (StandardBlock.sight c (sessions 0)) fun es e =>
      es = [] ∧ e = .fault .integerTooLarge := gives_number _ _ (gives_input _ (gives_fault fails))
  obtain ⟨es, e, emits, rfl, rfl⟩ := StandardBlock.invoked_emits rfl gives
  exact emits

theorem arrayGet_far : Double.ofInt? (Nat.pow 10 400) = none ∧ ∀ sessions,
    (arrayGet.invoked (receiving [("array", .list [.int 1, .int 2]), ("index", .int (Nat.pow 10 400))])).Emits
      sessions [] (.fault .integerTooLarge) := by
  have large : Double.ofInt? (Nat.pow 10 400) = none := by decide +kernel
  exact ⟨large, arrayGet_beyond large [.int 1, .int 2]⟩

end Standard

end BlockGraph
