import BlockGraph.Proofs.Rounding
import Mathlib.Data.Rat.Cast.Order
import Mathlib.Algebra.Order.Field.Power
import Mathlib.Data.Nat.Digits.Defs
import Mathlib.Tactic.GCongr
/-!
The decimals that doubles are written as. The point of a quotient is found from the lengths of its parts, and the
digits name a number in the rounding interval of the magnitude: seventeen of them always suffice.
-/
namespace BlockGraph

section
variable {a b : ℤ} {k l : ℕ}

/-- Powers of ten below powers of two, from one such power that is not below one. -/
theorem ten_le_two_of_nonneg (base : (10 : ℚ) ^ l ≤ 2 ^ k) (some : k ≠ 0) (sign : 0 ≤ b) (less : a * k ≤ b * l) :
    (10 : ℚ) ^ a ≤ 2 ^ b := by
  refine (pow_le_pow_iff_left₀ (by positivity) (by positivity) some).mp ?_
  calc ((10 : ℚ) ^ a) ^ k = 10 ^ (a * k) := by rw [zpow_mul, zpow_natCast]
    _ ≤ 10 ^ (b * l) := zpow_le_zpow_right₀ (by norm_num) less
    _ = ((10 : ℚ) ^ l) ^ b := by rw [mul_comm, zpow_mul, zpow_natCast]
    _ ≤ ((2 : ℚ) ^ k) ^ b := zpow_le_zpow_left₀ sign (by positivity) base
    _ = ((2 : ℚ) ^ b) ^ k := by rw [← zpow_natCast, ← zpow_natCast, ← zpow_mul, ← zpow_mul, mul_comm]

theorem ten_le_two_of_nonpos (base : (2 : ℚ) ^ k ≤ 10 ^ l) (some : k ≠ 0) (sign : b ≤ 0) (less : a * k ≤ b * l) :
    (10 : ℚ) ^ a ≤ 2 ^ b := by
  refine (pow_le_pow_iff_left₀ (by positivity) (by positivity) some).mp ?_
  calc ((10 : ℚ) ^ a) ^ k = 10 ^ (a * k) := by rw [zpow_mul, zpow_natCast]
    _ ≤ 10 ^ (b * l) := zpow_le_zpow_right₀ (by norm_num) less
    _ = ((10 : ℚ) ^ l) ^ b := by rw [mul_comm, zpow_mul, zpow_natCast]
    _ ≤ ((2 : ℚ) ^ k) ^ b := by
      have back := zpow_le_zpow_left₀ (neg_nonneg.mpr sign) (by positivity) base
      rw [zpow_neg, zpow_neg] at back
      exact (inv_le_inv₀ (by positivity) (by positivity)).mp back
    _ = ((2 : ℚ) ^ b) ^ k := by rw [← zpow_natCast, ← zpow_natCast, ← zpow_mul, ← zpow_mul, mul_comm]

/-- The logarithm of two lies between 0.30102 and 0.30103. -/
theorem ten_le_two (less : 0 ≤ b ∧ a * 100000 ≤ b * 30102 ∨ b ≤ 0 ∧ a * 100000 ≤ b * 30103) :
    (10 : ℚ) ^ a ≤ 2 ^ b := by
  rcases less with ⟨sign, less⟩ | ⟨sign, less⟩
  · have base : 10 ^ 30102 ≤ 2 ^ 100000 := by decide +kernel
    exact ten_le_two_of_nonneg (k := 100000) (l := 30102) (by exact_mod_cast base) (by decide) sign less
  · have base : 2 ^ 100000 ≤ 10 ^ 30103 := by decide +kernel
    exact ten_le_two_of_nonpos (k := 100000) (l := 30103) (by exact_mod_cast base) (by decide) sign less

theorem two_le_ten (less : 0 ≤ b ∧ b * 30103 ≤ a * 100000 ∨ b ≤ 0 ∧ b * 30102 ≤ a * 100000) :
    (2 : ℚ) ^ b ≤ 10 ^ a := by
  have back : (10 : ℚ) ^ (-a) ≤ 2 ^ (-b) := ten_le_two (by omega)
  rw [zpow_neg, zpow_neg] at back
  exact (inv_le_inv₀ (by positivity) (by positivity)).mp back

end

namespace Decimal

variable {num den fuel : ℕ} {p : ℤ}

/-- The quotient of what `scaled` gives. -/
theorem scaled_spec (num : ℕ) (positive : 0 < den) (p : ℤ) :
    0 < (scaled num den p).2 ∧ ((scaled num den p).1 : ℚ) / (scaled num den p).2 = num / den / 10 ^ p := by
  unfold scaled
  split
  · rename_i sign
    lift p to ℕ using sign
    refine ⟨by simp only [Int.toNat_natCast, Nat.pow_eq]; positivity, ?_⟩
    simp only [Int.toNat_natCast, Nat.pow_eq, Nat.cast_mul, Nat.cast_pow, Nat.cast_ofNat, zpow_natCast, div_div]
  · obtain ⟨n, rfl⟩ : ∃ n : ℕ, p = -n := ⟨(-p).toNat, by omega⟩
    refine ⟨positive, ?_⟩
    simp only [neg_neg, Int.toNat_natCast, Nat.pow_eq, Nat.cast_mul, Nat.cast_pow, Nat.cast_ofNat, zpow_neg,
      zpow_natCast, div_inv_eq_mul, mul_div_right_comm]

/-- The point of a quotient: the power of ten that is the least above it. -/
structure PointOf (x : ℚ) (p : ℤ) : Prop where
  reaches : 10 ^ (p - 1) ≤ x
  below : x < 10 ^ p

theorem below_iff (positive : 0 < den) :
    (if 0 ≤ p then num < den * Nat.pow 10 p.toNat else num * Nat.pow 10 (-p).toNat < den) ↔
      (num : ℚ) / den < 10 ^ p := by
  rw [div_lt_iff₀ (by positivity)]
  split
  · rename_i sign
    lift p to ℕ using sign
    rw [Int.toNat_natCast, zpow_natCast, mul_comm]
    exact_mod_cast Iff.rfl
  · obtain ⟨n, rfl⟩ : ∃ n : ℕ, p = -n := ⟨(-p).toNat, by omega⟩
    rw [neg_neg, Int.toNat_natCast, zpow_neg, zpow_natCast, inv_mul_eq_div, lt_div_iff₀ (by positivity)]
    exact_mod_cast Iff.rfl

theorem pointAbove_spec (positive : 0 < den) (reaches : 10 ^ (p - 1) ≤ (num : ℚ) / den)
    (below : (num : ℚ) / den < 10 ^ (p + fuel)) : PointOf (num / den) (pointAbove num den fuel p) := by
  induction fuel generalizing p with
  | zero => exact ⟨reaches, by simpa [pointAbove] using below⟩
  | succ fuel ih =>
      unfold pointAbove
      simp only [below_iff positive]
      split
      · exact ⟨reaches, ‹_›⟩
      · refine ih ?_ ?_
        · rw [add_sub_cancel_right]
          exact not_lt.mp ‹_›
        · rw [add_assoc, add_comm 1]
          exact_mod_cast below

/-- A quotient lies within a factor of two of the power that the lengths of its parts give. -/
theorem two_pow_log2 {e : ℕ} (some : 0 < num) :
    (2 : ℚ) ^ ((num.log2 : ℤ) - e) ≤ num / (2 ^ e : ℕ) ∧
      (num : ℚ) / (2 ^ e : ℕ) < 2 ^ ((num.log2 : ℤ) - e + 1) := by
  have low : (2 : ℚ) ^ num.log2 ≤ num := by exact_mod_cast Nat.log2_self_le some.ne'
  have high : (num : ℚ) < 2 ^ (num.log2 + 1) := by exact_mod_cast Nat.lt_log2_self
  rw [show (num.log2 : ℤ) - e + 1 = (num.log2 + 1 : ℕ) - e by push_cast; ring, zpow_sub₀ two_ne_zero,
    zpow_sub₀ two_ne_zero, zpow_natCast, zpow_natCast, zpow_natCast, Nat.cast_pow, Nat.cast_ofNat]
  exact ⟨by gcongr, by gcongr⟩

theorem pointOf_spec {e : ℕ} (range : e ≤ 2000) (some : 0 < num) (length : num.log2 ≤ 3000) :
    PointOf (num / (2 ^ e : ℕ)) (pointOf num (2 ^ e)) := by
  obtain ⟨low, high⟩ := two_pow_log2 (e := e) some
  simp only [pointOf, Nat.log2_two_pow, Int.fdiv_eq_ediv_of_nonneg _ (show (0 : ℤ) ≤ 100000 by decide)]
  generalize bits : (num.log2 : ℤ) - e = b at low high ⊢
  refine pointAbove_spec (by positivity) (le_trans (ten_le_two ?_) low) (lt_of_lt_of_le high (two_le_ten ?_))
  · omega
  · push_cast
    omega

/-- The point of what lies in the range of doubles. -/
theorem PointOf.range {x : ℚ} (h : PointOf x p) (low high : ℤ) (above : 2 ^ low ≤ x) (below : x < 2 ^ high)
    (least : -1074 ≤ low) (most : high ≤ 1024) : -323 ≤ p ∧ p ≤ 309 := by
  have lower : (10 : ℚ) ^ (-324 : ℤ) < 10 ^ p :=
    lt_of_le_of_lt (le_trans (ten_le_two (by omega)) above) h.below
  have upper : (10 : ℚ) ^ (p - 1) < 10 ^ (309 : ℤ) :=
    lt_of_le_of_lt h.reaches (lt_of_lt_of_le below (two_le_ten (by omega)))
  have least := (zpow_lt_zpow_iff_right₀ (by norm_num)).mp lower
  have most := (zpow_lt_zpow_iff_right₀ (by norm_num)).mp upper
  omega

/-- Scaled to so many digits before the point, a quotient has just as many. -/
theorem PointOf.scaled (positive : 0 < den) (h : PointOf (num / den) p) (count : ℕ) :
    10 ^ count * (scaled num den (p - (count + 1 : ℕ))).2 ≤ (scaled num den (p - (count + 1 : ℕ))).1 ∧
      (scaled num den (p - (count + 1 : ℕ))).1 < 10 ^ (count + 1) * (scaled num den (p - (count + 1 : ℕ))).2 := by
  obtain ⟨some, quotient⟩ := scaled_spec num positive (p - (count + 1 : ℕ))
  generalize Decimal.scaled num den (p - (count + 1 : ℕ)) = q at some quotient ⊢
  have least : (10 : ℚ) ^ count ≤ q.1 / q.2 := by
    rw [quotient, le_div_iff₀ (by positivity), ← zpow_natCast, ← zpow_add₀ (by norm_num)]
    refine le_trans (le_of_eq ?_) h.reaches
    congr 1
    push_cast
    ring
  have most : (q.1 : ℚ) / q.2 < 10 ^ (count + 1) := by
    rw [quotient, div_lt_iff₀ (by positivity), ← zpow_natCast, ← zpow_add₀ (by norm_num), add_sub_cancel]
    exact h.below
  rw [le_div_iff₀ (by positivity)] at least
  rw [div_lt_iff₀ (by positivity)] at most
  exact ⟨by exact_mod_cast least, by exact_mod_cast most⟩

end Decimal

namespace Double

variable {code count k : ℕ} {point : ℤ}

/-- The two points of a grid around a magnitude, the nearer one first. -/
def candidates (code count : ℕ) (point : ℤ) : ℕ × ℕ :=
  let (n, d) := Decimal.scaled (unitsOfCode code) unitsPerOne (point - count)
  if 2 * (n % d) < d || (2 * (n % d) == d && n / d % 2 == 0) then (n / d, n / d + 1) else (n / d + 1, n / d)

/-- Whether a point of a grid reads back. -/
def readsBack (code : ℕ) (power : ℤ) (k : ℕ) : Bool :=
  let (kn, kd) := Decimal.scaled (k * 2 * unitsPerOne) 1 (-power)
  0 < k && (roundingInterval code).contains kn kd

theorem gridHit?_eq : gridHit? code count point =
    if readsBack code (point - count) (candidates code count point).1 then some (candidates code count point).1
    else if readsBack code (point - count) (candidates code count point).2 then
      some (candidates code count point).2
    else none := rfl

/-- How many halvings a unit is below one. -/
theorem unitsPerOne_eq : ∃ e, unitsPerOne = 2 ^ e ∧ e = 1074 := ⟨1074, by decide +kernel, rfl⟩

theorem readsBack_iff {power : ℤ} :
    readsBack code power k = true ↔ 0 < k ∧ RoundsTo code (k * 10 ^ power * unitsPerOne) := by
  obtain ⟨some, quotient⟩ := Decimal.scaled_spec (k * 2 * unitsPerOne) one_pos (-power)
  have value : ((k * 2 * unitsPerOne : ℕ) : ℚ) / (1 : ℕ) / 10 ^ (-power) / 2 = k * 10 ^ power * unitsPerOne := by
    rw [zpow_neg, div_inv_eq_mul]
    push_cast
    ring
  simp only [readsBack, Bool.and_eq_true, decide_eq_true_eq, contains_iff some, quotient, value]

/-- The candidates lie around the magnitude, and the first is at most half a step from it. -/
theorem candidates_spec {n d : ℕ} (same : Decimal.scaled (unitsOfCode code) unitsPerOne (point - count) = (n, d))
    (some : 0 < d) :
    (∀ k, k = (candidates code count point).1 ∨ k = (candidates code count point).2 → n / d ≤ k ∧ k ≤ n / d + 1) ∧
      2 * ((candidates code count point).1 * d) ≤ 2 * n + d ∧
        2 * n ≤ 2 * ((candidates code count point).1 * d) + d := by
  have parts : n = d * (n / d) + n % d := (Nat.div_add_mod n d).symm
  have rest : n % d < d := Nat.mod_lt n some
  unfold candidates
  rw [same]
  dsimp only
  generalize n / d = q at parts ⊢
  generalize n % d = r at parts rest ⊢
  subst parts
  split <;> rename_i near <;> dsimp only
  · rw [Bool.or_eq_true, Bool.and_eq_true, decide_eq_true_eq, beq_iff_eq, beq_iff_eq] at near
    refine ⟨fun k either => ?_, ?_, ?_⟩
    · omega
    · rw [Nat.mul_comm q]
      omega
    · rw [Nat.mul_comm q]
      omega
  · rw [Bool.or_eq_true, Bool.and_eq_true, decide_eq_true_eq, beq_iff_eq, beq_iff_eq] at near
    refine ⟨fun k either => ?_, ?_, ?_⟩
    · omega
    · rw [Nat.mul_comm _ d, Nat.mul_succ]
      omega
    · rw [Nat.mul_comm _ d, Nat.mul_succ]
      omega

/-- A point of a grid of so many digits that names a magnitude: a number of so many digits, or the next power of
ten, that rounds to it. -/
structure Hit (code count : ℕ) (point : ℤ) (k : ℕ) : Prop where
  least : 10 ^ count ≤ k
  most : k ≤ 10 ^ (count + 1)
  rounds : RoundsTo code (k * 10 ^ (point - (count + 1 : ℕ)) * unitsPerOne)

theorem gridHit?_spec (h : gridHit? code (count + 1) point = some k)
    (is : Decimal.PointOf (unitsOfCode code / unitsPerOne) point) : Hit code count point k := by
  obtain ⟨least, most⟩ := is.scaled unitsPerOne_pos count
  obtain ⟨some, -⟩ := Decimal.scaled_spec (unitsOfCode code) unitsPerOne_pos (point - (count + 1 : ℕ))
  obtain ⟨around, -⟩ := candidates_spec (Prod.mk.eta (p := Decimal.scaled (unitsOfCode code) unitsPerOne _)).symm some
  have low := (Nat.le_div_iff_mul_le some).mpr least
  have high := (Nat.div_lt_iff_lt_mul some).mpr most
  rw [gridHit?_eq] at h
  split at h
  · obtain rfl := Option.some.inj h
    have := around _ (.inl rfl)
    exact ⟨by omega, by omega, (readsBack_iff.mp ‹_›).2⟩
  · split at h
    · obtain rfl := Option.some.inj h
      have := around _ (.inr rfl)
      exact ⟨by omega, by omega, (readsBack_iff.mp ‹_›).2⟩
    · cases h

/-- The nearest number of seventeen digits names a magnitude. -/
theorem gridHit?_seventeen (some : 0 < code) (is : Decimal.PointOf (unitsOfCode code / unitsPerOne) point) :
    ∃ k, gridHit? code 17 point = .some k := by
  obtain ⟨least, -⟩ := is.scaled unitsPerOne_pos 16
  obtain ⟨positive, quotient⟩ := Decimal.scaled_spec (unitsOfCode code) unitsPerOne_pos (point - (16 + 1 : ℕ))
  obtain ⟨-, above, below⟩ :=
    candidates_spec (Prod.mk.eta (p := Decimal.scaled (unitsOfCode code) unitsPerOne (point - (17 : ℕ)))).symm positive
  suffices reads : readsBack code (point - (17 : ℕ)) (candidates code 17 point).1 = true by
    exact ⟨_, by rw [gridHit?_eq, if_pos reads]⟩
  generalize (candidates code 17 point).1 = k at above below ⊢
  generalize Decimal.scaled (unitsOfCode code) unitsPerOne (point - (16 + 1 : ℕ)) = q
    at least positive quotient above below
  have step : (0 : ℚ) < 10 ^ (point - (17 : ℕ)) * unitsPerOne :=
    mul_pos (by positivity) (by exact_mod_cast unitsPerOne_pos)
  have digits : 0 < k := by
    by_contra none
    obtain rfl : k = 0 := by omega
    omega
  refine readsBack_iff.mpr ⟨digits, .of_close some ?_⟩
  have value : (unitsOfCode code : ℚ) = q.1 / q.2 * (10 ^ (point - (17 : ℕ)) * unitsPerOne) := by
    have one : (unitsPerOne : ℚ) ≠ 0 := by exact_mod_cast unitsPerOne_pos.ne'
    rw [quotient]
    field_simp
  have long : (10 : ℚ) ^ 16 ≤ q.1 / q.2 := by
    rw [le_div_iff₀ (by positivity)]
    exact_mod_cast least
  have near : |(k : ℚ) - q.1 / q.2| ≤ 1 / 2 := by
    have above' : (2 : ℚ) * (k * q.2) ≤ 2 * q.1 + q.2 := by exact_mod_cast above
    have below' : (2 : ℚ) * q.1 ≤ 2 * (k * q.2) + q.2 := by exact_mod_cast below
    have some' : (0 : ℚ) < q.2 := by exact_mod_cast positive
    have whole : (q.1 : ℚ) / q.2 * q.2 = q.1 := div_mul_cancel₀ _ some'.ne'
    rw [abs_le]
    constructor <;> nlinarith
  rw [value, mul_assoc (k : ℚ), ← sub_mul, abs_mul, abs_of_pos step]
  generalize (10 : ℚ) ^ (point - (17 : ℕ)) * unitsPerOne = grid at step
  calc |(k : ℚ) - q.1 / q.2| * grid * 2 ^ 54 ≤ 1 / 2 * grid * 2 ^ 54 := by gcongr
    _ = 2 ^ 53 * grid := by ring
    _ < 10 ^ 16 * grid := by gcongr; norm_num
    _ ≤ q.1 / q.2 * grid := by gcongr

end Double

namespace Decimal

variable {count k : ℕ} {digits : List ℕ} {d : Decimal}

/-- The number that digits spell. -/
def number (digits : List ℕ) : ℕ := Nat.ofDigits 10 digits.reverse

theorem number_append (digits more : List ℕ) :
    number (digits ++ more) = number digits * 10 ^ more.length + number more := by
  simp only [number, List.reverse_append, Nat.ofDigits_append, List.length_reverse]
  ring

theorem number_zeros (n : ℕ) : number (List.replicate n 0) = 0 := by
  simp [number]

/-- What a decimal stands for. -/
def value (d : Decimal) : ℚ := number d.digits * 10 ^ (d.point - d.digits.length)

/-- Digits that can be written: each is one, and the first is no zero. -/
structure Proper (digits : List ℕ) : Prop where
  small : ∀ x ∈ digits, x < 10
  leads : ∃ first, digits.head? = some first ∧ first ≠ 0

theorem length_fixedDigits (count k : ℕ) : (fixedDigits count k).length = count := by
  induction count generalizing k with
  | zero => rfl
  | succ count ih => rw [fixedDigits, List.length_append, ih, List.length_singleton]

theorem number_fixedDigits (less : k < 10 ^ count) : number (fixedDigits count k) = k := by
  induction count generalizing k with
  | zero =>
      have : k = 0 := by simpa using less
      rw [this]
      rfl
  | succ count ih =>
      have front : number (fixedDigits count (k / 10)) = k / 10 := ih (by rw [pow_succ] at less; omega)
      rw [fixedDigits, number_append, front]
      simp only [number, List.reverse_singleton, Nat.ofDigits_singleton, List.length_singleton]
      omega

theorem proper_fixedDigits (least : 10 ^ count ≤ k) (less : k < 10 ^ (count + 1)) :
    Proper (fixedDigits (count + 1) k) := by
  induction count generalizing k with
  | zero =>
      have last : fixedDigits (0 + 1) k = [k] := by
        simp only [fixedDigits, List.nil_append, List.cons.injEq, and_true]
        omega
      rw [last]
      exact ⟨fun x member => by rw [List.mem_singleton.mp member]; omega, k, rfl, by omega⟩
  | succ count ih =>
      obtain ⟨small, first, leads, some⟩ := ih (k := k / 10) (by rw [pow_succ] at least; omega)
        (by rw [pow_succ] at less; omega)
      rw [fixedDigits]
      refine ⟨fun x member => ?_, first, by simp [List.head?_append, leads], some⟩
      rcases List.mem_append.mp member with inner | last
      · exact small x inner
      · rw [List.mem_singleton.mp last]
        omega

theorem dropTrailingZeros_append (digits : List ℕ) :
    ∃ n, digits = dropTrailingZeros digits ++ List.replicate n 0 := by
  have zeros : ∀ x ∈ digits.reverse.takeWhile (· == 0), x = 0 := fun x member => by
    simpa using List.all_eq_true.mp List.all_takeWhile x member
  have parts := List.takeWhile_append_dropWhile (p := (· == 0)) (l := digits.reverse)
  rw [List.eq_replicate_of_mem zeros] at parts
  refine ⟨(digits.reverse.takeWhile (· == 0)).length, ?_⟩
  rw [dropTrailingZeros, ← List.reverse_inj, List.reverse_append, List.reverse_reverse, List.reverse_replicate]
  exact parts.symm

/-- Zeros at the end change neither what digits stand for nor how they begin. -/
theorem Proper.dropTrailingZeros (h : Proper digits) : Proper (dropTrailingZeros digits) := by
  obtain ⟨n, same⟩ := dropTrailingZeros_append digits
  obtain ⟨small, first, leads, some⟩ := h
  refine ⟨fun x member => small x (by rw [same]; exact List.mem_append_left _ member), first, ?_, some⟩
  rw [same, List.head?_append] at leads
  rcases front : (Decimal.dropTrailingZeros digits).head? with _ | x
  · rw [front, Option.none_or] at leads
    exact absurd (List.eq_of_mem_replicate (List.mem_of_head? leads)) some
  · rw [front] at leads
    exact leads

theorem value_dropTrailingZeros (digits : List ℕ) (point : ℤ) :
    value ⟨dropTrailingZeros digits, point⟩ = value ⟨digits, point⟩ := by
  obtain ⟨n, same⟩ := dropTrailingZeros_append digits
  generalize dropTrailingZeros digits = front at same ⊢
  subst same
  simp only [value, number_append, number_zeros, List.length_append, List.length_replicate, add_zero]
  push_cast
  rw [mul_assoc, ← zpow_natCast, ← zpow_add₀ (by norm_num)]
  congr 2
  ring

end Decimal

namespace Double

/-- A decimal that reads back as a magnitude: it has digits that can be written, and it rounds to the magnitude. -/
structure ReadsBack (code : ℕ) (d : Decimal) : Prop where
  proper : Decimal.Proper d.digits
  short : d.digits.length ≤ 17
  rounds : RoundsTo code (d.value * unitsPerOne)
  range : -323 ≤ d.point ∧ d.point ≤ 310

variable {code count k : ℕ} {point : ℤ}

theorem unitsOfCode_pos (some : 0 < code) : 0 < unitsOfCode code := by
  obtain ⟨e, m, rfl, most, least⟩ := exists_grid code
  rw [unitsOfCode_grid ⟨most.le, least⟩]
  have : 0 < m := by omega
  positivity

theorem unitsOfCode_lt (finite : code < codeLimit) : ∃ e ≤ 2098, unitsOfCode code < 2 ^ e := by
  obtain ⟨e, m, rfl, most, least⟩ := exists_grid code
  simp only [codeLimit, Nat.pow_eq] at finite
  refine ⟨53 + e, by omega, ?_⟩
  rw [unitsOfCode_grid ⟨most.le, least⟩, pow_add]
  exact Nat.mul_lt_mul_of_pos_right (by omega) (Nat.two_pow_pos e)

/-- The magnitudes of doubles lie in the range that points are found in. -/
theorem pointOf_unitsOfCode (some : 0 < code) (finite : code < codeLimit) :
    Decimal.PointOf (unitsOfCode code / unitsPerOne) (Decimal.pointOf (unitsOfCode code) unitsPerOne) ∧
      -323 ≤ Decimal.pointOf (unitsOfCode code) unitsPerOne ∧
        Decimal.pointOf (unitsOfCode code) unitsPerOne ≤ 309 := by
  obtain ⟨e, bits, less⟩ := unitsOfCode_lt finite
  obtain ⟨f, same, exponent⟩ := unitsPerOne_eq
  have positive := unitsOfCode_pos some
  have length : (unitsOfCode code).log2 < e := (Nat.log2_lt positive.ne').mpr less
  have is := Decimal.pointOf_spec (e := f) (by omega) positive (by omega)
  rw [same]
  refine ⟨is, is.range (-f) (e - f) ?_ ?_ (by omega) (by omega)⟩
  · have one : (1 : ℚ) ≤ unitsOfCode code := by exact_mod_cast positive
    calc (2 : ℚ) ^ (-(f : ℤ)) = 1 / (2 ^ f : ℕ) := by
          rw [zpow_neg, zpow_natCast, one_div, Nat.cast_pow, Nat.cast_ofNat]
      _ ≤ unitsOfCode code / (2 ^ f : ℕ) := by gcongr
  · calc (unitsOfCode code : ℚ) / (2 ^ f : ℕ) < (2 ^ e : ℕ) / (2 ^ f : ℕ) := by gcongr
      _ = 2 ^ ((e : ℤ) - f) := by
        rw [zpow_sub₀ two_ne_zero, zpow_natCast, zpow_natCast, Nat.cast_pow, Nat.cast_pow, Nat.cast_ofNat]

/-- The digits of a hit, or the next power of ten, read back. -/
theorem Hit.readsBack (h : Hit code count point k) (short : count < 17) (range : -323 ≤ point ∧ point ≤ 309) :
    ReadsBack code (if k < Nat.pow 10 (count + 1) then
      ⟨Decimal.dropTrailingZeros (Decimal.fixedDigits (count + 1) k), point⟩ else ⟨[1], point + 1⟩) := by
  obtain ⟨least, most, rounds⟩ := h
  rw [Nat.pow_eq]
  split <;> rename_i less
  · obtain ⟨n, dropped⟩ := Decimal.dropTrailingZeros_append (Decimal.fixedDigits (count + 1) k)
    have length := congrArg List.length dropped
    rw [Decimal.length_fixedDigits, List.length_append] at length
    refine ⟨(Decimal.proper_fixedDigits least less).dropTrailingZeros, by dsimp only; omega, ?_, by dsimp only; omega⟩
    rw [Decimal.value_dropTrailingZeros, Decimal.value, Decimal.number_fixedDigits less, Decimal.length_fixedDigits]
    exact rounds
  · obtain rfl : k = 10 ^ (count + 1) := by omega
    refine ⟨⟨fun x member => ?_, 1, rfl, one_ne_zero⟩, by simp, ?_, by dsimp only; omega⟩
    · rw [List.mem_singleton.mp member]
      decide
    · have value : Decimal.value ⟨[1], point + 1⟩ = (10 ^ (count + 1) : ℕ) * 10 ^ (point - (count + 1 : ℕ)) := by
        rw [Nat.cast_pow, Nat.cast_ofNat, ← zpow_natCast, ← zpow_add₀ (by norm_num), add_sub_cancel]
        simp [Decimal.value, Decimal.number]
      rw [value]
      exact rounds

theorem shortestFrom_readsBack (some : 0 < code)
    (is : Decimal.PointOf (unitsOfCode code / unitsPerOne) point) (range : -323 ≤ point ∧ point ≤ 309) (fuel count : ℕ)
    (left : fuel + count = 16) : ReadsBack code (shortestFrom code point (fuel + 1) (count + 1)) := by
  induction fuel generalizing count with
  | zero =>
      obtain rfl : count = 16 := by omega
      obtain ⟨k, hit⟩ := gridHit?_seventeen some is
      simp only [shortestFrom, hit]
      exact (gridHit?_spec hit is).readsBack (by omega) range
  | succ fuel ih =>
      rw [shortestFrom]
      rcases hit : gridHit? code (count + 1) point with _ | k
      · exact ih (count + 1) (by omega)
      · exact (gridHit?_spec hit is).readsBack (by omega) range

/-- The shortest decimal of a magnitude reads back as the magnitude. -/
theorem shortest_readsBack (some : 0 < code) (finite : code < codeLimit) : ReadsBack code (shortest code) := by
  obtain ⟨is, range⟩ := pointOf_unitsOfCode some finite
  exact shortestFrom_readsBack some is range 16 0 rfl

end Double

end BlockGraph
