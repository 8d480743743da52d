import BlockGraph.Number.Decimal
import Mathlib.Data.Rat.Cast.Order
import Mathlib.Tactic.FieldSimp
import Mathlib.Tactic.Linarith
import Mathlib.Tactic.Positivity
import Mathlib.Tactic.Ring
/-!
How quotients round to doubles: a quotient that lies in the rounding interval of a magnitude is rounded to that
magnitude.
-/
namespace BlockGraph

variable {num den m : Nat}

/-- What lies within half a unit of a number is rounded to it, on the border when the number is even. -/
theorem roundHalfEven_eq (above : 2 * m * den ≤ 2 * num + den) (below : 2 * num ≤ (2 * m + 1) * den)
    (odd : m % 2 = 1 → 2 * m * den < 2 * num + den ∧ 2 * num < (2 * m + 1) * den) (positive : 0 < den) :
    roundHalfEven num den = m := by
  have parts : num = den * (num / den) + num % den := (Nat.div_add_mod num den).symm
  have part : num % den < den := Nat.mod_lt num positive
  simp only [roundHalfEven]
  generalize num / den = q at parts ⊢
  generalize num % den = r at parts part ⊢
  subst parts
  have least : m ≤ q + 1 := by
    by_contra far
    have : (q + 2) * den ≤ m * den := Nat.mul_le_mul_right den (by omega)
    nlinarith
  have most : q ≤ m := by
    by_contra far
    have : (m + 1) * den ≤ q * den := Nat.mul_le_mul_right den (by omega)
    nlinarith
  rcases Nat.lt_or_ge q m with less | _
  · obtain rfl : m = q + 1 := by omega
    have half : den ≤ 2 * r := by nlinarith
    rw [if_neg (by omega)]
    split
    · rfl
    · have tie : 2 * r = den := by omega
      have even : (q + 1) % 2 ≠ 1 := fun one => by
        have := (odd one).1
        nlinarith
      omega
  · obtain rfl : m = q := by omega
    have half : 2 * r ≤ den := by nlinarith
    split
    · rfl
    · have tie : 2 * r = den := by omega
      have even : m % 2 ≠ 1 := fun one => by
        have := (odd one).2
        nlinarith
      rw [if_neg (by omega)]
      omega

namespace Double

variable {e code : Nat}

/-- The code of a mantissa on the grid that was doubled `e` times: it is normal unless the grid is the finest,
and may be the first of the next grid. -/
structure OnGrid (e m : Nat) : Prop where
  most : m ≤ 2 * 2 ^ 52
  least : e = 0 ∨ 2 ^ 52 ≤ m

theorem unitsOfCode_grid (grid : OnGrid e m) : unitsOfCode (e * 2 ^ 52 + m) = m * 2 ^ e := by
  obtain ⟨most, least⟩ := grid
  unfold unitsOfCode
  simp only [Nat.pow_eq]
  rcases Nat.lt_or_ge m (2 ^ 52) with small | large
  · obtain rfl : e = 0 := by omega
    rw [if_pos (by omega)]
    omega
  · rw [if_neg (by omega)]
    rcases Nat.lt_or_ge m (2 * 2 ^ 52) with inner | border
    · rw [show (e * 2 ^ 52 + m) % 2 ^ 52 = m - 2 ^ 52 by omega, show (e * 2 ^ 52 + m) / 2 ^ 52 - 1 = e by omega,
        Nat.add_sub_cancel' large]
    · obtain rfl : m = 2 * 2 ^ 52 := by omega
      rw [show (e * 2 ^ 52 + 2 * 2 ^ 52) % 2 ^ 52 = 0 by omega,
        show (e * 2 ^ 52 + 2 * 2 ^ 52) / 2 ^ 52 - 1 = e + 1 by omega, Nat.pow_succ]
      ring

/-- Each code is a mantissa on some grid, and less than the first of the next grid. -/
theorem exists_grid (code : Nat) : ∃ e m, code = e * 2 ^ 52 + m ∧ m < 2 * 2 ^ 52 ∧ (e = 0 ∨ 2 ^ 52 ≤ m) := by
  rcases Nat.lt_or_ge code (2 * 2 ^ 52) with small | large
  · exact ⟨0, code, by omega, small, .inl rfl⟩
  · refine ⟨code / 2 ^ 52 - 1, code % 2 ^ 52 + 2 ^ 52, ?_, ?_, .inr ?_⟩ <;> omega

/-- A quotient below the top of a grid and not below its first normal mantissa is rounded on this grid. -/
theorem nearestCode_grid (below : num < 2 ^ (53 + e) * den) (above : e = 0 ∨ 2 ^ (52 + e) * den ≤ num)
    (positive : 0 < den) : nearestCode num den = e * 2 ^ 52 + roundHalfEven num (den * 2 ^ e) := by
  have high : num / den < 2 ^ (53 + e) := (Nat.div_lt_iff_lt_mul positive).mpr below
  have shift : (num / den).log2 - 52 = e := by
    rcases above with rfl | above
    · rcases Nat.eq_zero_or_pos (num / den) with none | some
      · simp [none]
      · have : (num / den).log2 < 53 := (Nat.log2_lt (Nat.ne_of_gt some)).mpr high
        omega
    · have low : 2 ^ (52 + e) ≤ num / den := (Nat.le_div_iff_mul_le positive).mpr above
      have some : num / den ≠ 0 := Nat.ne_of_gt (Nat.lt_of_lt_of_le (Nat.two_pow_pos _) low)
      have : (num / den).log2 < 53 + e := (Nat.log2_lt some).mpr high
      have : 52 + e ≤ (num / den).log2 := (Nat.le_log2 some).mpr low
      omega
  simp only [nearestCode, shift, Nat.pow_eq]

theorem contains_iff_nat : (roundingInterval code).contains num den = true ↔
    ((roundingInterval code).low * den ≤ num ∧ num ≤ (roundingInterval code).high * den) ∧
      (code % 2 = 1 → (roundingInterval code).low * den < num ∧ num < (roundingInterval code).high * den) := by
  have even : (roundingInterval code).closed = true ↔ ¬code % 2 = 1 := by
    simp only [roundingInterval, beq_iff_eq]
    omega
  unfold Interval.contains
  by_cases one : code % 2 = 1
  · rw [if_neg (by simp [even, one]), Bool.and_eq_true, decide_eq_true_iff, decide_eq_true_iff]
    exact ⟨fun h => ⟨⟨h.1.le, h.2.le⟩, fun _ => h⟩, fun h => h.2 one⟩
  · rw [if_pos (even.mpr one), Bool.and_eq_true, decide_eq_true_iff, decide_eq_true_iff]
    exact ⟨fun h => ⟨h, fun odd => absurd odd one⟩, fun h => h.1⟩

/-- The upper end of a rounding interval, in half units. -/
theorem high_grid (most : m < 2 * 2 ^ 52) (least : e = 0 ∨ 2 ^ 52 ≤ m) :
    (roundingInterval (e * 2 ^ 52 + m)).high = (2 * m + 1) * 2 ^ e := by
  have next : OnGrid e (m + 1) := ⟨most, by omega⟩
  simp only [roundingInterval, Nat.add_assoc, unitsOfCode_grid ⟨most.le, least⟩, unitsOfCode_grid next]
  ring

/-- The lower end lies as far below a magnitude as the upper end above it, unless the grid is finer below. -/
theorem low_grid (most : m < 2 * 2 ^ 52) (least : e = 0 ∧ 0 < m ∨ 2 ^ 52 < m) :
    (roundingInterval (e * 2 ^ 52 + m)).low + 2 ^ e = 2 * m * 2 ^ e := by
  obtain ⟨n, rfl⟩ : ∃ n, m = n + 1 := ⟨m - 1, by omega⟩
  have before : OnGrid e n := ⟨by omega, by omega⟩
  have grid : OnGrid e (n + 1) := ⟨most.le, by omega⟩
  have back : e * 2 ^ 52 + (n + 1) - 1 = e * 2 ^ 52 + n := by omega
  simp only [roundingInterval, back, unitsOfCode_grid before, unitsOfCode_grid grid]
  ring

theorem low_border : (roundingInterval ((e + 1) * 2 ^ 52 + 2 ^ 52)).low = (2 ^ 54 - 1) * 2 ^ e := by
  have before : OnGrid e (2 ^ 53 - 1) := ⟨by omega, by omega⟩
  have grid : OnGrid (e + 1) (2 ^ 52) := ⟨by omega, by omega⟩
  have back : (e + 1) * 2 ^ 52 + 2 ^ 52 - 1 = e * 2 ^ 52 + (2 ^ 53 - 1) := by omega
  simp only [roundingInterval, back, unitsOfCode_grid before, unitsOfCode_grid grid, Nat.pow_succ 2 e]
  ring

/-- On the grid of a magnitude, what lies in its rounding interval is rounded to it. -/
theorem nearestCode_inner (most : m < 2 * 2 ^ 52) (least : e = 0 ∧ 0 < m ∨ 2 ^ 52 < m) (positive : 0 < den)
    (near : (roundingInterval (e * 2 ^ 52 + m)).contains (2 * num) den = true) :
    nearestCode num den = e * 2 ^ 52 + m := by
  obtain ⟨⟨lower, upper⟩, odd⟩ := contains_iff_nat.mp near
  have low := low_grid most least
  rw [high_grid most (by omega)] at upper odd
  generalize (roundingInterval (e * 2 ^ 52 + m)).low = l at lower odd low
  have unit : 0 < den * 2 ^ e := by positivity
  have lowest : l * den + den * 2 ^ e = 2 * m * (den * 2 ^ e) := by
    rw [Nat.mul_comm l, ← Nat.mul_add, low]
    ring
  have highest : (2 * m + 1) * 2 ^ e * den = (2 * m + 1) * (den * 2 ^ e) := by ring
  have rounded : roundHalfEven num (den * 2 ^ e) = m := by
    refine roundHalfEven_eq (by omega) (by omega) (fun one => ?_) unit
    have := odd (by omega)
    exact ⟨by omega, by omega⟩
  have below : num < 2 ^ (53 + e) * den := by
    have := Nat.mul_le_mul_right (den * 2 ^ e) (show 2 * m + 2 ≤ 2 * 2 ^ 53 by omega)
    rw [Nat.pow_add, Nat.mul_assoc, Nat.mul_comm (2 ^ e)]
    nlinarith
  have above : e = 0 ∨ 2 ^ (52 + e) * den ≤ num := by
    rcases least with ⟨none, -⟩ | normal
    · exact .inl none
    · have := Nat.mul_le_mul_right (den * 2 ^ e) (show 2 * 2 ^ 52 + 2 ≤ 2 * m by omega)
      rw [Nat.pow_add, Nat.mul_assoc, Nat.mul_comm (2 ^ e)]
      exact .inr (by nlinarith)
  rw [nearestCode_grid below above positive, rounded]

/-- On the first mantissa of a grid, where the interval reaches into the finer grid below. -/
theorem nearestCode_border (positive : 0 < den)
    (near : (roundingInterval ((e + 1) * 2 ^ 52 + 2 ^ 52)).contains (2 * num) den = true) :
    nearestCode num den = (e + 1) * 2 ^ 52 + 2 ^ 52 := by
  obtain ⟨⟨lower, upper⟩, -⟩ := contains_iff_nat.mp near
  rw [low_border] at lower
  rw [high_grid (by omega) (by omega), pow_succ 2 e] at upper
  have unit : 0 < den * 2 ^ e := by positivity
  have lowest : (2 ^ 54 - 1) * 2 ^ e * den = (2 ^ 54 - 1) * (den * 2 ^ e) := by ring
  have highest : (2 * 2 ^ 52 + 1) * (2 ^ e * 2) * den = (2 * 2 ^ 52 + 1) * 2 * (den * 2 ^ e) := by ring
  have power (k : Nat) : 2 ^ (k + e) * den = 2 ^ k * (den * 2 ^ e) := by ring
  rcases Nat.lt_or_ge num (2 ^ (53 + e) * den) with finer | coarser
  · have above : 2 ^ (52 + e) * den ≤ num := by
      rw [power]
      omega
    rw [power] at finer
    have rounded : roundHalfEven num (den * 2 ^ e) = 2 ^ 53 :=
      roundHalfEven_eq (by omega) (by omega) (fun one => absurd one (by decide)) unit
    rw [nearestCode_grid (e := e) (by rw [power]; exact finer) (.inr above) positive, rounded]
    omega
  · have same (k : Nat) : 2 ^ (k + (e + 1)) * den = 2 * 2 ^ k * (den * 2 ^ e) := by ring
    rw [power] at coarser
    have rounded : roundHalfEven num (den * 2 ^ (e + 1)) = 2 ^ 52 := by
      rw [Nat.pow_succ, ← Nat.mul_assoc]
      exact roundHalfEven_eq (by omega) (by omega) (fun one => absurd one (by decide)) (by omega)
    rw [nearestCode_grid (by rw [same]; omega) (.inr (by rw [same]; omega)) positive, rounded]

/-- A quotient, in units, lies in the rounding interval of a magnitude. -/
structure RoundsTo (code : ℕ) (x : ℚ) : Prop where
  least : (roundingInterval code).low ≤ 2 * x
  most : 2 * x ≤ (roundingInterval code).high
  odd : code % 2 = 1 → (roundingInterval code).low < 2 * x ∧ 2 * x < (roundingInterval code).high

/-- The interval is told in half units. -/
theorem contains_iff (positive : 0 < den) :
    (roundingInterval code).contains num den = true ↔ RoundsTo code (num / den / 2) := by
  have double : 2 * ((num : ℚ) / den / 2) = num / den := by ring
  have least (l : ℕ) : (l : ℚ) ≤ num / den ↔ l * den ≤ num := by
    rw [le_div_iff₀ (by positivity)]
    exact_mod_cast Iff.rfl
  have less (l : ℕ) : (l : ℚ) < num / den ↔ l * den < num := by
    rw [lt_div_iff₀ (by positivity)]
    exact_mod_cast Iff.rfl
  have most (h : ℕ) : (num : ℚ) / den ≤ h ↔ num ≤ h * den := by
    rw [div_le_iff₀ (by positivity)]
    exact_mod_cast Iff.rfl
  have more (h : ℕ) : (num : ℚ) / den < h ↔ num < h * den := by
    rw [div_lt_iff₀ (by positivity)]
    exact_mod_cast Iff.rfl
  rw [contains_iff_nat]
  constructor
  · rintro ⟨⟨low, high⟩, odd⟩
    refine ⟨by rwa [double, least], by rwa [double, most], fun one => ?_⟩
    rw [double, less, more]
    exact odd one
  · rintro ⟨low, high, odd⟩
    rw [double, least] at low
    rw [double, most] at high
    rw [double, less, more] at odd
    exact ⟨⟨low, high⟩, odd⟩

/-- What lies in the rounding interval of a magnitude is rounded to it. -/
theorem RoundsTo.nearestCode (near : RoundsTo code (num / den)) (positive : 0 < den) (some : 0 < code) :
    nearestCode num den = code := by
  have inside : (roundingInterval code).contains (2 * num) den = true := by
    rw [contains_iff positive]
    have half : ((2 * num : ℕ) : ℚ) / den / 2 = num / den := by
      push_cast
      ring
    rwa [half]
  obtain ⟨e, m, rfl, most, least⟩ := exists_grid code
  by_cases inner : e = 0 ∧ 0 < m ∨ 2 ^ 52 < m
  · exact nearestCode_inner most inner positive inside
  · obtain ⟨f, rfl⟩ : ∃ f, e = f + 1 := ⟨e - 1, by omega⟩
    obtain rfl : m = 2 ^ 52 := by omega
    exact nearestCode_border positive inside

/-- The ends of a rounding interval are not close to the magnitude: its mantissa has 53 bits. -/
theorem interval_wide (some : 0 < code) :
    2 ^ 53 * (roundingInterval code).low + unitsOfCode code ≤ 2 ^ 53 * (2 * unitsOfCode code) ∧
      2 ^ 53 * (2 * unitsOfCode code) + unitsOfCode code ≤ 2 ^ 53 * (roundingInterval code).high := by
  obtain ⟨e, m, rfl, most, least⟩ := exists_grid code
  have bits : m * 2 ^ e ≤ 2 ^ 53 * 2 ^ e := Nat.mul_le_mul_right _ (by omega)
  have upper : 2 ^ 53 * (2 * (m * 2 ^ e)) + m * 2 ^ e ≤ 2 ^ 53 * ((2 * m + 1) * 2 ^ e) := by nlinarith
  rw [unitsOfCode_grid ⟨most.le, least⟩, high_grid most least]
  refine ⟨?_, upper⟩
  by_cases inner : e = 0 ∧ 0 < m ∨ 2 ^ 52 < m
  · have low := low_grid most inner
    nlinarith
  · obtain ⟨f, rfl⟩ : ∃ f, e = f + 1 := ⟨e - 1, by omega⟩
    obtain rfl : m = 2 ^ 52 := by omega
    rw [low_border, pow_succ 2 f]
    omega

/-- What is close to a magnitude, seen against its size, is rounded to it. -/
theorem RoundsTo.of_close {x : ℚ} (some : 0 < code) (close : |x - unitsOfCode code| * 2 ^ 54 < unitsOfCode code) :
    RoundsTo code x := by
  obtain ⟨low, high⟩ := interval_wide some
  have lower : (2 : ℚ) ^ 53 * (roundingInterval code).low + unitsOfCode code ≤ 2 ^ 53 * (2 * unitsOfCode code) := by
    exact_mod_cast low
  have upper : (2 : ℚ) ^ 53 * (2 * unitsOfCode code) + unitsOfCode code ≤ 2 ^ 53 * (roundingInterval code).high := by
    exact_mod_cast high
  obtain ⟨left, right⟩ := abs_lt.mp ((lt_div_iff₀ (by positivity)).mpr close)
  have least : (roundingInterval code).low < 2 * x := by linarith
  have most : 2 * x < (roundingInterval code).high := by linarith
  exact ⟨least.le, most.le, fun _ => ⟨least, most⟩⟩

end Double

end BlockGraph
