import BlockGraph.Proofs.Numerals
import BlockGraph.Proofs.Plans
import BlockGraph.Proofs.Transcripts
/-!
Remainders of integers. They are worked out on doubles, so each operand is first cut to 53 bits, and the remainder
of what is left of them is exact.
-/
namespace BlockGraph

/-! ### Rounding to 53 bits -/

section
variable {num den m k : Nat}

theorem roundHalfEven_le (positive : 0 < den) (most : num ≤ m * den) : roundHalfEven num den ≤ m := by
  have parts : den * (num / den) + num % den = num := Nat.div_add_mod num den
  have quotient : num / den ≤ m := Nat.div_le_of_le_mul (by rwa [Nat.mul_comm])
  simp only [roundHalfEven]
  rcases Nat.lt_or_eq_of_le quotient with less | same
  · split
    · omega
    · split <;> omega
  · rw [same] at parts
    rw [Nat.mul_comm] at most
    have none : num % den = 0 := by omega
    rw [none, if_pos (by omega)]
    exact quotient

theorem le_roundHalfEven (positive : 0 < den) (least : m * den ≤ num) : m ≤ roundHalfEven num den := by
  have quotient : m ≤ num / den := (Nat.le_div_iff_mul_le positive).mpr least
  simp only [roundHalfEven]
  split
  · exact quotient
  · split <;> omega

theorem roundHalfEven_mul_right (positive : 0 < k) :
    roundHalfEven (num * k) (den * k) = roundHalfEven num den := by
  have half : 2 * (num % den * k) < den * k ↔ 2 * (num % den) < den := by
    rw [← Nat.mul_assoc]
    exact Nat.mul_lt_mul_right positive
  have more : den * k < 2 * (num % den * k) ↔ den < 2 * (num % den) := by
    rw [← Nat.mul_assoc]
    exact Nat.mul_lt_mul_right positive
  simp only [roundHalfEven, Nat.mul_div_mul_right _ _ positive, Nat.mul_mod_mul_right, half, more]

theorem roundHalfEven_mul_self (positive : 0 < den) : roundHalfEven (m * den) den = m :=
  Nat.le_antisymm (roundHalfEven_le positive le_rfl) (le_roundHalfEven positive le_rfl)

end

/-- How many bits of a natural number are more than 53. -/
def excess (n : Nat) : Nat := n.log2 - 52

/-- A natural number cut to its first 53 bits, rounded to the nearest, a tie to even. -/
def roundBits (n : Nat) : Nat := roundHalfEven n (2 ^ excess n) * 2 ^ excess n

/-- Whether a natural number has no more than 53 bits before its last zeros: a double can hold it. -/
def FitsBits (n : Nat) : Prop := ∃ m e, m < 2 ^ 53 ∧ n = m * 2 ^ e

variable {n k : Nat}

theorem lt_excess (n : Nat) : n < 2 ^ 53 * 2 ^ excess n := by
  rw [← pow_add]
  refine lt_of_lt_of_le Nat.lt_log2_self (Nat.pow_le_pow_right (by decide) ?_)
  unfold excess
  omega

theorem excess_le (n : Nat) : excess n = 0 ∨ 2 ^ 52 * 2 ^ excess n ≤ n := by
  rcases Nat.lt_or_ge 52 n.log2 with long | short
  · have some : n ≠ 0 := by rintro rfl; simp at long
    have same : 52 + excess n = n.log2 := by unfold excess; omega
    rw [← pow_add, same]
    exact .inr (Nat.log2_self_le some)
  · exact .inl (by unfold excess; omega)

theorem excess_unique (below : n < 2 ^ 53 * 2 ^ k) (least : k = 0 ∨ 2 ^ 52 * 2 ^ k ≤ n) : excess n = k := by
  have order {a b : Nat} (less : 2 ^ 52 * 2 ^ a < 2 ^ 53 * 2 ^ b) : a ≤ b := by
    rw [← pow_add, ← pow_add] at less
    have := (Nat.pow_lt_pow_iff_right (by decide)).mp less
    omega
  refine Nat.le_antisymm ?_ ?_
  · rcases excess_le n with none | high
    · omega
    · exact order (lt_of_le_of_lt high below)
  · rcases least with none | high
    · omega
    · exact order (lt_of_le_of_lt high (lt_excess n))

/-- A mantissa of 53 bits may round up to the first one of 54. -/
theorem fits_of_le {m e : Nat} (most : m ≤ 2 ^ 53) : FitsBits (m * 2 ^ e) := by
  rcases Nat.lt_or_eq_of_le most with less | rfl
  · exact ⟨m, e, less, rfl⟩
  · exact ⟨2 ^ 52, e + 1, by decide, by ring⟩

theorem fits_roundBits (n : Nat) : FitsBits (roundBits n) :=
  fits_of_le (roundHalfEven_le (Nat.two_pow_pos _) (lt_excess n).le)

theorem FitsBits.dvd (fits : FitsBits n) : 2 ^ excess n ∣ n := by
  obtain ⟨m, e, short, rfl⟩ := fits
  rcases Nat.eq_zero_or_pos m with rfl | some
  · simp
  · have below : m * 2 ^ e < 2 ^ (53 + e) := by
      rw [pow_add]
      exact Nat.mul_lt_mul_of_pos_right short (Nat.two_pow_pos e)
    have length : (m * 2 ^ e).log2 < 53 + e := (Nat.log2_lt (by positivity)).mpr below
    exact Dvd.dvd.mul_left (pow_dvd_pow 2 (by unfold excess; omega)) m

theorem FitsBits.roundBits_eq (fits : FitsBits n) : roundBits n = n := by
  obtain ⟨m, same⟩ := fits.dvd
  unfold roundBits
  generalize excess n = e at same ⊢
  rw [same, Nat.mul_comm (2 ^ e), roundHalfEven_mul_self (Nat.two_pow_pos e)]

/-- A remainder has no more bits than the number that is divided or the number that divides. -/
theorem FitsBits.mod (fits : FitsBits n) (other : FitsBits k) : FitsBits (n % k) := by
  obtain ⟨a, e, short, rfl⟩ := fits
  obtain ⟨b, f, short', rfl⟩ := other
  rcases Nat.le_total e f with finer | coarser
  · obtain ⟨g, rfl⟩ := Nat.exists_eq_add_of_le finer
    refine ⟨a % (b * 2 ^ g), e, lt_of_le_of_lt (Nat.mod_le _ _) short, ?_⟩
    rw [← Nat.mul_mod_mul_right, pow_add]
    ring_nf
  · obtain ⟨g, rfl⟩ := Nat.exists_eq_add_of_le coarser
    rcases Nat.eq_zero_or_pos b with rfl | some
    · exact ⟨a, f + g, short, by simp⟩
    · refine ⟨a * 2 ^ g % b, f, (Nat.mod_lt _ some).trans short', ?_⟩
      rw [← Nat.mul_mod_mul_right, pow_add]
      ring_nf

/-- The first bits are the same whatever zeros come last. -/
theorem roundBits_mul_two_pow (n k : Nat) : roundBits (n * 2 ^ k) = roundBits n * 2 ^ k := by
  rcases excess_le n with none | long
  · have fits : FitsBits n := ⟨n, 0, by simpa [none] using lt_excess n, by simp⟩
    obtain ⟨m, e, short, same⟩ := fits
    have scaled : FitsBits (n * 2 ^ k) := ⟨m, e + k, short, by rw [same]; ring⟩
    rw [scaled.roundBits_eq, FitsBits.roundBits_eq ⟨m, e, short, same⟩]
  · have more : excess (n * 2 ^ k) = excess n + k := by
      refine excess_unique ?_ (.inr ?_)
      · rw [pow_add, ← Nat.mul_assoc]
        exact Nat.mul_lt_mul_of_pos_right (lt_excess n) (Nat.two_pow_pos k)
      · rw [pow_add, ← Nat.mul_assoc]
        exact Nat.mul_le_mul_right _ long
    unfold roundBits
    rw [more, pow_add, roundHalfEven_mul_right (Nat.two_pow_pos k), Nat.mul_assoc]

/-- Only zero is rounded to zero. -/
theorem roundBits_pos (some : 0 < n) : 0 < roundBits n := by
  have least : 1 ≤ roundHalfEven n (2 ^ excess n) := by
    refine le_roundHalfEven (Nat.two_pow_pos _) ?_
    rcases excess_le n with none | long
    · rw [none]
      omega
    · omega
  exact Nat.mul_pos least (Nat.two_pow_pos _)

/-- Rounding does not leave the range that a power of two bounds. -/
theorem roundBits_le (small : n < 2 ^ k) : roundBits n ≤ 2 ^ k := by
  rcases excess_le n with none | long
  · have fits : FitsBits n := ⟨n, 0, by simpa [none] using lt_excess n, by simp⟩
    rw [fits.roundBits_eq]
    exact small.le
  · have less : 52 + excess n < k := by
      rw [← pow_add] at long
      exact (Nat.pow_lt_pow_iff_right (by decide)).mp (lt_of_le_of_lt long small)
    have whole : 2 ^ (k - excess n) * 2 ^ excess n = 2 ^ k := by
      rw [← pow_add]
      congr 1
      omega
    rw [roundBits, ← whole]
    exact Nat.mul_le_mul_right _ (roundHalfEven_le (Nat.two_pow_pos _) (by rw [whole]; exact small.le))

namespace Double

/-- The magnitude nearest to a whole number of units is the first bits of that number. -/
theorem nearestCode_whole (n : Nat) :
    nearestCode n 1 = excess n * 2 ^ 52 + roundHalfEven n (2 ^ excess n) := by
  have below : n < 2 ^ (53 + excess n) * 1 := by
    rw [pow_add, Nat.mul_one]
    exact lt_excess n
  have least : excess n = 0 ∨ 2 ^ (52 + excess n) * 1 ≤ n := by
    rw [pow_add, Nat.mul_one]
    exact excess_le n
  rw [nearestCode_grid below least Nat.one_pos, Nat.one_mul]

theorem unitsOfCode_nearestCode (n : Nat) : unitsOfCode (nearestCode n 1) = roundBits n := by
  rw [nearestCode_whole, roundBits]
  refine unitsOfCode_grid ⟨?_, ?_⟩
  · exact roundHalfEven_le (Nat.two_pow_pos _) (by have := lt_excess n; omega)
  · exact (excess_le n).imp_right fun long => le_roundHalfEven (Nat.two_pow_pos _) long

/-- What lies below two to the power 1023 is in the range of doubles. -/
theorem nearestCode_lt (small : n < 2 ^ 1023 * unitsPerOne) : nearestCode n 1 < 2047 * Nat.pow 2 52 := by
  obtain ⟨e, same, exponent⟩ := unitsPerOne_eq
  have few : excess n ≤ 2044 := by
    rcases Nat.eq_zero_or_pos n with rfl | some
    · simp [excess]
    · rw [same, ← pow_add] at small
      have := (Nat.log2_lt some.ne').mpr small
      unfold excess
      omega
  have rounded : roundHalfEven n (2 ^ excess n) ≤ 2 ^ 53 :=
    roundHalfEven_le (Nat.two_pow_pos _) (lt_excess n).le
  rw [nearestCode_whole, Nat.pow_eq]
  omega

end Double

/-! ### Integers in doubles -/

/-- What a double holds of an integer: its first 53 bits, and its sign. -/
def held (n : ℤ) : ℤ := n.sign * roundBits n.natAbs

variable {a b : ℤ}

theorem held_eq (fits : FitsBits a.natAbs) : held a = a := by
  rw [held, fits.roundBits_eq, Int.sign_mul_natAbs]

theorem natAbs_held (a : ℤ) : (held a).natAbs = roundBits a.natAbs := by
  rcases eq_or_ne a 0 with rfl | some
  · rfl
  · rw [held, Int.natAbs_mul, Int.natAbs_natCast, Int.natAbs_sign_of_ne_zero some, Nat.one_mul]

theorem sign_held (a : ℤ) : (held a).sign = a.sign := by
  rcases eq_or_ne a 0 with rfl | some
  · rfl
  · have positive : (0 : ℤ) < roundBits a.natAbs := by exact_mod_cast roundBits_pos (Int.natAbs_pos.mpr some)
    rw [held, Int.sign_mul, Int.sign_sign, Int.sign_eq_one_of_pos positive, mul_one]

namespace Double

/-- The double nearest to an integer in range. -/
theorem ofInt?_eq (small : a.natAbs < 2 ^ 1023) : ∃ code inRange,
    ofInt? a = some (.finite (decide (a < 0)) code inRange) ∧ unitsOfCode code = (held a).natAbs * unitsPerOne := by
  have scaled : (a * unitsPerOne).natAbs = a.natAbs * unitsPerOne := by
    rw [Int.natAbs_mul, Int.natAbs_natCast]
  have negative : a * unitsPerOne < 0 ↔ a < 0 := by
    have positive : (0 : ℤ) < unitsPerOne := by exact_mod_cast unitsPerOne_pos
    constructor
    · intro below
      by_contra least
      exact absurd below (not_lt.mpr (mul_nonneg (not_lt.mp least) positive.le))
    · exact fun below => mul_neg_of_neg_of_pos below positive
  have inRange : nearestCode (a.natAbs * unitsPerOne) 1 < 2047 * Nat.pow 2 52 :=
    nearestCode_lt (Nat.mul_lt_mul_of_pos_right small unitsPerOne_pos)
  have near : ofUnits (a * unitsPerOne) = .finite (decide (a < 0)) _ inRange := by
    rw [ofUnits, scaled, ofCode_finite inRange, decide_eq_decide.mpr negative]
  refine ⟨nearestCode (a.natAbs * unitsPerOne) 1, inRange, ?_, ?_⟩
  · rw [ofInt?, near, finite?]
  · obtain ⟨e, same, -⟩ := unitsPerOne_eq
    rw [unitsOfCode_nearestCode, same, roundBits_mul_two_pow, natAbs_held]

variable {p q c d : ℕ} {s t : Bool} {inRange : c < 2047 * Nat.pow 2 52} {inRange' : d < 2047 * Nat.pow 2 52}

theorem truncate?_finite (units : unitsOfCode c = p * unitsPerOne) :
    truncate? (.finite s c inRange) = some (if s then -(p : ℤ) else p) := by
  have one : (unitsPerOne : ℤ) ≠ 0 := Int.natCast_ne_zero.mpr unitsPerOne_pos.ne'
  simp only [truncate?, units?, units, Option.map_some, Nat.cast_mul]
  cases s with
  | false => simp only [Bool.false_eq_true, if_false, Int.mul_tdiv_cancel _ one]
  | true => simp only [if_true, Int.neg_tdiv, Int.mul_tdiv_cancel _ one]

/-- The remainder of two doubles that hold integers is exact. -/
theorem truncate?_rem (left : unitsOfCode c = p * unitsPerOne) (right : unitsOfCode d = q * unitsPerOne)
    (divides : 0 < q) (fits : FitsBits p) (fits' : FitsBits q) (small : q ≤ 2 ^ 1023) :
    (rem (.finite s c inRange) (.finite t d inRange')).truncate? =
      some (if s then -((p % q : ℕ) : ℤ) else (p % q : ℕ)) := by
  have some : d ≠ 0 := by
    rintro rfl
    have none : 0 = q * unitsPerOne := right
    exact absurd none.symm (Nat.mul_ne_zero divides.ne' unitsPerOne_pos.ne')
  have left_over : unitsOfCode c % unitsOfCode d = p % q * unitsPerOne := by
    rw [left, right, Nat.mul_mod_mul_right]
  have range : nearestCode (p % q * unitsPerOne) 1 < 2047 * Nat.pow 2 52 :=
    nearestCode_lt (Nat.mul_lt_mul_of_pos_right (lt_of_lt_of_le (Nat.mod_lt p divides) small) unitsPerOne_pos)
  have exact : unitsOfCode (nearestCode (p % q * unitsPerOne) 1) = p % q * unitsPerOne := by
    obtain ⟨e, same, -⟩ := unitsPerOne_eq
    rw [unitsOfCode_nearestCode, same, roundBits_mul_two_pow, (fits.mod fits').roundBits_eq]
  rw [rem, if_neg some, left_over, ofCode_finite range, truncate?_finite exact]

end Double

/-- A remainder toward zero, from magnitudes. -/
theorem tmod_eq_natAbs (a b : ℤ) :
    a.tmod b = if a < 0 then -((a.natAbs % b.natAbs : ℕ) : ℤ) else (a.natAbs % b.natAbs : ℕ) := by
  have divisor : a.tmod b = a.tmod b.natAbs := by
    rcases Int.natAbs_eq b with same | same
    · rw [← same]
    · conv_lhs => rw [same, Int.tmod_neg]
  rw [divisor]
  split
  · rename_i negative
    conv_lhs => rw [show a = -a.natAbs by omega, Int.neg_tmod]
    rw [Int.tmod_eq_emod_of_nonneg (Int.natCast_nonneg _), Int.natCast_mod]
  · rename_i least
    conv_lhs => rw [show a = a.natAbs by omega]
    rw [Int.tmod_eq_emod_of_nonneg (Int.natCast_nonneg _), Int.natCast_mod]

/-- What is no container is not too deep to be shown. -/
theorem Value.literal_int (a : ℤ) : (Value.int a).literal = integerText a := by
  have leaf : (Value.int a).within textLevels .showing = .ok () := rfl
  rw [literal, leaf, spelling]
  generalize integerText a = text
  rfl

theorem Value.numberText_int (short : a.natAbs < digitBound) : numberText (.int a) = .ok (toString a) :=
  (literal_int a).trans (integerText_short short)

/-- What has fewer bits than the digits that an integer may have can be written. -/
theorem lt_digitBound (few : k < Fault.digitLimitValue) (small : n ≤ 2 ^ k) : n < digitBound := by
  obtain ⟨l, same, limit⟩ := Json.digitBound_eq
  rw [same, limit]
  calc n ≤ 2 ^ k := small
    _ ≤ 10 ^ k := Nat.pow_le_pow_left (by decide) k
    _ < 10 ^ Fault.digitLimitValue := Nat.pow_lt_pow_right (by decide) few

namespace Plan

theorem steps_number (name : String) (default : ℤ) (f : Number → Plan Unit) (sight : Sight) :
    (number name default >>= f).steps sight =
      (f ((Entries.field sight.context.inputs name).toNumber (.int default))).steps sight := rfl

end Plan

namespace Standard

theorem calculate_steps {port opening symbol left right result : String} {x y r : Number}
    (first : Value.numberText x = .ok left) (second : Value.numberText y = .ok right)
    (third : Value.numberText r = .ok result) (sight : Sight) :
    (calculate port opening symbol x y (.ok r)).steps sight =
      [.store (.text "result") (.ofNumber r),
        .log (.text (opening ++ left ++ " " ++ symbol ++ " " ++ right ++ " = " ++ result)),
        .emit (.text port) (.ofNumber r)] := by
  simp only [calculate, Plan.numberText, Plan.of, pure_bind, first, second, third]
  rfl

/-- The remainder of two integers is that of what doubles hold of them. -/
theorem remainder_int (small : a.natAbs < 2 ^ 1023) (small' : b.natAbs < 2 ^ 1023) (divides : b ≠ 0) :
    remainder (.int a) (.int b) = .ok (.int ((held a).tmod (held b))) := by
  obtain ⟨c, inRange, left, units⟩ := Double.ofInt?_eq small
  obtain ⟨d, inRange', right, units'⟩ := Double.ofInt?_eq small'
  have first : Number.toDouble (.int a) = .ok (.finite (decide (a < 0)) c inRange) := by
    rw [Number.toDouble, left, Option.elim_some]
  have second : Number.toDouble (.int b) = .ok (.finite (decide (b < 0)) d inRange') := by
    rw [Number.toDouble, right, Option.elim_some]
  rw [natAbs_held] at units units'
  have whole : (Double.rem (.finite (decide (a < 0)) c inRange) (.finite (decide (b < 0)) d inRange')).truncate? = _ :=
    Double.truncate?_rem units units' (roundBits_pos (Int.natAbs_pos.mpr divides)) (fits_roundBits _)
      (fits_roundBits _) (roundBits_le small')
  have sign : a < 0 ↔ held a < 0 := by rw [← Int.sign_eq_neg_one_iff_neg, ← sign_held, Int.sign_eq_neg_one_iff_neg]
  unfold remainder
  rw [first, second]
  show Except.ok (Number.int _) = _
  rw [whole, Option.getD_some, tmod_eq_natAbs, natAbs_held, natAbs_held]
  simp only [decide_eq_true_eq, sign]

/-- What the block for remainders does with two integers. -/
theorem modulo_steps (sight : Sight)
    (dividend : (Entries.field sight.context.inputs "a").toNumber (.int 10) = .int a)
    (divisor : (Entries.field sight.context.inputs "b").toNumber (.int 3) = .int b) (divides : b ≠ 0)
    (small : a.natAbs < 2 ^ 1023) (small' : b.natAbs < 2 ^ 1023) :
    ∃ line, modulo.plan.steps sight = [.store (.text "result") (.int ((held a).tmod (held b))), .log (.text line),
      .emit (.text "remainder") (.int ((held a).tmod (held b)))] := by
  have left := Value.numberText_int (lt_digitBound (by decide) small.le)
  have right := Value.numberText_int (lt_digitBound (by decide) small'.le)
  have rest : ((held a).tmod (held b)).natAbs ≤ 2 ^ 1023 := by
    rw [Int.natAbs_tmod, natAbs_held, natAbs_held]
    exact (Nat.mod_le _ _).trans (roundBits_le small)
  have written := Value.numberText_int (lt_digitBound (by decide) rest)
  have some : Number.isZero (.int b) = false := by simpa [Number.isZero] using divides
  have same : modulo.plan.steps sight = (calculate "remainder" "" "%" (.int a) (.int b)
      (.ok (.int ((held a).tmod (held b))))).steps sight := by
    simp only [modulo, Plan.steps_number, dividend, divisor, some, Bool.false_eq_true, if_false,
      remainder_int small small' divides]
  exact ⟨_, same.trans (calculate_steps left right written sight)⟩

/-- What the block for remainders hands over for two integers. -/
theorem modulo_pauses {c : Context} (dividend : (Entries.field c.inputs "a").toNumber (.int 10) = .int a)
    (divisor : (Entries.field c.inputs "b").toNumber (.int 3) = .int b) (divides : b ≠ 0)
    (small : a.natAbs < 2 ^ 1023) (small' : b.natAbs < 2 ^ 1023) (sessions : ℕ → Session) :
    (modulo.invoked c).pause sessions 0 =
        .item (Emission.toItem ⟨"remainder", .int ((held a).tmod (held b))⟩) ∧
      (modulo.invoked c).pause sessions 1 = .ended .normal := by
  obtain ⟨line, steps⟩ := modulo_steps (StandardBlock.sight c (sessions 0)) dividend divisor divides small small'
  have resumed : (modulo.invoked c).resume (sessions 0) = (modulo.invoked c).put
      (Cursor.resume c (Process.start c modulo.logic (sessions 0)) (sessions 0)) := rfl
  rw [StandardBlock.start_invoked, steps] at resumed
  obtain ⟨s, first⟩ : ∃ s, (modulo.invoked c).resume (sessions 0) =
      (.item (Emission.toItem ⟨"remainder", .int ((held a).tmod (held b))⟩), ⟨c, .resting ⟨[], [], none⟩⟩, s) :=
    ⟨_, resumed⟩
  constructor
  · rw [Process.pause, Process.after, first]
  · rw [Process.pause, Process.after, Process.after, first]
    rfl

/-- For two integers in the range of doubles, the block for remainders emits the remainder of what doubles hold of
them, which takes the sign of the dividend, and ends. It is the exact remainder when doubles hold both. -/
theorem modulo_emits {c : Context} {a b : ℤ} (dividend : (Entries.field c.inputs "a").toNumber (.int 10) = .int a)
    (divisor : (Entries.field c.inputs "b").toNumber (.int 3) = .int b) (divides : b ≠ 0)
    (small : a.natAbs < 2 ^ 1023) (small' : b.natAbs < 2 ^ 1023) : ∃ r : ℤ,
    (∀ sessions, (modulo.invoked c).pause sessions 0 = .item (Emission.toItem ⟨"remainder", .int r⟩) ∧
      (modulo.invoked c).pause sessions 1 = .ended .normal) ∧
    r = held a - held b * (held a).tdiv (held b) ∧ r.natAbs < (held b).natAbs ∧ (r = 0 ∨ r.sign = a.sign) ∧
    (FitsBits a.natAbs → FitsBits b.natAbs → r = a - b * a.tdiv b) := by
  refine ⟨(held a).tmod (held b), modulo_pauses dividend divisor divides small small', Int.tmod_def _ _, ?_, ?_, ?_⟩
  · rw [Int.natAbs_tmod, natAbs_held b]
    exact Nat.mod_lt _ (roundBits_pos (Int.natAbs_pos.mpr divides))
  · by_cases whole : held b ∣ held a
    · exact .inl (Int.tmod_eq_zero_of_dvd whole)
    · rw [Int.sign_tmod, if_neg whole, sign_held]
      exact .inr rfl
  · intro fits fits'
    rw [held_eq fits, held_eq fits', Int.tmod_def]

/-- An element that is given two integers. -/
def operands (a b : ℤ) : Context := ⟨"A", "modulo", [(.text "a", .int a), (.text "b", .int b)], [], [], 0⟩

theorem modulo_emits_negative : ∃ r : ℤ,
    (∀ sessions, (modulo.invoked (operands (-7) 3)).pause sessions 0 =
        .item (Emission.toItem ⟨"remainder", .int r⟩) ∧
      (modulo.invoked (operands (-7) 3)).pause sessions 1 = .ended .normal) ∧
    r = held (-7) - held 3 * (held (-7)).tdiv (held 3) ∧ r.natAbs < (held 3).natAbs ∧
    (r = 0 ∨ r.sign = (-7 : ℤ).sign) ∧
    (FitsBits (-7 : ℤ).natAbs → FitsBits (3 : ℤ).natAbs → r = -7 - 3 * (-7 : ℤ).tdiv 3) :=
  modulo_emits rfl rfl (by decide) (by decide +kernel) (by decide +kernel)

/-- Of a dividend with one bit more than a double holds, the last one is lost. -/
theorem modulo_inexact :
    (∀ sessions, (modulo.invoked (operands 9007199254740993 2)).pause sessions 0 =
      .item (Emission.toItem ⟨"remainder", .int 0⟩)) ∧
    (9007199254740993 : ℤ) - 2 * (9007199254740993 : ℤ).tdiv 2 = 1 := by
  have lost : (held 9007199254740993).tmod (held 2) = 0 := by decide +kernel
  refine ⟨fun sessions => ?_, by decide⟩
  have pauses := modulo_pauses (c := operands 9007199254740993 2) (a := 9007199254740993) (b := 2) rfl rfl (by decide)
    (by decide +kernel) (by decide +kernel) sessions
  rw [lost] at pauses
  exact pauses.1

end Standard

end BlockGraph
