import BlockGraph.Proofs.Equalities
import BlockGraph.Proofs.Remainders
/-!
Numbers are read back from their texts. An integer is shown by its decimal digits and an integral double by those of
the integer it is, so that both are read as integers, whatever blanks stand around the digits. Such a number and its
text are therefore loosely equal.
-/
namespace BlockGraph

/-! ### Trimming -/

namespace Text

variable {before cs after : List Char} {p : Char → Bool}

theorem dropWhile_margin (margin : ∀ c ∈ before, p c = true) (solid : ∀ c ∈ cs, p c = false) (some : cs ≠ []) :
    (before ++ (cs ++ after)).dropWhile p = cs ++ after := by
  obtain ⟨c, rest, rfl⟩ := List.exists_cons_of_ne_nil some
  have first : ¬p c = true := Bool.not_eq_true _ ▸ solid c List.mem_cons_self
  rw [List.dropWhile_append_of_pos margin, List.cons_append, List.dropWhile_cons_of_neg first]

/-- What stands around characters is taken off at both ends, and none of them. -/
theorem dropWhile_frame (margin : ∀ c ∈ before, p c = true) (margin' : ∀ c ∈ after, p c = true)
    (solid : ∀ c ∈ cs, p c = false) (some : cs ≠ []) :
    (((before ++ (cs ++ after)).dropWhile p).reverse.dropWhile p).reverse = cs := by
  have back : (after.reverse ++ (cs.reverse ++ [])).dropWhile p = cs.reverse ++ [] :=
    dropWhile_margin (fun c member => margin' c (List.mem_reverse.mp member))
      (fun c member => solid c (List.mem_reverse.mp member)) (List.reverse_ne_nil_iff.mpr some)
  rw [List.append_nil] at back
  rw [dropWhile_margin margin solid some, List.reverse_append, back, List.reverse_reverse]

theorem trim_frame {first s last : String} (margin : isBlankText first = true) (margin' : isBlankText last = true)
    (solid : ∀ c ∈ s.toList, isBlank c = false) (some : s.toList ≠ []) : trim (first ++ s ++ last) = s := by
  have chars : trimChars (first.toList ++ (s.toList ++ last.toList)) = s.toList :=
    dropWhile_frame (List.all_eq_true.mp margin) (List.all_eq_true.mp margin') solid some
  rw [trim, String.toList_append, String.toList_append, List.append_assoc, chars, String.ofList_toList]

end Text

/-! ### Integers -/

namespace Number

open Json (signed)

variable {cs ds : List Char} {c : Char} {n : ℤ}

/-- A character that an integer is written with: a digit, or the sign. -/
def IsIntegerChar (c : Char) : Prop := c.isDigit = true ∨ c = '-'

theorem IsIntegerChar.spec (h : IsIntegerChar c) : c.toNat < 0x80 ∧ Text.isBlank c = false ∧ c ≠ '_' := by
  rcases h with digit | rfl
  · obtain ⟨low, high⟩ : 48 ≤ c.toNat ∧ c.toNat ≤ 57 := Char.isDigit_iff_toNat.mp digit
    refine ⟨by omega, ?_, ?_⟩
    · simp [Text.isBlank]
      omega
    · rintro rfl
      exact absurd high (by decide)
  · exact ⟨by decide, by decide, by decide⟩

theorem signed_chars (digits : ∀ c ∈ ds, c.isDigit = true) (negative : Bool) :
    ∀ c ∈ signed negative ds, IsIntegerChar c := by
  intro c member
  rcases List.mem_append.mp member with sign | digit
  · split at sign
    · exact .inr (List.mem_singleton.mp sign)
    · cases sign
  · exact .inl (digits c digit)

theorem signed_ne_nil (some : ds ≠ []) (negative : Bool) : signed negative ds ≠ [] :=
  List.append_ne_nil_of_right_ne_nil _ some

theorem underscoresBetweenDigits_none (none : ∀ c ∈ cs, c ≠ '_') (afterDigit : Bool) :
    underscoresBetweenDigits afterDigit cs = true := by
  induction cs generalizing afterDigit with
  | nil => rfl
  | cons c rest ih =>
      obtain ⟨first, others⟩ := List.forall_mem_cons.mp none
      rw [underscoresBetweenDigits]
      · exact ih others c.isDigit
      · exact fun same => first same

/-- The characters of an integer are taken as they are. -/
theorem plainChars?_integer (chars : ∀ c ∈ cs, IsIntegerChar c) (some : cs ≠ []) :
    plainChars? (String.ofList cs) = .some cs := by
  have frame (ascii : Bool) : ((cs.dropWhile (isMargin ascii)).reverse.dropWhile (isMargin ascii)).reverse = cs := by
    have solid : ∀ c ∈ cs, isMargin ascii c = false := fun c member => by
      rw [isMargin, (chars c member).spec.2.1, Bool.false_and]
    have same : ((([] ++ (cs ++ [])).dropWhile (isMargin ascii)).reverse.dropWhile (isMargin ascii)).reverse = cs :=
      Text.dropWhile_frame nofun nofun solid some
    rwa [List.nil_append, List.append_nil] at same
  have plain : cs.map plainDigit = cs := by
    refine (List.map_congr_left fun c member => ?_).trans (List.map_id cs)
    rw [plainDigit, if_pos (chars c member).spec.1, id]
  have kept : cs.filter (· != '_') = cs := List.filter_eq_self.mpr fun c member => by
    rw [bne_iff_ne]
    exact (chars c member).spec.2.2
  have placed := underscoresBetweenDigits_none (fun c member => (chars c member).spec.2.2) false
  simp only [plainChars?, String.toList_ofList, frame, plain, placed, kept, if_true]

theorem splitSign_signed (digits : ∀ c ∈ ds, c.isDigit = true) (negative : Bool) :
    splitSign (signed negative ds) = (negative, ds) := by
  cases negative with
  | true => rfl
  | false =>
      rw [signed, if_neg Bool.false_ne_true, List.nil_append, splitSign]
      · rintro rest rfl
        exact absurd (digits '-' List.mem_cons_self) (by decide)
      · rintro rest rfl
        exact absurd (digits '+' List.mem_cons_self) (by decide)

/-- The text of an integer is read as this integer, with as many digits as it has. -/
theorem integerText?_toString (n : ℤ) :
    integerText? (toString n) = some ⟨n, (Nat.toDigits 10 n.natAbs).length⟩ := by
  have digits : ∀ c ∈ Nat.toDigits 10 n.natAbs, c.isDigit = true :=
    fun c => Nat.isDigit_of_mem_toDigits (by decide) (by decide)
  have filled : (Nat.toDigits 10 n.natAbs).isEmpty = false := List.isEmpty_eq_false_iff.mpr Nat.toDigits_ne_nil
  have all : (Nat.toDigits 10 n.natAbs).all Char.isDigit = true := List.all_eq_true.mpr digits
  have chars := plainChars?_integer (signed_chars digits (decide (n < 0))) (signed_ne_nil Nat.toDigits_ne_nil _)
  have value : (if decide (n < 0) then -(n.natAbs : ℤ) else n.natAbs) = n := by
    split <;> rename_i sign
    · have := of_decide_eq_true sign
      omega
    · have := of_decide_eq_false (Bool.eq_false_of_not_eq_true sign)
      omega
  rw [← String.ofList_toList (s := toString n), Json.toString_int, integerText?, chars]
  simp only [Option.bind_eq_bind, Option.bind_some, splitSign_signed digits, filled, all, Numeral.digitsValue_eq,
    Nat.ofDigitChars_ten_toDigits, value]
  rfl

end Number

/-! ### Integral doubles -/

/-- An integral double is a whole number of ones, and this number has few digits. -/
theorem Double.isIntegral_spec {x : Double} (whole : x.isIntegral = true) :
    ∃ n : ℤ, x.truncate? = some n ∧ x.units? = some (n * unitsPerOne) ∧ n.natAbs < digitBound := by
  cases x with
  | nan | infinite => cases whole
  | finite negative code finite =>
      simp only [isIntegral, truncate?, units?, Option.map_some, beq_iff_eq] at whole ⊢
      obtain ⟨n, units⟩ := Int.dvd_of_emod_eq_zero whole
      have one : (unitsPerOne : ℤ) ≠ 0 := Int.natCast_ne_zero.mpr unitsPerOne_pos.ne'
      refine ⟨n, ?_, ?_, ?_⟩
      · rw [units, Int.mul_tdiv_cancel_left _ one]
      · rw [units, Int.mul_comm]
      · have inRange : code < codeLimit := finite
        obtain ⟨e, few, less⟩ := unitsOfCode_lt inRange
        have magnitude : unitsPerOne * n.natAbs = unitsOfCode code := by
          have same := congrArg Int.natAbs units
          rw [Int.natAbs_mul, Int.natAbs_natCast] at same
          rw [← same]
          split
          · rw [Int.natAbs_neg, Int.natAbs_natCast]
          · rw [Int.natAbs_natCast]
        refine lt_digitBound (k := e) (few.trans_lt (by decide)) ?_
        calc n.natAbs ≤ unitsPerOne * n.natAbs := Nat.le_mul_of_pos_left _ unitsPerOne_pos
          _ = unitsOfCode code := magnitude
          _ ≤ 2 ^ e := less.le

/-! ### Texts read as numbers -/

namespace Value

variable {n : ℤ} {x : Double} {v : Value} {before after : String}

theorem numberOfText_frame (short : n.natAbs < digitBound) (margin : Text.isBlankText before = true)
    (margin' : Text.isBlankText after = true) : numberOfText (before ++ toString n ++ after) = .int n := by
  have digits : ∀ c ∈ Nat.toDigits 10 n.natAbs, c.isDigit = true :=
    fun c => Nat.isDigit_of_mem_toDigits (by decide) (by decide)
  have some : (toString n).toList ≠ [] := by
    rw [Json.toString_int]
    exact Number.signed_ne_nil Nat.toDigits_ne_nil _
  have filled : (toString n).isEmpty = false := by
    rw [Bool.eq_false_iff, ne_eq, String.isEmpty_iff]
    rintro empty
    rw [empty] at some
    exact some rfl
  have solid : ∀ c ∈ (toString n).toList, Text.isBlank c = false := by
    rw [Json.toString_int]
    exact fun c member => (Number.signed_chars digits _ c member).spec.2.1
  obtain ⟨k, bound, limit⟩ := Json.digitBound_eq
  have few : (Nat.toDigits 10 n.natAbs).length ≤ Fault.digitLimitValue := by
    rw [bound] at short
    exact limit ▸ (Nat.length_toDigits_le_iff (by decide) (by rw [limit]; decide)).mpr short
  simp only [numberOfText, Text.trim_frame margin margin' solid some, filled, Number.integerText?_toString, few,
    if_true, Bool.false_eq_true, if_false]

/-- What is shown as an integer, and is worth this integer, is loosely equal to its text on either side. -/
theorem looseEq_frame (number : v.isNumber = true) (worth : v.sameNumber (.int n) = true)
    (short : n.natAbs < digitBound)
    (margin : Text.isBlankText before = true) (margin' : Text.isBlankText after = true) :
    v.looseEq (.text (before ++ toString n ++ after)) = true ∧
      looseEq (.text (before ++ toString n ++ after)) v = true := by
  have read := numberOfText_frame short margin margin'
  have worth' := sameNumber_symm v (.int n) ▸ worth
  generalize before ++ toString n ++ after = s at read
  cases v with
  | int m | float x => simp [looseEq, isNumber, read, ofNumber, worth, worth']
  | _ => cases number

theorem toText_integral (whole : x.isIntegral = true) (integer : x.truncate? = some n) :
    toText (.float x) = .ok (toString n) := by
  cases x with
  | nan | infinite => cases whole
  | finite negative code finite =>
      have text : doubleText (.finite negative code finite) = toString n := by
        rw [doubleText, if_pos whole, integer, Option.getD_some]
      rw [← text]
      rfl

theorem eq_integral (units : x.units? = some (n * Double.unitsPerOne)) : Number.eq (.int n) (.float x) = true := by
  refine Number.eq_iff.mpr ⟨_, rfl, ?_⟩
  cases x with
  | nan | infinite => cases units
  | finite negative code finite => simp only [Number.worth?, units, Option.map_some]

/-- An integer of at most 4300 digits, and an integral double, is read back from its text, also with blanks around the
text, and is loosely equal to it on either side. -/
theorem toNumber_toText (default : Number) (before after : String) (margin : Text.isBlankText before = true)
    (margin' : Text.isBlankText after = true) :
    (∀ n : ℤ, (Nat.digits 10 n.natAbs).length ≤ 4300 → ∃ s, toText (.int n) = .ok s ∧
      toNumber (.text (before ++ s ++ after)) default = .int n ∧
      looseEq (.int n) (.text (before ++ s ++ after)) = true ∧ looseEq (.text (before ++ s ++ after)) (.int n) = true) ∧
    ∀ x : Double, x.isIntegral = true → ∃ s, toText (.float x) = .ok s ∧
      Number.eq (toNumber (.text (before ++ s ++ after)) default) (.float x) = true ∧
      looseEq (.float x) (.text (before ++ s ++ after)) = true ∧
      looseEq (.text (before ++ s ++ after)) (.float x) = true := by
  constructor
  · intro n few
    have short : n.natAbs < digitBound := by
      obtain ⟨k, bound, limit⟩ := Json.digitBound_eq
      have range : (Nat.digits 10 n.natAbs).length ≤ k := limit ▸ few
      rw [bound]
      exact (Nat.lt_base_pow_length_digits (by decide)).trans_le (Nat.pow_le_pow_right (by decide) range)
    have worth : sameNumber (.int n) (.int n) = true := Number.eq_iff.mpr ⟨_, rfl, rfl⟩
    refine ⟨_, numberText_int short, ?_, looseEq_frame rfl worth short margin margin'⟩
    rw [toNumber, numberOfText_frame short margin margin']
  · intro x whole
    obtain ⟨n, integer, units, short⟩ := Double.isIntegral_spec whole
    have worth : Number.eq (.int n) (.float x) = true := eq_integral units
    have worth' : sameNumber (.float x) (.int n) = true := (Number.eq_symm _ _).trans worth
    refine ⟨_, toText_integral whole integer, ?_, looseEq_frame rfl worth' short margin margin'⟩
    rw [toNumber, numberOfText_frame short margin margin', worth]

/-- Minus two to the power 70. -/
def largePower : Double := .ofCode true (1093 * 2 ^ 52)

theorem toNumber_toText_large :
    (∃ s, toText (.int (-120)) = .ok s ∧ toNumber (.text (" \t" ++ s ++ "\n")) (.int 7) = .int (-120) ∧
      looseEq (.int (-120)) (.text (" \t" ++ s ++ "\n")) = true ∧
      looseEq (.text (" \t" ++ s ++ "\n")) (.int (-120)) = true) ∧
    ∃ s, toText (.float largePower) = .ok s ∧
      Number.eq (toNumber (.text (" \t" ++ s ++ "\n")) (.int 7)) (.float largePower) = true ∧
      looseEq (.float largePower) (.text (" \t" ++ s ++ "\n")) = true ∧
      looseEq (.text (" \t" ++ s ++ "\n")) (.float largePower) = true := by
  obtain ⟨integers, doubles⟩ := toNumber_toText (.int 7) " \t" "\n" (by decide) (by decide)
  exact ⟨integers (-120) (by simp), doubles largePower (by decide +kernel)⟩

end Value

end BlockGraph
