import BlockGraph.Json.Reader
import BlockGraph.Json.Writer
import BlockGraph.Proofs.Digits
/-!
The texts of numbers are read back: a numeral is cut at its point and at its exponent, its digits are counted
together, and the double nearest to what it stands for is the one it was written for.
-/
namespace BlockGraph

/-- A number as it is written in a document, without its sign. -/
structure Numeral where
  whole : List Char
  fraction : List Char
  power? : Option Int

namespace Numeral

variable {n : Numeral} {rest cs ds : List Char}

/-- A fraction is written with its point, an empty one not at all. -/
def fractionText : List Char → List Char
  | [] => []
  | cs => '.' :: cs

theorem fractionText_eq {cs : List Char} (some : cs ≠ []) : fractionText cs = '.' :: cs := by
  cases cs with
  | nil => exact absurd rfl some
  | cons c cs => rfl

def powerText (power? : Option Int) : List Char := power?.elim [] fun e => (DecimalLayout.exponentText e).toList

def text (n : Numeral) : List Char := n.whole ++ (fractionText n.fraction ++ powerText n.power?)

/-- What the digits of a numeral spell without its point, and the power of ten they are multiplied with. -/
def mantissa (n : Numeral) : Nat := Nat.ofDigitChars 10 (n.whole ++ n.fraction) 0

def exponent (n : Numeral) : Int := n.power?.getD 0 - n.fraction.length

/-- A numeral that can be read: it consists of digits, and starts with a zero only when that is its whole part. -/
structure Proper (n : Numeral) : Prop where
  digits : ∀ c ∈ n.whole ++ n.fraction, c.isDigit = true
  leads : n.whole = ['0'] ∨ ∃ c, n.whole.head? = some c ∧ c ≠ '0'

/-- What may stand behind a number does not go on with it. -/
def Stops (rest : List Char) : Prop := ∀ c, rest.head? = some c → c.isDigit = false ∧ c ≠ '.' ∧ c ≠ 'e' ∧ c ≠ 'E'

theorem digitsValue_eq (cs : List Char) : Number.digitsValue cs = Nat.ofDigitChars 10 cs 0 :=
  Nat.ofDigitChars_eq_foldl.symm

theorem takeWhile_digits (digits : ∀ c ∈ ds, c.isDigit = true) (ends : ∀ c, rest.head? = some c → c.isDigit = false) :
    (ds ++ rest).takeWhile Char.isDigit = ds ∧ (ds ++ rest).dropWhile Char.isDigit = rest := by
  induction ds with
  | nil =>
      rcases rest with _ | ⟨c, rest⟩
      · exact ⟨rfl, rfl⟩
      · simp [ends c rfl]
  | cons d ds ih =>
      obtain ⟨first, others⟩ := List.forall_mem_cons.mp digits
      obtain ⟨takes, drops⟩ := ih others
      simp [first, takes, drops]

/-! ### The parts of a numeral -/

theorem splitWhole_append (digits : ∀ c ∈ ds, c.isDigit = true)
    (leads : ds = ['0'] ∨ ∃ c, ds.head? = some c ∧ c ≠ '0')
    (ends : ∀ c, rest.head? = some c → c.isDigit = false) : Json.splitWhole (ds ++ rest) = (ds, rest) := by
  rcases leads with rfl | ⟨c, head, some⟩
  · rfl
  · obtain ⟨takes, drops⟩ := takeWhile_digits digits ends
    obtain ⟨more, rfl⟩ : ∃ more, ds = c :: more := by
      cases ds with
      | nil => cases head
      | cons d more => exact ⟨more, by rw [Option.some.inj head]⟩
    rw [Json.splitWhole, takes, drops]
    intro tail same
    exact some (List.cons.inj same).1

theorem splitFraction_append (digits : ∀ c ∈ ds, c.isDigit = true)
    (ends : ∀ c, rest.head? = some c → c.isDigit = false ∧ c ≠ '.') :
    Json.splitFraction (fractionText ds ++ rest) = (fractionText ds, rest) := by
  obtain ⟨takes, drops⟩ := takeWhile_digits digits fun c head => (ends c head).1
  rcases ds with _ | ⟨d, ds⟩
  · rw [fractionText, List.nil_append, Json.splitFraction]
    intro tail same
    exact (ends '.' (by rw [same]; rfl)).2 rfl
  · simp only [fractionText, List.cons_append] at takes drops ⊢
    simp [Json.splitFraction, takes, drops]

/-- The digits of an exponent. -/
def powerDigits (e : Int) : List Char := (if e.natAbs < 10 then ['0'] else []) ++ Nat.toDigits 10 e.natAbs

theorem exponentText_eq (e : Int) :
    (DecimalLayout.exponentText e).toList = 'e' :: (if e < 0 then '-' else '+') :: powerDigits e := by
  simp only [DecimalLayout.exponentText, powerDigits, Nat.repr_eq_ofList_toDigits]
  split <;> split <;> simp_all

theorem powerDigits_spec (e : Int) :
    (∀ c ∈ powerDigits e, c.isDigit = true) ∧ powerDigits e ≠ [] ∧
      Nat.ofDigitChars 10 (powerDigits e) 0 = e.natAbs := by
  have inner : ∀ c ∈ Nat.toDigits 10 e.natAbs, c.isDigit = true :=
    fun c => Nat.isDigit_of_mem_toDigits (by decide) (by decide)
  unfold powerDigits
  split
  · refine ⟨?_, by simp, ?_⟩
    · simpa using inner
    · simp [Nat.ofDigitChars_cons, Nat.ofDigitChars_ten_toDigits]
  · exact ⟨by simpa using inner, by simp [Nat.toDigits_ne_nil], by simp [Nat.ofDigitChars_ten_toDigits]⟩

theorem splitExponent_power (e : Int) (ends : ∀ c, rest.head? = some c → c.isDigit = false) :
    Json.splitExponent (powerText (some e) ++ rest) = (powerText (some e), rest) := by
  obtain ⟨digits, some, -⟩ := powerDigits_spec e
  obtain ⟨takes, drops⟩ := takeWhile_digits digits ends
  simp only [powerText, Option.elim_some, exponentText_eq, List.cons_append]
  split <;> simp [Json.splitExponent, takes, drops, some]

theorem splitExponent_append (power? : Option Int)
    (ends : ∀ c, rest.head? = some c → c.isDigit = false ∧ c ≠ 'e' ∧ c ≠ 'E') :
    Json.splitExponent (powerText power? ++ rest) = (powerText power?, rest) := by
  rcases power? with _ | e
  · rcases rest with _ | ⟨c, rest⟩
    · rfl
    · obtain ⟨-, small, large⟩ := ends c rfl
      simp [powerText, Json.splitExponent, small, large]
  · exact splitExponent_power e fun c head => (ends c head).1

theorem exponent?_powerText (power? : Option Int) : Number.exponent? (powerText power?) = some (power?.getD 0) := by
  rcases power? with _ | e
  · rfl
  · obtain ⟨digits, some, value⟩ := powerDigits_spec e
    have all : (powerDigits e).all Char.isDigit = true := List.all_eq_true.mpr digits
    have filled : (powerDigits e).isEmpty = false := List.isEmpty_eq_false_iff.mpr some
    simp only [powerText, Option.elim_some, exponentText_eq, Option.getD_some]
    split <;> rename_i sign
    · simp [Number.exponent?, Number.splitSign, digitsValue_eq, filled, all, value, -Nat.cast_natAbs]
      omega
    · simp [Number.exponent?, Number.splitSign, digitsValue_eq, filled, all, value, -Nat.cast_natAbs]
      omega

/-- What stands behind the digits of a numeral does not go on with them. -/
theorem powerText_stops (stops : Stops rest) :
    ∀ c, (powerText n.power? ++ rest).head? = some c → c.isDigit = false ∧ c ≠ '.' := by
  intro c head
  rcases power : n.power? with _ | e
  · rw [power] at head
    exact ⟨(stops c head).1, (stops c head).2.1⟩
  · rw [power, powerText, Option.elim_some, exponentText_eq] at head
    obtain rfl := Option.some.inj head
    decide

theorem fraction_stops (stops : Stops rest) :
    ∀ c, (fractionText n.fraction ++ (powerText n.power? ++ rest)).head? = some c → c.isDigit = false := by
  intro c head
  rcases fraction : n.fraction with _ | ⟨d, ds⟩
  · rw [fraction] at head
    exact (powerText_stops stops c head).1
  · rw [fraction] at head
    obtain rfl := Option.some.inj head
    rfl

theorem Stops.nil : Stops [] := fun c head => by cases head

theorem Proper.whole_ne_nil (proper : n.Proper) : n.whole ≠ [] := by
  rintro none
  rcases proper.leads with same | ⟨c, head, -⟩
  · rw [none] at same
    cases same
  · rw [none] at head
    cases head

theorem Proper.text_leads (proper : n.Proper) : ∃ d more, n.text = d :: more ∧ d.isDigit = true := by
  obtain ⟨d, more, same⟩ := List.exists_cons_of_ne_nil proper.whole_ne_nil
  refine ⟨d, more ++ (fractionText n.fraction ++ powerText n.power?), ?_, ?_⟩
  · rw [text, same, List.cons_append]
  · exact proper.digits d (List.mem_append_left _ (by rw [same]; exact List.mem_cons_self))

/-- A numeral read as a decimal. -/
theorem decimal?_text (proper : n.Proper) (negative : Bool) :
    Number.decimal? negative n.text = some (Number.scaledDouble negative n.mantissa n.exponent) := by
  have wholes : ∀ c ∈ n.whole, c.isDigit = true := fun c member => proper.digits c (List.mem_append_left _ member)
  have fractions : ∀ c ∈ n.fraction, c.isDigit = true :=
    fun c member => proper.digits c (List.mem_append_right _ member)
  have filled : n.whole.isEmpty = false := List.isEmpty_eq_false_iff.mpr proper.whole_ne_nil
  have behind := powerText_stops (n := n) .nil
  have ends := fraction_stops (n := n) .nil
  rw [List.append_nil] at behind ends
  obtain ⟨takes, drops⟩ := takeWhile_digits wholes ends
  obtain ⟨takes', drops'⟩ := takeWhile_digits fractions fun c head => (behind c head).1
  have read := exponent?_powerText n.power?
  simp only [Number.decimal?, text, takes, drops, filled, digitsValue_eq, mantissa, exponent]
  rcases fraction : n.fraction with _ | ⟨d, ds⟩
  · rcases power : n.power? with _ | e
    · simp [fractionText, powerText, Number.exponent?]
    · rw [power, powerText, Option.elim_some, exponentText_eq] at read
      simp [fractionText, powerText, exponentText_eq, read]
  · rw [fraction, List.cons_append] at takes' drops'
    simp [fractionText, takes', drops', read]

/-- A numeral with a point or an exponent is read as a double. -/
theorem unsignedNumber_double (proper : n.Proper) (real : n.fraction ≠ [] ∨ n.power? ≠ none) (stops : Stops rest)
    (negative : Bool) (start : Nat) : Json.unsignedNumber negative start (n.text ++ rest) =
      .ok (.float (Number.scaledDouble negative n.mantissa n.exponent), rest) := by
  have wholes : ∀ c ∈ n.whole, c.isDigit = true := fun c member => proper.digits c (List.mem_append_left _ member)
  have fractions : ∀ c ∈ n.fraction, c.isDigit = true :=
    fun c member => proper.digits c (List.mem_append_right _ member)
  have filled : n.whole.isEmpty = false := List.isEmpty_eq_false_iff.mpr proper.whole_ne_nil
  have more : ((fractionText n.fraction).isEmpty && (powerText n.power?).isEmpty) = false := by
    rcases real with some | some
    · cases fraction : n.fraction with
      | nil => exact absurd fraction some
      | cons d ds => rfl
    · cases power : n.power? with
      | none => exact absurd power some
      | some e => simp [powerText, exponentText_eq]
  have first := splitWhole_append wholes proper.leads (fraction_stops (n := n) stops)
  have second := splitFraction_append fractions (powerText_stops (n := n) stops)
  have third := splitExponent_append n.power? fun c head =>
    ⟨(stops c head).1, (stops c head).2.2⟩
  have read := decimal?_text proper negative
  rw [text] at read
  simp [Json.unsignedNumber, text, first, second, third, filled, more, read]

/-- Digits alone are read as an integer, when they are not too many. -/
theorem unsignedNumber_integer (digits : ∀ c ∈ ds, c.isDigit = true)
    (leads : ds = ['0'] ∨ ∃ c, ds.head? = some c ∧ c ≠ '0') (short : ds.length ≤ Fault.digitLimitValue)
    (stops : Stops rest) (negative : Bool) (start : Nat) : Json.unsignedNumber negative start (ds ++ rest) =
      .ok (.int (if negative then -(Nat.ofDigitChars 10 ds 0 : Int) else Nat.ofDigitChars 10 ds 0), rest) := by
  have proper : Proper ⟨ds, [], none⟩ := ⟨by simpa using digits, leads⟩
  have filled : ds.isEmpty = false := List.isEmpty_eq_false_iff.mpr proper.whole_ne_nil
  have first := splitWhole_append digits leads fun c head => (stops c head).1
  have empty : ∀ c ∈ ([] : List Char), c.isDigit = true := List.forall_mem_nil _
  have second := splitFraction_append empty fun c head => ⟨(stops c head).1, (stops c head).2.1⟩
  have third := splitExponent_append none fun c head => ⟨(stops c head).1, (stops c head).2.2⟩
  rw [fractionText, List.nil_append] at second
  rw [powerText, Option.elim_none, List.nil_append] at third
  simp [Json.unsignedNumber, first, second, third, filled, short.not_gt, digitsValue_eq]

end Numeral

namespace Decimal

variable {d : Decimal} {digits : List Nat}

theorem ofDigitChars_digits (small : ∀ x ∈ digits, x < 10) :
    Nat.ofDigitChars 10 (digits.map Nat.digitChar) 0 = number digits := by
  induction digits using List.reverseRecOn with
  | nil => rfl
  | append_singleton front x ih =>
      have last : x < 10 := small x (by simp)
      rw [List.map_append, Nat.ofDigitChars_append, ih fun y member => small y (List.mem_append_left _ member),
        List.map_singleton, Nat.ofDigitChars_cons_digitChar_of_lt_ten last, Nat.ofDigitChars_nil, number_append]
      simp [number, Nat.mul_comm]

theorem isDigit_digitChar {x : Nat} (small : x < 10) : x.digitChar.isDigit = true := by
  have all : ∀ y < 10, (Nat.digitChar y).isDigit = true := by decide
  exact all x small

theorem digitChar_ne_zero {x : Nat} (small : x < 10) (some : x ≠ 0) : x.digitChar ≠ '0' := by
  have all : ∀ y < 10, y ≠ 0 → Nat.digitChar y ≠ '0' := by decide
  exact all x small some

theorem Proper.number_pos (proper : Proper digits) : 0 < number digits := by
  obtain ⟨-, first, leads, some⟩ := proper
  obtain ⟨rest, rfl⟩ : ∃ rest, digits = first :: rest := by
    cases digits with
    | nil => cases leads
    | cons x rest => exact ⟨rest, by rw [Option.some.inj leads]⟩
  have parts := number_append [first] rest
  have positive : 0 < number [first] * 10 ^ rest.length := by
    simp only [number, List.reverse_singleton, Nat.ofDigits_singleton]
    positivity
  rw [List.singleton_append] at parts
  omega

theorem Proper.number_lt (proper : Proper digits) : number digits < 10 ^ digits.length := by
  have bound := Nat.ofDigits_lt_base_pow_length (b := 10) (l := digits.reverse) (by decide) fun x member =>
    proper.small x (List.mem_reverse.mp member)
  rwa [List.length_reverse] at bound

/-- How a decimal is written so that it reads back. -/
def numeral (d : Decimal) : Numeral :=
  if -3 ≤ d.point ∧ d.point ≤ 16 then
    if d.point ≤ 0 then ⟨['0'], List.replicate (-d.point).toNat '0' ++ d.digits.map Nat.digitChar, none⟩
    else
      ⟨(d.digits.take d.point.toNat).map Nat.digitChar ++ List.replicate (d.point.toNat - d.digits.length) '0',
        if d.digits.length ≤ d.point.toNat then ['0'] else (d.digits.drop d.point.toNat).map Nat.digitChar, none⟩
  else ⟨(d.digits.take 1).map Nat.digitChar, (d.digits.drop 1).map Nat.digitChar, some (d.point - 1)⟩

theorem Proper.ne_nil (proper : Proper digits) : digits ≠ [] := by
  obtain ⟨-, first, leads, -⟩ := proper
  rintro rfl
  cases leads

theorem render_eq (proper : Proper d.digits) : (DecimalLayout.exact.render d).toList = d.numeral.text := by
  have some := proper.ne_nil
  have layout : DecimalLayout.exact = ⟨-3, 16, true⟩ := rfl
  unfold DecimalLayout.render numeral
  simp only [layout, Bool.and_eq_true, decide_eq_true_eq]
  split
  · unfold DecimalLayout.positional
    split
    · simp [DecimalLayout.digitText, Numeral.text, Numeral.fractionText_eq, Numeral.powerText, some]
    · rcases behind : d.digits.drop d.point.toNat with _ | ⟨x, rest⟩
      · have short : d.digits.length ≤ d.point.toNat := List.drop_eq_nil_iff.mp behind
        simp only [behind]
        simp [DecimalLayout.digitText, Numeral.text, Numeral.fractionText_eq, Numeral.powerText, short]
      · have long : ¬d.digits.length ≤ d.point.toNat := fun short => by
          rw [List.drop_eq_nil_iff.mpr short] at behind
          cases behind
        simp [DecimalLayout.digitText, Numeral.text, Numeral.fractionText_eq, Numeral.powerText, long, behind]
  · unfold DecimalLayout.scientific
    rcases behind : d.digits.drop 1 with _ | ⟨x, rest⟩
    · simp [DecimalLayout.digitText, Numeral.text, Numeral.fractionText, Numeral.powerText]
    · simp [DecimalLayout.digitText, Numeral.text, Numeral.fractionText_eq, Numeral.powerText]

/-- The digits of a decimal stand in its numeral between zeros, as far from the point as they belong. -/
theorem numeral_digits (proper : Proper d.digits) : ∃ a b : Nat, b ≤ 17 ∧
    d.numeral.whole ++ d.numeral.fraction =
      (List.replicate a 0 ++ d.digits ++ List.replicate b 0).map Nat.digitChar ∧
    d.numeral.exponent + b = d.point - d.digits.length := by
  have zero : Nat.digitChar 0 = '0' := rfl
  have positive : 0 < d.digits.length := List.length_pos_iff.mpr proper.ne_nil
  unfold numeral
  split
  · split
    · refine ⟨1 + (-d.point).toNat, 0, by omega, ?_, ?_⟩
      · simp [List.replicate_add, zero]
      · simp only [Numeral.exponent, Option.getD_none, List.length_append, List.length_replicate, List.length_map]
        omega
    · split
      · refine ⟨0, d.point.toNat - d.digits.length + 1, by omega, ?_, ?_⟩
        · simp [List.replicate_add, List.take_of_length_le, *]
        · simp only [Numeral.exponent, Option.getD_none, List.length_singleton]
          omega
      · refine ⟨0, 0, by omega, ?_, ?_⟩
        · have none : d.point.toNat - d.digits.length = 0 := by omega
          simp only [none, List.replicate_zero, List.nil_append, List.append_nil, ← List.map_append,
            List.take_append_drop]
        · simp only [Numeral.exponent, Option.getD_none, List.length_map, List.length_drop]
          omega
  · refine ⟨0, 0, by omega, ?_, ?_⟩
    · simp only [List.replicate_zero, List.nil_append, List.append_nil, ← List.map_append, List.take_append_drop]
    · simp only [Numeral.exponent, Option.getD_some, List.length_map, List.length_drop]
      omega

theorem Proper.padded (proper : Proper digits) (a b : Nat) :
    ∀ x ∈ List.replicate a 0 ++ digits ++ List.replicate b 0, x < 10 := by
  intro x among
  rcases List.mem_append.mp among with front | back
  · rcases List.mem_append.mp front with zero | inner
    · rw [List.eq_of_mem_replicate zero]
      decide
    · exact proper.small x inner
  · rw [List.eq_of_mem_replicate back]
    decide

theorem numeral_leads (proper : Proper d.digits) :
    d.numeral.whole = ['0'] ∨ ∃ c, d.numeral.whole.head? = some c ∧ c ≠ '0' := by
  obtain ⟨small, first, leads, some⟩ := proper
  obtain ⟨rest, same⟩ : ∃ rest, d.digits = first :: rest := by
    cases digits : d.digits with
    | nil => rw [digits] at leads; cases leads
    | cons x rest => rw [digits] at leads; exact ⟨rest, by rw [Option.some.inj leads]⟩
  have lead : first.digitChar ≠ '0' := digitChar_ne_zero (small first (by rw [same]; exact List.mem_cons_self)) some
  unfold numeral
  split
  · split
    · exact .inl rfl
    · obtain ⟨n, point⟩ : ∃ n, d.point.toNat = n + 1 := ⟨d.point.toNat - 1, by omega⟩
      exact .inr ⟨first.digitChar, by simp [same, point], lead⟩
  · exact .inr ⟨first.digitChar, by simp [same], lead⟩

theorem numeral_proper (proper : Proper d.digits) : d.numeral.Proper := by
  refine ⟨fun c member => ?_, numeral_leads proper⟩
  obtain ⟨a, b, -, same, -⟩ := numeral_digits proper
  rw [same] at member
  obtain ⟨x, among, rfl⟩ := List.mem_map.mp member
  exact isDigit_digitChar (proper.padded a b x among)

theorem numeral_real (proper : Proper d.digits) : d.numeral.fraction ≠ [] ∨ d.numeral.power? ≠ none := by
  have some := proper.ne_nil
  unfold numeral
  split
  · split
    · exact .inl (by simp [some])
    · split <;> rename_i short
      · exact .inl (by simp)
      · exact .inl (by simpa using short)
  · exact .inr (by simp)

/-- The numeral of a decimal stands for the decimal, by a number of digits that is not large. -/
theorem numeral_value (proper : Proper d.digits) (short : d.digits.length ≤ 17) :
    (d.numeral.mantissa : ℚ) * 10 ^ d.numeral.exponent = d.value ∧ 0 < d.numeral.mantissa ∧
      d.numeral.mantissa < 10 ^ 34 ∧ d.point - 34 ≤ d.numeral.exponent ∧ d.numeral.exponent ≤ d.point := by
  obtain ⟨a, b, few, same, power⟩ := numeral_digits proper
  have mantissa : d.numeral.mantissa = number d.digits * 10 ^ b := by
    rw [Numeral.mantissa, same, ofDigitChars_digits (proper.padded a b), number_append, number_append, number_zeros,
      number_zeros, List.length_replicate]
    ring
  have positive := proper.number_pos
  have digits : number d.digits < 10 ^ 17 :=
    lt_of_lt_of_le proper.number_lt (Nat.pow_le_pow_right (by decide) short)
  have zeros : 10 ^ b ≤ 10 ^ 17 := Nat.pow_le_pow_right (by decide) few
  rw [mantissa]
  refine ⟨?_, by positivity, ?_, by omega, by omega⟩
  · rw [value, ← power, zpow_add₀ (by norm_num), zpow_natCast]
    push_cast
    ring
  · calc number d.digits * 10 ^ b < 10 ^ 17 * 10 ^ b := by gcongr
      _ ≤ 10 ^ 17 * 10 ^ 17 := by gcongr

end Decimal

/-- The decimal digits of a natural number start with a zero only when they are one. -/
theorem toDigits_leads (m : Nat) :
    Nat.toDigits 10 m = ['0'] ∨ ∃ c, (Nat.toDigits 10 m).head? = some c ∧ c ≠ '0' := by
  induction m using Nat.strongRecOn with
  | ind m ih =>
      rcases Nat.lt_or_ge m 10 with small | large
      · rw [Nat.toDigits_of_lt_base small]
        rcases Nat.eq_zero_or_pos m with rfl | some
        · exact .inl rfl
        · exact .inr ⟨_, rfl, Decimal.digitChar_ne_zero small some.ne'⟩
      · rw [Nat.toDigits_of_base_le (by decide) large]
        rcases ih (m / 10) (by omega) with zero | ⟨c, head, some⟩
        · have back := Nat.ofDigitChars_ten_toDigits (n := m / 10)
          rw [zero] at back
          have : 0 = m / 10 := back
          omega
        · exact .inr ⟨c, by rw [List.head?_append, head, Option.some_or], some⟩

namespace Double

variable {code digits : Nat} {exponent : Int} {negative : Bool}

theorem ofCode_finite (finite : code < 2047 * Nat.pow 2 52) (negative : Bool) :
    ofCode negative code = .finite negative code finite := dif_pos finite

/-- What is written with few digits, not far from the point, is not decided by its size alone. -/
theorem scaledDouble_ofRatio (some : 0 < digits) (few : digits < 10 ^ 34) (least : -360 ≤ exponent)
    (most : exponent ≤ 320) : Number.scaledDouble negative digits exponent =
      if 0 ≤ exponent then ofRatio negative (digits * Nat.pow 10 exponent.toNat) 1
      else ofRatio negative digits (Nat.pow 10 (-exponent).toNat) := by
  have length : digits.log2 < 113 := (Nat.log2_lt some.ne').mpr (few.trans (by decide))
  have magnitude : 0 ≤ (digits.log2 : Int) * 30103 / 100000 ∧ (digits.log2 : Int) * 30103 / 100000 ≤ 34 := by omega
  rw [Number.scaledDouble, if_neg some.ne']
  simp only
  rw [if_neg (by omega), if_neg (by omega)]

/-- What lies in the rounding interval of a magnitude is read as the magnitude. -/
theorem scaledDouble_eq (some : 0 < digits) (few : digits < 10 ^ 34) (least : -360 ≤ exponent)
    (most : exponent ≤ 320) (positive : 0 < code) (finite : code < 2047 * Nat.pow 2 52)
    (near : RoundsTo code (digits * 10 ^ exponent * unitsPerOne)) :
    Number.scaledDouble negative digits exponent = .finite negative code finite := by
  rw [scaledDouble_ofRatio some few least most, ← ofCode_finite finite]
  split <;> rename_i sign
  · lift exponent to Nat using sign
    refine congrArg (ofCode negative) (RoundsTo.nearestCode ?_ one_pos positive)
    rw [zpow_natCast] at near
    simpa only [Int.toNat_natCast, Nat.pow_eq, Nat.cast_mul, Nat.cast_pow, Nat.cast_ofNat, Nat.cast_one, div_one]
  · obtain ⟨n, rfl⟩ : ∃ n : Nat, exponent = -n := ⟨(-exponent).toNat, by omega⟩
    refine congrArg (ofCode negative) (RoundsTo.nearestCode ?_ (Nat.pow_pos (by decide)) positive)
    rw [zpow_neg, zpow_natCast, mul_right_comm, ← div_eq_mul_inv] at near
    simpa only [neg_neg, Int.toNat_natCast, Nat.pow_eq, Nat.cast_mul, Nat.cast_pow, Nat.cast_ofNat]

/-- The numeral that a finite double is written as, without its sign. -/
def numeral (code : Nat) : Numeral := if code = 0 then ⟨['0'], ['0'], none⟩ else (shortest code).numeral

theorem text_finite (finite : code < 2047 * Nat.pow 2 52) :
    (text (.finite negative code finite)).toList = (if negative then ['-'] else []) ++ (numeral code).text := by
  have zero : "0.0".toList = Numeral.text ⟨['0'], ['0'], none⟩ := rfl
  have rendered (positive : 0 < code) : (DecimalLayout.exact.render (shortest code)).toList =
      (shortest code).numeral.text := Decimal.render_eq (shortest_readsBack positive finite).proper
  rw [text, String.toList_append, numeral]
  by_cases none : code = 0
  · cases negative <;> simp [none, zero]
  · cases negative <;> simp [none, rendered (by omega)]

/-- The numeral of a finite double is read as the double. -/
theorem numeral_read (finite : code < 2047 * Nat.pow 2 52) (negative : Bool) : (numeral code).Proper ∧
    ((numeral code).fraction ≠ [] ∨ (numeral code).power? ≠ none) ∧
      Number.scaledDouble negative (numeral code).mantissa (numeral code).exponent =
        .finite negative code finite := by
  unfold numeral
  split <;> rename_i sign
  · subst sign
    have digits : ∀ c ∈ ['0', '0'], c.isDigit = true := List.all_eq_true.mp rfl
    refine ⟨⟨digits, .inl rfl⟩, .inl (List.cons_ne_nil _ _), ?_⟩
    exact ofCode_finite finite negative
  · have positive : 0 < code := by omega
    obtain ⟨proper, short, rounds, range⟩ := shortest_readsBack positive finite
    obtain ⟨value, some, few, least, most⟩ := Decimal.numeral_value proper short
    rw [← value] at rounds
    exact ⟨Decimal.numeral_proper proper, Decimal.numeral_real proper,
      scaledDouble_eq some few (by omega) (by omega) positive finite rounds⟩

end Double

end BlockGraph
