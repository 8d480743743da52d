import BlockGraph.Json.Reader
import BlockGraph.Json.Writer
/-!
Strings written with escapes are read back: each character is written as a piece that reading takes for this
character again. Only a high half needs to look ahead, for no escape of a low half may follow it.
-/
namespace BlockGraph.Json

variable {opening done tail : List Char} {c : Char} {n : Nat}

/-! ### Units -/

theorem hexDigit?_digitChar {d : Nat} (small : d < 16) : Text.hexDigit? (Nat.digitChar d) = some d := by
  have all : ∀ k < 16, Text.hexDigit? (Nat.digitChar k) = some k := by decide
  exact all d small

/-- Four hexadecimal digits name the unit they were written for. -/
theorem unitEscape_eq (small : n < 0x10000) :
    ∃ a b c d, Text.unitEscape n = ['\\', 'u', a, b, c, d] ∧ unit? a b c d = some n := by
  refine ⟨_, _, _, _, rfl, ?_⟩
  have digit (k : Nat) : Text.hexDigit? (Nat.digitChar (k % 16)) = some (k % 16) :=
    hexDigit?_digitChar (Nat.mod_lt k (by decide))
  simp only [unit?, List.mapM_cons, List.mapM_nil, digit, Option.pure_def, Option.bind_eq_bind, Option.bind_some,
    List.foldl_cons, List.foldl_nil, Option.some.injEq]
  omega

/-- No escape of a low half stands at the front. -/
def NoLow (tail : List Char) : Prop :=
  ∀ e f g h more, tail = '\\' :: 'u' :: e :: f :: g :: h :: more →
    ∃ n, unit? e f g h = some n ∧ Text.isLowHalf n = false

theorem NoLow.of_unit (small : n < 0x10000) (not : Text.isLowHalf n = false) : NoLow (Text.unitEscape n ++ tail) := by
  obtain ⟨a, b, c, d, same, unit⟩ := unitEscape_eq small
  intro e f g h more start
  rw [same] at start
  simp only [List.cons_append, List.nil_append, List.cons.injEq, true_and] at start
  obtain ⟨rfl, rfl, rfl, rfl, -⟩ := start
  exact ⟨n, unit, not⟩

theorem NoLow.of_letter (plain : c ≠ 'u') : NoLow ('\\' :: c :: tail) := by
  intro e f g h more start
  exact absurd (List.cons.inj (List.cons.inj start).2).1 plain

theorem NoLow.of_plain (backslash : c ≠ '\\') : NoLow (c :: tail) := by
  intro e f g h more start
  exact absurd (List.cons.inj start).1 backslash

/-! ### Pieces -/

/-- Reading takes a piece for a character, when something stands behind it. -/
def ReadsAs (piece : List Char) (c : Char) (tail : List Char) : Prop :=
  ∀ opening done, readString opening done (piece ++ tail) = readString opening (c :: done) tail

theorem readsAs_unit (small : n < 0x10000) (some : tail ≠ []) (lone : Text.isHighHalf n = true → NoLow tail) :
    ReadsAs (Text.unitEscape n) (unitChar n) tail := by
  obtain ⟨a, b, c, d, same, unit⟩ := unitEscape_eq small
  obtain ⟨next, rest, rfl⟩ := List.exists_cons_of_ne_nil some
  intro opening done
  rw [same]
  simp only [List.cons_append, List.nil_append]
  rw [readString]
  simp only [unit]
  split
  · rename_i high
    split
    · rename_i e f g h after more
      obtain ⟨low, other, not⟩ := lone high e f g h (after :: more) rfl
      simp only [other, not]
      rfl
    · rfl
  · rfl

theorem readsAs_pair {high low : Nat} (first : Text.isHighHalf high = true) (second : Text.isLowHalf low = true)
    (some : tail ≠ []) : ReadsAs (Text.unitEscape high ++ Text.unitEscape low) (Text.pairChar high low) tail := by
  have small : high < 0x10000 ∧ low < 0x10000 := by
    simp only [Text.isHighHalf, Text.isLowHalf, Bool.and_eq_true, decide_eq_true_eq] at first second
    omega
  obtain ⟨a, b, c, d, same, unit⟩ := unitEscape_eq small.1
  obtain ⟨e, f, g, h, same', unit'⟩ := unitEscape_eq small.2
  obtain ⟨next, rest, rfl⟩ := List.exists_cons_of_ne_nil some
  intro opening done
  rw [same, same']
  simp only [List.cons_append, List.nil_append]
  rw [readString]
  simp only [unit, unit', first, second, if_true]

/-- The pieces of one letter behind a backslash. -/
theorem readsAs_letter {letter : Char} (escape : escapeChar? letter = some c) (plain : letter ≠ 'u') :
    ReadsAs ['\\', letter] c tail := by
  intro opening done
  simp only [List.cons_append, List.nil_append]
  rw [readString]
  · simp only [escape]
  · intro a b c d next rest same
    exact absurd same plain
  · exact plain

theorem readsAs_plain (printed : 0x20 ≤ c.toNat) (quote : c ≠ '"') (backslash : c ≠ '\\') : ReadsAs [c] c tail := by
  intro opening done
  simp only [List.cons_append, List.nil_append]
  rw [readString]
  · rw [if_neg (by omega)]
  · exact quote
  -- every other way to read it begins with a backslash
  all_goals
    intros
    exact absurd ‹_› backslash

/-! ### Characters -/

theorem unitChar_plain (small : c.toNat < 0x10000) : unitChar c.toNat = c := by
  have valid : c.toNat < 0xD800 ∨ 0xDFFF < c.toNat ∧ c.toNat < 0x110000 := c.valid
  have plain : (Text.isHighHalf c.toNat || Text.isLowHalf c.toNat) = false := by
    simp only [Text.isHighHalf, Text.isLowHalf, Bool.or_eq_false_iff, Bool.and_eq_false_iff, decide_eq_false_iff_not]
    omega
  rw [unitChar, plain]
  exact Char.ofNat_toNat c

theorem half?_eq_some (half : Text.half? c = some n) :
    n < 0x10000 ∧ (Text.isHighHalf n = true ∨ Text.isLowHalf n = true) ∧ unitChar n = c := by
  unfold Text.half? at half
  simp only [Option.ite_none_right_eq_some, Option.some.injEq, Bool.or_eq_true] at half
  obtain ⟨either, rfl⟩ := half
  refine ⟨?_, either, ?_⟩
  · simp only [Text.isHighHalf, Text.isLowHalf, Bool.and_eq_true, decide_eq_true_eq] at either
    omega
  · have back : Text.halfOffset + (c.toNat - Text.halfOffset) = c.toNat := by
      simp only [Text.isHighHalf, Text.isLowHalf, Bool.and_eq_true, decide_eq_true_eq] at either
      omega
    rw [unitChar, if_pos (by rwa [Bool.or_eq_true]), Text.halfChar, back]
    exact Char.ofNat_toNat c

theorem pairChar_halves (large : 0x10000 ≤ c.toNat) :
    Text.isHighHalf (0xD800 + (c.toNat - 0x10000) / 0x400) = true ∧
      Text.isLowHalf (0xDC00 + (c.toNat - 0x10000) % 0x400) = true ∧
        Text.pairChar (0xD800 + (c.toNat - 0x10000) / 0x400) (0xDC00 + (c.toNat - 0x10000) % 0x400) = c := by
  have valid : c.toNat < 0xD800 ∨ 0xDFFF < c.toNat ∧ c.toNat < 0x110000 := c.valid
  simp only [Text.isHighHalf, Text.isLowHalf, Bool.and_eq_true, decide_eq_true_eq]
  refine ⟨by omega, by omega, ?_⟩
  have whole : 0x10000 + (0xD800 + (c.toNat - 0x10000) / 0x400 - 0xD800) * 0x400 +
      (0xDC00 + (c.toNat - 0x10000) % 0x400 - 0xDC00) = c.toNat := by omega
  rw [Text.pairChar, whole]
  exact Char.ofNat_toNat c

/-- A character that is no lone half is written as a piece that is read as the character, and that does not begin as
the escape of a low half does. -/
theorem escapedChar_spec (c : Char) (some : tail ≠ []) :
    ReadsAs (escapedChar true c) c tail ∧ NoLow (escapedChar true c ++ tail) := by
  have letter {e : Char} (escape : escapeChar? e = .some c) (plain : e ≠ 'u') :
      ReadsAs ['\\', e] c tail ∧ NoLow (['\\', e] ++ tail) := ⟨readsAs_letter escape plain, .of_letter plain⟩
  unfold escapedChar
  split
  · rename_i same
    exact letter (by rw [eq_of_beq same]; rfl) (by decide)
  rename_i quote
  split
  · rename_i same
    exact letter (by rw [eq_of_beq same]; rfl) (by decide)
  rename_i backslash
  split
  · rename_i same
    exact letter (by rw [eq_of_beq same]; rfl) (by decide)
  split
  · rename_i same
    exact letter (by rw [eq_of_beq same]; rfl) (by decide)
  split
  · rename_i same
    exact letter (by rw [eq_of_beq same]; rfl) (by decide)
  split
  · rename_i same
    exact letter (by rw [← Char.ofNat_toNat c, eq_of_beq same]; rfl) (by decide)
  split
  · rename_i same
    exact letter (by rw [← Char.ofNat_toNat c, eq_of_beq same]; rfl) (by decide)
  rw [beq_iff_eq] at quote backslash
  simp only [Bool.not_true, Bool.or_false, Bool.and_eq_true, decide_eq_true_eq]
  split
  · rename_i printed
    exact ⟨readsAs_plain printed.1 quote backslash, .of_plain backslash⟩
  split
  · rename_i small
    have valid : c.toNat < 0xD800 ∨ 0xDFFF < c.toNat ∧ c.toNat < 0x110000 := c.valid
    have high : Text.isHighHalf c.toNat = false := by
      simp only [Text.isHighHalf, Bool.and_eq_false_iff, decide_eq_false_iff_not]
      omega
    have low : Text.isLowHalf c.toNat = false := by
      simp only [Text.isLowHalf, Bool.and_eq_false_iff, decide_eq_false_iff_not]
      omega
    have reads := readsAs_unit small some fun half => by rw [high] at half; cases half
    rw [unitChar_plain small] at reads
    exact ⟨reads, .of_unit small low⟩
  · rename_i large
    obtain ⟨high, low, same⟩ := pairChar_halves (c := c) (by omega)
    have reads := readsAs_pair high low some
    rw [same] at reads
    refine ⟨reads, ?_⟩
    rw [List.append_assoc]
    refine .of_unit ?_ ?_ <;>
      simp only [Text.isHighHalf, Text.isLowHalf, Bool.and_eq_true, Bool.and_eq_false_iff, decide_eq_true_eq,
        decide_eq_false_iff_not] at high ⊢ <;> omega

/-! ### Strings -/

theorem isLoneHalf_spec {rest : List Char} (lone : isLoneHalf c rest = true) : ∃ n, Text.half? c = some n ∧
    (Text.isHighHalf n = true → ∀ next, rest.head?.bind Text.half? = some next → Text.isLowHalf next = false) := by
  revert c rest
  -- which characters are halves does not matter here, and to unfold it would count to a large number one by one
  generalize same : isLoneHalf = alone
  delta isLoneHalf at same
  generalize Text.half? = half at same ⊢
  intro c rest lone
  rw [← same] at lone
  rcases first : half c with _ | n
  · simp [first] at lone
  · refine ⟨n, rfl, fun high next after => ?_⟩
    simpa [first, after, high] using lone

/-- What is written for characters does not begin as the escape of a low half does, unless the first is one. -/
theorem noLow_escapedChars (cs : List Char) (first : ∀ n, cs.head?.bind Text.half? = some n → Text.isLowHalf n = false)
    (tail : List Char) : NoLow (escapedChars true cs ++ '"' :: tail) := by
  cases cs with
  | nil => exact .of_plain (by decide)
  | cons c rest =>
      rw [escapedChars, List.append_assoc]
      split
      · rename_i lone
        rw [Bool.true_and] at lone
        obtain ⟨n, half, -⟩ := isLoneHalf_spec lone
        rw [half, Option.getD_some]
        exact .of_unit (half?_eq_some half).1 (first n (by rw [List.head?_cons, Option.bind_some, half]))
      · exact (escapedChar_spec c (by simp)).2

/-- What is written for characters is read as these characters. -/
theorem readString_escapedChars (opening done cs rest : List Char) :
    readString opening done (escapedChars true cs ++ '"' :: rest) =
      .ok (String.ofList (done.reverse ++ cs), rest) := by
  induction cs generalizing done with
  | nil =>
      rw [escapedChars, List.nil_append, readString, List.append_nil]
  | cons c cs ih =>
      rw [escapedChars, List.append_assoc]
      have reads : ReadsAs (if true && isLoneHalf c cs then Text.unitEscape ((Text.half? c).getD 0)
          else escapedChar true c) c (escapedChars true cs ++ '"' :: rest) := by
        split
        · rename_i lone
          rw [Bool.true_and] at lone
          obtain ⟨n, half, ahead⟩ := isLoneHalf_spec lone
          obtain ⟨small, -, same⟩ := half?_eq_some half
          have unit := readsAs_unit small (by simp) fun high => noLow_escapedChars cs (ahead high) rest
          rw [same] at unit
          rwa [half, Option.getD_some]
        · exact (escapedChar_spec c (by simp)).1
      rw [reads, ih, List.reverse_cons, List.append_assoc, List.singleton_append]

/-- A string that was written is read back, up to where it ends. -/
theorem string_stringText (layout : Layout) (ascii : layout.asciiOnly = true) (s : String) (rest : List Char) :
    string ((stringText layout s).toList ++ rest) = .ok (s, rest) := by
  have inner : (escapedChars true s.toList ++ ['"']) ++ rest = escapedChars true s.toList ++ '"' :: rest := by simp
  rw [string, stringText, ascii, String.toList_ofList, List.cons_append, List.cons_append, List.drop_succ_cons,
    List.drop_zero, inner, readString_escapedChars]
  simp

end BlockGraph.Json
