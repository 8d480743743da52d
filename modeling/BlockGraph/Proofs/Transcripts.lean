import BlockGraph.Proofs.Escapes
import BlockGraph.Proofs.Freezing
import BlockGraph.Proofs.Numerals
/-!
The JSON text of a value is read back as the value. What is written for a value, its items and its entries is told
as a text of its own, and reading is followed along this text.
-/
namespace BlockGraph

/-- A double as a document can hold it: not-a-number is what the word for it stands for. -/
def Double.Spelled (x : Double) : Prop := x.isNan = true → x = .writtenNaN

/-- A value as a document can hold it: integers have few digits, and mappings have texts for keys, each once. -/
def Value.Readable (v : Value) : Prop := v.Every fun u => match u with
  | .int n => n.natAbs < digitBound
  | .float x => x.Spelled
  | .mapping entries => (∀ e ∈ entries, ∃ k, e.1 = .text k) ∧ entries.Pairwise fun e f => e.1 ≠ f.1
  | .tuple _ | .set _ | .frozenset _ | .foreign _ => False
  | _ => True

theorem integerText_short {n : Int} (short : n.natAbs < digitBound) : integerText n = .ok (toString n) := if_pos short

theorem integerText_long {n : Int} (long : ¬n.natAbs < digitBound) : integerText n = .error .digitLimit := if_neg long

namespace Json

variable {rest cs : List Char} {c : Char}

open Numeral (Stops)

/-! ### Words and numbers -/

theorem digit_ne {w : Char} (digit : c.isDigit = true) (word : w.isDigit = false) : (w == c) = false := by
  rw [beq_eq_false_iff_ne]
  rintro rfl
  rw [digit] at word
  cases word

/-- A sign, if there is one. -/
def signed (negative : Bool) (cs : List Char) : List Char := (if negative then ['-'] else []) ++ cs

/-- No word begins with a digit, and none with a digit behind a sign. -/
theorem scalar_digits (negative : Bool) (digit : c.isDigit = true) (cs : List Char) :
    ∃ start, scalar (signed negative (c :: cs)) = unsignedNumber negative start (c :: cs) := by
  have I := digit_ne (w := 'I') digit rfl
  cases negative with
  | false =>
      have n := digit_ne (w := 'n') digit rfl
      have t := digit_ne (w := 't') digit rfl
      have f := digit_ne (w := 'f') digit rfl
      have N := digit_ne (w := 'N') digit rfl
      have sign := digit_ne (w := '-') digit rfl
      have wordless : (words.find? fun w => w.1.isPrefixOf (c :: cs)) = none := by
        simp [words, List.isPrefixOf, n, t, f, N, I, sign]
      refine ⟨(c :: cs).length, ?_⟩
      simp only [signed, Bool.false_eq_true, if_false, List.nil_append]
      rw [scalar, wordless]
      dsimp only
      · rw [if_pos digit]
      · rintro rfl
        cases digit
  | true => exact ⟨cs.length + 2, by simp [signed, scalar, words, List.isPrefixOf, I]⟩

theorem floatText_finite {code : Nat} (finite : code < 2047 * Nat.pow 2 52) (negative : Bool) :
    (floatText (.finite negative code finite)).toList = signed negative (Double.numeral code).text :=
  Double.text_finite finite

theorem scalar_float {x : Double} (spelled : x.Spelled) (stops : Stops rest) :
    scalar ((floatText x).toList ++ rest) = .ok (.float x, rest) := by
  cases x with
  | nan mark =>
      rw [spelled rfl]
      simp [floatText, scalar, words]
      rfl
  | infinite negative =>
      cases negative <;> simp [floatText, scalar, words, List.isPrefixOf]
  | finite negative code finite =>
      obtain ⟨proper, real, value⟩ := Double.numeral_read finite negative
      obtain ⟨d, more, whole, digit⟩ := proper.text_leads
      obtain ⟨start, dispatch⟩ := scalar_digits negative digit (more ++ rest)
      have read := Numeral.unsignedNumber_double proper real stops negative start
      rw [whole, List.cons_append, value] at read
      rw [floatText_finite, whole, signed, List.append_assoc, List.cons_append]
      exact dispatch.trans read

/-- How many digits an integer of a document has at most. -/
theorem digitBound_eq : ∃ k, digitBound = 10 ^ k ∧ k = Fault.digitLimitValue := ⟨_, by decide +kernel, rfl⟩

theorem toString_int (n : Int) : (toString n).toList = signed (decide (n < 0)) (Nat.toDigits 10 n.natAbs) := by
  cases n with
  | ofNat m =>
      have text : (toString (Int.ofNat m)).toList = Nat.toDigits 10 m := Nat.toList_repr
      have sign : ¬(Int.ofNat m < 0) := Int.not_lt.mpr (Int.natCast_nonneg m)
      rw [text, signed, decide_eq_false sign]
      rfl
  | negSucc m =>
      have text : toString (Int.negSucc m) = "-" ++ (m + 1).repr := rfl
      rw [text, String.toList_append, Nat.toList_repr, signed, decide_eq_true (Int.negSucc_lt_zero m)]
      rfl

/-- Decimal digits begin with one. -/
theorem toDigits_digit (m : Nat) : ∃ d more, Nat.toDigits 10 m = d :: more ∧ d.isDigit = true := by
  obtain ⟨d, more, same⟩ := List.exists_cons_of_ne_nil (Nat.toDigits_ne_nil (n := m) (b := 10))
  exact ⟨d, more, same, Nat.isDigit_of_mem_toDigits (b := 10) (n := m) (by decide) (by decide) (by simp [same])⟩

theorem scalar_int {n : Int} (short : n.natAbs < digitBound) (stops : Stops rest) :
    scalar ((toString n).toList ++ rest) = .ok (.int n, rest) := by
  obtain ⟨k, bound, limit⟩ := digitBound_eq
  rw [bound] at short
  have few : (Nat.toDigits 10 n.natAbs).length ≤ Fault.digitLimitValue :=
    limit ▸ (Nat.length_toDigits_le_iff (by decide) (by rw [limit]; decide)).mpr short
  have digits : ∀ c ∈ Nat.toDigits 10 n.natAbs, c.isDigit = true :=
    fun c => Nat.isDigit_of_mem_toDigits (by decide) (by decide)
  obtain ⟨d, more, same, digit⟩ := toDigits_digit n.natAbs
  obtain ⟨start, dispatch⟩ := scalar_digits (decide (n < 0)) digit (more ++ rest)
  have read := Numeral.unsignedNumber_integer digits (toDigits_leads _) few stops (decide (n < 0)) start
  have value : (if decide (n < 0) then -(n.natAbs : Int) else n.natAbs) = n := by
    by_cases sign : n < 0
    · rw [if_pos (decide_eq_true sign)]
      omega
    · rw [if_neg (by simp [sign])]
      omega
  rw [Nat.ofDigitChars_ten_toDigits, value, same, List.cons_append] at read
  rw [toString_int, same, signed, List.append_assoc, List.cons_append]
  exact dispatch.trans read

/-! ### Texts -/

/-- The beginning of a line at a level. -/
def margin (level : Nat) : List Char := '\n' :: List.replicate (2 * level) ' '

def quotation (s : String) : List Char := (stringText .indented s).toList

def keyQuotation : Value → List Char
  | .text s => quotation s
  | _ => []

mutual

/-- What is written for a value on a level. -/
def transcript (level : Nat) : Value → List Char
  | .null => "null".toList
  | .bool b => (if b then "true" else "false").toList
  | .int n => (toString n).toList
  | .float x => (floatText x).toList
  | .text s => quotation s
  | .list [] => ['[', ']']
  | .list (v :: rest) => '[' :: (margin (level + 1) ++ (transcript (level + 1) v ++
      (itemsTranscript (level + 1) rest ++ (margin level ++ [']']))))
  | .mapping [] => ['\x7b', '\x7d']
  | .mapping ((k, v) :: rest) => '\x7b' :: (margin (level + 1) ++ (keyQuotation k ++ (':' :: ' ' ::
      (transcript (level + 1) v ++ (entriesTranscript (level + 1) rest ++ (margin level ++ ['\x7d']))))))
  | _ => []

/-- What is written for the items behind the first. -/
def itemsTranscript (level : Nat) : List Value → List Char
  | [] => []
  | v :: rest => ',' :: (margin level ++ (transcript level v ++ itemsTranscript level rest))

/-- What is written for the entries behind the first. -/
def entriesTranscript (level : Nat) : List (Value × Value) → List Char
  | [] => []
  | (k, v) :: rest => ',' :: (margin level ++ (keyQuotation k ++ (':' :: ' ' ::
      (transcript level v ++ entriesTranscript level rest))))

end

/-! ### Characters -/

/-- Characters of printable ASCII or line feeds. -/
def Printed (cs : List Char) : Prop := ∀ c ∈ cs, c.toNat < 0x7F ∧ c ≠ '\r'

theorem Printed.of_all (cs : List Char) (h : (cs.all fun c => c.toNat < 0x7F && c != '\r') = true) : Printed cs := by
  simpa [Printed] using h

theorem Printed.nil : Printed [] := List.forall_mem_nil _

theorem Printed.append {more : List Char} (h : Printed cs) (h' : Printed more) : Printed (cs ++ more) := by
  intro c member
  rcases List.mem_append.mp member with front | back
  · exact h c front
  · exact h' c back

theorem Printed.cons (first : c.toNat < 0x7F ∧ c ≠ '\r') (h : Printed cs) : Printed (c :: cs) :=
  List.forall_mem_cons.mpr ⟨first, h⟩

theorem Printed.digits (digits : ∀ c ∈ cs, c.isDigit = true) : Printed cs := by
  intro c member
  have digit := digits c member
  constructor
  · have : c.toNat ≤ 57 := (Char.isDigit_iff_toNat.mp digit).2
    omega
  · rintro rfl
    cases digit

theorem Printed.numeral {n : Numeral} (proper : n.Proper) : Printed n.text := by
  have whole : Printed n.whole := .digits fun c member => proper.digits c (List.mem_append_left _ member)
  have fraction : Printed n.fraction := .digits fun c member => proper.digits c (List.mem_append_right _ member)
  refine whole.append (.append ?_ ?_)
  · rcases digits : n.fraction with _ | ⟨d, ds⟩
    · exact .nil
    · rw [digits] at fraction
      exact .cons (by decide) fraction
  · rcases power : n.power? with _ | e
    · exact .nil
    · have digits : Printed (Numeral.powerDigits e) := .digits (Numeral.powerDigits_spec e).1
      rw [Numeral.powerText, Option.elim_some, Numeral.exponentText_eq]
      split
      · exact .cons (by decide) (.cons (by decide) digits)
      · exact .cons (by decide) (.cons (by decide) digits)

theorem Printed.signed (negative : Bool) (h : Printed cs) : Printed (signed negative cs) := by
  cases negative with
  | false => exact h
  | true => exact .cons (by decide) h

theorem Printed.unit (n : Nat) : Printed (Text.unitEscape n) := by
  have digit (k : Nat) : (Nat.digitChar (k % 16)).toNat < 0x7F ∧ Nat.digitChar (k % 16) ≠ '\r' := by
    have all : ∀ d < 16, (Nat.digitChar d).toNat < 0x7F ∧ Nat.digitChar d ≠ '\r' := by decide
    exact all _ (Nat.mod_lt k (by decide))
  exact .cons (by decide) (.cons (by decide) (.cons (digit _) (.cons (digit _) (.cons (digit _) (.cons (digit _)
    .nil)))))

theorem Printed.escapedChar (c : Char) : Printed (escapedChar true c) := by
  have letter {e : Char} (plain : e.toNat < 0x7F ∧ e ≠ '\r') : Printed ['\\', e] :=
    .cons (by decide) (.cons plain .nil)
  unfold Json.escapedChar
  iterate 7
    split
    · exact letter (by decide)
  simp only [Bool.not_true, Bool.or_false, Bool.and_eq_true, decide_eq_true_eq]
  split
  · rename_i printed
    refine .cons ⟨printed.2, ?_⟩ .nil
    rintro rfl
    exact absurd printed.1 (by decide)
  split
  · exact .unit _
  · exact (Printed.unit _).append (.unit _)

theorem Printed.quotation (s : String) : Printed (quotation s) := by
  have inner (cs : List Char) : Printed (escapedChars true cs) := by
    induction cs with
    | nil => exact .nil
    | cons c rest ih =>
        rw [escapedChars]
        split
        · exact (Printed.unit _).append ih
        · exact (Printed.escapedChar c).append ih
  rw [Json.quotation, stringText, String.toList_ofList]
  exact .cons (by decide) ((inner _).append (.cons (by decide) .nil))

theorem Printed.margin (level : Nat) : Printed (margin level) := by
  refine .cons (by decide) fun c member => ?_
  rw [List.eq_of_mem_replicate member]
  decide

theorem Printed.float {x : Double} (spelled : x.Spelled) : Printed (floatText x).toList := by
  cases x with
  | nan mark =>
      rw [spelled rfl]
      exact .of_all _ (by decide)
  | infinite negative => cases negative <;> exact .of_all _ (by decide)
  | finite negative code finite =>
      rw [floatText_finite]
      exact (Printed.numeral (Double.numeral_read finite negative).1).signed negative

theorem Printed.items {items : List Value} (each : ∀ v ∈ items, ∀ level, Printed (transcript level v)) (level : Nat) :
    Printed (itemsTranscript level items) := by
  induction items with
  | nil => exact .nil
  | cons v rest ih =>
      obtain ⟨first, others⟩ := List.forall_mem_cons.mp each
      exact .cons (by decide) ((Printed.margin level).append ((first level).append (ih others)))

theorem Printed.entries {entries : Entries} (keys : ∀ e ∈ entries, ∃ k, e.1 = .text k)
    (each : ∀ e ∈ entries, ∀ level, Printed (transcript level e.2)) (level : Nat) :
    Printed (entriesTranscript level entries) := by
  induction entries with
  | nil => exact .nil
  | cons e rest ih =>
      obtain ⟨k, v⟩ := e
      obtain ⟨⟨s, rfl⟩, named⟩ := List.forall_mem_cons.mp keys
      obtain ⟨first, others⟩ := List.forall_mem_cons.mp each
      exact .cons (by decide) ((Printed.margin level).append ((Printed.quotation s).append
        (.cons (by decide) (.cons (by decide) ((first level).append (ih named others))))))

/-- What is written for a value is ASCII. -/
theorem Printed.transcript {v : Value} (readable : v.Readable) : ∀ level, Printed (transcript level v) := by
  induction readable with
  | @intro v here inside ih =>
      intro level
      cases v with
      | null => exact .of_all "null".toList (by decide)
      | bool b =>
          cases b with
          | false => exact .of_all "false".toList (by decide)
          | true => exact .of_all "true".toList (by decide)
      | int n =>
          have digits : ∀ c ∈ Nat.toDigits 10 n.natAbs, c.isDigit = true :=
            fun c => Nat.isDigit_of_mem_toDigits (by decide) (by decide)
          rw [Json.transcript, toString_int]
          exact (Printed.digits digits).signed _
      | float x => exact .float here
      | text s => exact .quotation s
      | list items =>
          cases items with
          | nil => exact .of_all ['[', ']'] (by decide)
          | cons v rest =>
              obtain ⟨first, others⟩ := List.forall_mem_cons.mp ih
              exact .cons (by decide) ((Printed.margin _).append ((first _).append ((Printed.items others _).append
                ((Printed.margin _).append (.of_all _ (by decide))))))
      | mapping entries =>
          cases entries with
          | nil => exact .of_all ['\x7b', '\x7d'] (by decide)
          | cons e rest =>
              obtain ⟨k, v⟩ := e
              obtain ⟨⟨s, rfl⟩, named⟩ := List.forall_mem_cons.mp here.1
              obtain ⟨first, others⟩ := List.forall_mem_cons.mp (Value.forall_children_mapping.mp ih)
              exact .cons (by decide) ((Printed.margin _).append ((Printed.quotation s).append (.cons (by decide)
                (.cons (by decide) ((first.2 _).append ((Printed.entries named (fun e member => (others e member).2)
                  _).append ((Printed.margin _).append (.of_all _ (by decide)))))))))
      | _ => exact here.elim

/-! ### Writing -/

section

variable {v : Value} {s : String} {level : Nat}

/-- A writer that appends a text and meets no fault. -/
def Writes (w : Writer Unit) (text : List Char) : Prop := ∀ s, w.run.run s = (.ok (), s ++ String.ofList text)

theorem Writes.piece (text : String) : Writes (put text) text.toList := by
  intro s
  rw [String.ofList_toList]
  rfl

theorem Writes.nothing : Writes (pure ()) [] := by
  intro s
  rw [String.ofList_nil, String.append_empty]
  rfl

/-- Writing one thing after the other. -/
theorem Writes.seq {first second : Writer Unit} {text more : List Char} (h : Writes first text)
    (h' : Writes second more) : Writes (do first; second) (text ++ more) := by
  intro s
  have parts : (do first; second : Writer Unit).run.run s = second.run.run (s ++ String.ofList text) := by
    simp only [ExceptT.run_bind, StateT.run_bind, h s]
    rfl
  rw [parts, h', String.ofList_append, String.append_assoc]

/-- A text that is there is taken as it is. -/
theorem Writes.taking {text : Except Fault String} (rest : String → Writer Unit) {more : List Char}
    (there : text = .ok s) (h : Writes (rest s) more) : Writes (do rest (← text)) more := by
  subst there
  exact h

theorem lineStart_eq (level : Nat) : (Layout.indented.lineStart level).toList = margin level := by
  simp [Layout.lineStart, Layout.indented, margin]

/-- A piece of text and the beginning of a line. -/
theorem Writes.line (piece : String) (level : Nat) :
    Writes (put (piece ++ Layout.indented.lineStart level)) (piece.toList ++ margin level) := by
  rw [← lineStart_eq, ← String.toList_append]
  exact .piece _

/-- The beginning of a line and a piece of text. -/
theorem Writes.closing (level : Nat) (piece : String) :
    Writes (put (Layout.indented.lineStart level ++ piece)) (margin level ++ piece.toList) := by
  rw [← lineStart_eq, ← String.toList_append]
  exact .piece _

/-- A key, and what is written behind it. -/
theorem Writes.keyed {second : Writer Unit} {more : List Char} (s : String) (h : Writes second more) :
    Writes (do put (stringText .indented (← keyText (.text s)) ++ Layout.indented.keyGap); second)
      (keyQuotation (.text s) ++ (':' :: ' ' :: more)) := by
  have text : (stringText .indented s ++ Layout.indented.keyGap).toList ++ more =
      keyQuotation (.text s) ++ (':' :: ' ' :: more) := by
    rw [String.toList_append, List.append_assoc]
    rfl
  rw [← text]
  exact .taking (fun key => do put (stringText .indented key ++ Layout.indented.keyGap); second) rfl
    ((Writes.piece _).seq h)

theorem Writes.items {items : List Value}
    (each : ∀ v ∈ items, ∀ level, Writes (write .indented refuse level v) (transcript level v)) (level : Nat) :
    Writes (writeItems .indented refuse level items) (itemsTranscript level items) := by
  induction items with
  | nil => exact .nothing
  | cons v rest ih =>
      obtain ⟨first, others⟩ := List.forall_mem_cons.mp each
      rw [writeItems, itemsTranscript, ← List.cons_append]
      exact (Writes.line "," level).seq ((first level).seq (ih others))

theorem Writes.entries {entries : Entries} (keys : ∀ e ∈ entries, ∃ k, e.1 = .text k)
    (each : ∀ e ∈ entries, ∀ level, Writes (write .indented refuse level e.2) (transcript level e.2)) (level : Nat) :
    Writes (writeEntries .indented refuse level entries) (entriesTranscript level entries) := by
  induction entries with
  | nil => exact .nothing
  | cons e rest ih =>
      obtain ⟨k, v⟩ := e
      obtain ⟨⟨s, rfl⟩, named⟩ := List.forall_mem_cons.mp keys
      obtain ⟨first, others⟩ := List.forall_mem_cons.mp each
      rw [writeEntries, entriesTranscript, ← List.cons_append]
      exact (Writes.line "," level).seq (.keyed s ((first level).seq (ih named others)))

/-- What is written for a value that a document can hold is its transcript. -/
theorem write_readable (readable : v.Readable) :
    ∀ level, Writes (write .indented refuse level v) (transcript level v) := by
  induction readable with
  | @intro v here inside ih =>
      intro level
      cases v with
      | null => exact .piece "null"
      | bool b => cases b <;> exact .piece _
      | int n => exact .taking put (integerText_short here) (.piece _)
      | float x => exact .piece _
      | text s => exact .piece _
      | list items =>
          cases items with
          | nil => exact .piece _
          | cons v rest =>
              obtain ⟨first, others⟩ := List.forall_mem_cons.mp ih
              rw [write, transcript, ← List.cons_append]
              exact (Writes.line "[" (level + 1)).seq ((first (level + 1)).seq
                ((Writes.items others (level + 1)).seq (.closing level "]")))
      | mapping entries =>
          cases entries with
          | nil => exact .piece _
          | cons e rest =>
              obtain ⟨k, v⟩ := e
              obtain ⟨⟨s, rfl⟩, named⟩ := List.forall_mem_cons.mp here.1
              obtain ⟨first, others⟩ := List.forall_mem_cons.mp (Value.forall_children_mapping.mp ih)
              rw [write, transcript, ← List.cons_append]
              exact (Writes.line "\x7b" (level + 1)).seq (.keyed s ((first.2 (level + 1)).seq
                ((Writes.entries named (fun e member => (others e member).2) (level + 1)).seq (.closing level "\x7d"))))
      | _ => exact here.elim

end

end Json

end BlockGraph
