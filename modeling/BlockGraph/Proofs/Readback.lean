import BlockGraph.Proofs.Transcripts
/-!
Reading along a transcript: space is passed over, each item is read where it stands, and what was read is the value
that was written. The fuel is the length of the text, and the levels are as many as the value has.
-/
namespace BlockGraph.Json

variable {v : Value} {cs rest more : List Char} {c : Char} {levels? : Option Nat} {level fuel k : Nat}

open Numeral (Stops)

/-! ### Space -/

theorem skipSpace_of (ink : isSpace c = false) : skipSpace (c :: cs) = c :: cs := by
  rw [skipSpace, List.dropWhile_cons, ink]
  rfl

theorem skipSpace_space : skipSpace (' ' :: cs) = skipSpace cs := by
  rw [skipSpace, List.dropWhile_cons]
  rfl

theorem skipSpace_margin (level : Nat) (cs : List Char) : skipSpace (margin level ++ cs) = skipSpace cs := by
  have spaces : ∀ c ∈ margin level, isSpace c = true := by
    intro c member
    rcases List.mem_cons.mp member with rfl | member
    · decide
    · rw [List.eq_of_mem_replicate member]
      decide
  exact List.dropWhile_append_of_pos spaces

theorem stops_of (digit : c.isDigit = false) (point : c ≠ '.') (small : c ≠ 'e') (large : c ≠ 'E') :
    Stops (c :: cs) := by
  intro d head
  obtain rfl := Option.some.inj head
  exact ⟨digit, point, small, large⟩

theorem stops_margin (level : Nat) (cs : List Char) : Stops (margin level ++ cs) :=
  stops_of (by decide) (by decide) (by decide) (by decide)

/-! ### Beginnings -/

/-- What begins a value: ink that does not close an array or an object. -/
def Begins (cs : List Char) : Prop := ∃ c more, cs = c :: more ∧ isSpace c = false ∧ c ≠ ']' ∧ c ≠ '\x7d'

theorem Begins.append (h : Begins cs) (more : List Char) : Begins (cs ++ more) := by
  obtain ⟨c, tail, rfl, ink⟩ := h
  exact ⟨c, tail ++ more, rfl, ink⟩

theorem Begins.skipSpace (h : Begins cs) : skipSpace cs = cs := by
  obtain ⟨c, tail, rfl, ink, -⟩ := h
  exact skipSpace_of ink

theorem begins_quotation (s : String) : Begins (quotation s) := by
  have opens : quotation s = '"' :: (escapedChars true s.toList ++ ['"']) := by
    rw [quotation, stringText, String.toList_ofList, List.cons_append]
    rfl
  exact ⟨'"', _, opens, by decide, by decide, by decide⟩

/-- What begins a word or a number. -/
def BeginsScalar (cs : List Char) : Prop :=
  ∃ c more, cs = c :: more ∧ (c.isDigit = true ∨ c ∈ ['-', 'N', 'I', 'n', 't', 'f'])

theorem ne_of_scalar {mark : Char} (scalar : c.isDigit = true ∨ c ∈ ['-', 'N', 'I', 'n', 't', 'f'])
    (other : mark.isDigit = false ∧ mark ∉ ['-', 'N', 'I', 'n', 't', 'f']) : c ≠ mark := by
  rintro rfl
  rcases scalar with digit | word
  · rw [digit] at other
    cases other.1
  · exact other.2 word

theorem BeginsScalar.begins (h : BeginsScalar cs) : Begins cs := by
  obtain ⟨c, more, rfl, scalar⟩ := h
  refine ⟨c, more, rfl, ?_, ne_of_scalar scalar (by decide), ne_of_scalar scalar (by decide)⟩
  simp only [isSpace, Bool.or_eq_false_iff, beq_eq_false_iff_ne]
  exact ⟨⟨⟨ne_of_scalar scalar (by decide), ne_of_scalar scalar (by decide)⟩, ne_of_scalar scalar (by decide)⟩,
    ne_of_scalar scalar (by decide)⟩

/-- What begins neither a string nor an array nor an object is a word or a number. -/
theorem value_scalar (h : BeginsScalar cs) : value levels? (fuel + 1) (cs ++ rest) = scalar (cs ++ rest) := by
  obtain ⟨c, more, rfl, scalar⟩ := h
  rw [List.cons_append, value]
  · exact fun tail same => ne_of_scalar scalar (by decide) (List.cons.inj same).1
  · exact fun tail same => ne_of_scalar scalar (by decide) (List.cons.inj same).1
  · exact fun tail same => ne_of_scalar scalar (by decide) (List.cons.inj same).1

theorem begins_signed (negative : Bool) (digit : c.isDigit = true) : BeginsScalar (signed negative (c :: cs)) := by
  cases negative with
  | false => exact ⟨c, cs, rfl, .inl digit⟩
  | true => exact ⟨'-', c :: cs, rfl, by decide⟩

theorem begins_float {x : Double} (spelled : x.Spelled) : BeginsScalar (floatText x).toList := by
  cases x with
  | nan mark =>
      rw [spelled rfl]
      exact ⟨'N', ['a', 'N'], rfl, by decide⟩
  | infinite negative =>
      cases negative with
      | false => exact ⟨'I', _, rfl, by decide⟩
      | true => exact ⟨'-', _, rfl, by decide⟩
  | finite negative code finite =>
      obtain ⟨d, tail, whole, digit⟩ := (Double.numeral_read finite negative).1.text_leads
      rw [floatText_finite, whole]
      exact begins_signed negative digit

theorem begins_int (n : Int) : BeginsScalar (toString n).toList := by
  obtain ⟨d, tail, same, digit⟩ := toDigits_digit n.natAbs
  rw [toString_int, same]
  exact begins_signed _ digit

theorem transcript_begins (readable : v.Readable) (level : Nat) : Begins (transcript level v) := by
  cases v with
  | null => exact ⟨'n', _, rfl, by decide, by decide, by decide⟩
  | bool b =>
      cases b with
      | false => exact ⟨'f', _, rfl, by decide, by decide, by decide⟩
      | true => exact ⟨'t', _, rfl, by decide, by decide, by decide⟩
  | int n => exact (begins_int n).begins
  | float x => exact (begins_float readable.here).begins
  | text s => exact begins_quotation s
  | list items =>
      cases items with
      | nil => exact ⟨'[', _, rfl, by decide, by decide, by decide⟩
      | cons v rest => exact ⟨'[', _, rfl, by decide, by decide, by decide⟩
  | mapping entries =>
      cases entries with
      | nil => exact ⟨'\x7b', _, rfl, by decide, by decide, by decide⟩
      | cons e rest => exact ⟨'\x7b', _, rfl, by decide, by decide, by decide⟩
  | _ => exact readable.here.elim

/-! ### Levels -/

/-- The levels that are left are as many as needed. -/
def Fits (levels? : Option Nat) (depth : Nat) : Prop := ∀ n, levels? = some n → depth ≤ n

theorem Fits.mono {deep : Nat} (h : Fits levels? deep) (less : k ≤ deep) : Fits levels? k :=
  fun n same => less.trans (h n same)

theorem Fits.below (h : Fits levels? (k + 1)) (d : Descent) :
    ∃ inner?, below d levels? = .ok inner? ∧ Fits inner? k := by
  rcases levels? with _ | _ | n
  · exact ⟨none, rfl, fun n same => by cases same⟩
  · exact absurd (h 0 rfl) (by omega)
  · refine ⟨some n, rfl, fun m same => ?_⟩
    have := h (n + 1) rfl
    cases same
    omega

/-! ### Reading -/

/-- A value is read of its transcript, when the levels and the fuel suffice and something ends it. -/
def ReadsBack (v : Value) : Prop := ∀ level levels? fuel rest, Fits levels? v.depth →
  (transcript level v).length ≤ fuel → Stops rest → value levels? fuel (transcript level v ++ rest) = .ok (v, rest)

/-- Behind a comma and the beginning of a line. -/
theorem skipSpace_next (begins : Begins cs) (level : Nat) : skipSpace (margin level ++ (cs ++ more)) = cs ++ more := by
  rw [skipSpace_margin, (begins.append more).skipSpace]

/-- The items of an array are read up to its closing bracket. -/
theorem elements_transcript (items done : List Value) (k fuel : Nat) (rest : List Char) (first : ReadsBack v)
    (others : ∀ u ∈ items, ReadsBack u) (begins : ∀ u ∈ items, Begins (transcript level u))
    (fits : Fits levels? v.depth) (fits' : Fits levels? (Value.itemsDepth items))
    (enough : (transcript level v).length + (itemsTranscript level items).length < fuel) :
    elements levels? fuel done
        (transcript level v ++ (itemsTranscript level items ++ (margin k ++ (']' :: rest)))) =
      .ok (done.reverse ++ v :: items, rest) := by
  induction items generalizing v done fuel with
  | nil =>
      obtain ⟨fuel, rfl⟩ : ∃ f, fuel = f + 1 := ⟨fuel - 1, by omega⟩
      have read := first level levels? fuel (margin k ++ (']' :: rest)) fits (by omega) (stops_margin k _)
      have closes : skipSpace (margin k ++ (']' :: rest)) = ']' :: rest := by
        rw [skipSpace_margin, skipSpace_of (by decide)]
      rw [itemsTranscript, List.nil_append, elements, read]
      simp [bind, Except.bind, closes, pure, Except.pure]
  | cons u items ih =>
      obtain ⟨fuel, rfl⟩ : ∃ f, fuel = f + 1 := ⟨fuel - 1, by omega⟩
      rw [itemsTranscript, List.length_cons, List.length_append, List.length_append] at enough
      obtain ⟨next, behind⟩ := List.forall_mem_cons.mp others
      obtain ⟨opens, open'⟩ := List.forall_mem_cons.mp begins
      have follow := ih (v :: done) fuel next behind open' (fits'.mono (Nat.le_max_left _ _))
        (fits'.mono (Nat.le_max_right _ _)) (by omega)
      have read := first level levels? fuel (itemsTranscript level (u :: items) ++ (margin k ++ (']' :: rest))) fits
        (by omega) (by rw [itemsTranscript]; exact stops_of (by decide) (by decide) (by decide) (by decide))
      rw [elements, read]
      rw [itemsTranscript]
      simp only [List.cons_append, List.append_assoc]
      simp [bind, Except.bind, skipSpace_of (show isSpace ',' = false by decide), skipSpace_next opens, follow]

theorem quotation_opens (s : String) : ∃ more, quotation s = '"' :: more := by
  refine ⟨escapedChars true s.toList ++ ['"'], ?_⟩
  rw [quotation, stringText, String.toList_ofList, List.cons_append]
  rfl

/-- A member of an object is read: its key, the colon and its value. -/
theorem members_step {done : Entries} {s : String} (first : ReadsBack v) (begins : Begins (transcript level v))
    (fits : Fits levels? v.depth) (enough : (transcript level v).length ≤ fuel) (stops : Stops rest) :
    (∀ tail, skipSpace rest = '\x7d' :: tail →
      members levels? (fuel + 1) done (quotation s ++ (':' :: ' ' :: (transcript level v ++ rest))) =
        .ok (((.text s, v) :: done).reverse, tail)) ∧
      ∀ tail, skipSpace rest = ',' :: tail →
        members levels? (fuel + 1) done (quotation s ++ (':' :: ' ' :: (transcript level v ++ rest))) =
          members levels? fuel ((.text s, v) :: done) (skipSpace tail) := by
  have key := string_stringText .indented rfl s (':' :: ' ' :: (transcript level v ++ rest))
  have read := first level levels? fuel rest fits enough stops
  have colon : skipSpace (':' :: ' ' :: (transcript level v ++ rest)) = ':' :: ' ' :: (transcript level v ++ rest) :=
    skipSpace_of (by decide)
  have gap : skipSpace (' ' :: (transcript level v ++ rest)) = transcript level v ++ rest := by
    rw [skipSpace_space, (begins.append rest).skipSpace]
  obtain ⟨more, opens⟩ := quotation_opens s
  change string (quotation s ++ _) = _ at key
  rw [opens, List.cons_append] at key ⊢
  rw [members, key]
  simp only [bind, Except.bind, colon, gap, read, pure, Except.pure]
  constructor
  · intro tail closes
    simp only [closes]
  · intro tail goes
    simp only [goes]

/-- The members of an object are read up to its closing brace. -/
theorem members_transcript (entries done : Entries) (s : String) (v : Value) (k fuel : Nat) (rest : List Char)
    (first : ReadsBack v) (keys : ∀ e ∈ entries, ∃ k, e.1 = .text k) (others : ∀ e ∈ entries, ReadsBack e.2)
    (begins : Begins (transcript level v)) (begins' : ∀ e ∈ entries, Begins (transcript level e.2))
    (fits : Fits levels? v.depth) (fits' : Fits levels? (Value.entriesDepth entries))
    (enough : (transcript level v).length + (entriesTranscript level entries).length < fuel) :
    members levels? fuel done (quotation s ++ (':' :: ' ' :: (transcript level v ++
        (entriesTranscript level entries ++ (margin k ++ ('\x7d' :: rest)))))) =
      .ok (done.reverse ++ (.text s, v) :: entries, rest) := by
  induction entries generalizing v done fuel s with
  | nil =>
      obtain ⟨fuel, rfl⟩ : ∃ f, fuel = f + 1 := ⟨fuel - 1, by omega⟩
      have closes : skipSpace (margin k ++ ('\x7d' :: rest)) = '\x7d' :: rest := by
        rw [skipSpace_margin, skipSpace_of (by decide)]
      rw [entriesTranscript, List.nil_append,
        (members_step first begins fits (by omega) (stops_margin k _)).1 rest closes]
      simp
  | cons e entries ih =>
      obtain ⟨fuel, rfl⟩ : ∃ f, fuel = f + 1 := ⟨fuel - 1, by omega⟩
      obtain ⟨key, u⟩ := e
      obtain ⟨⟨t, rfl⟩, named⟩ := List.forall_mem_cons.mp keys
      obtain ⟨next, behind⟩ := List.forall_mem_cons.mp others
      obtain ⟨opens, open'⟩ := List.forall_mem_cons.mp begins'
      rw [entriesTranscript, List.length_cons, List.length_append, List.length_append, List.length_cons,
        List.length_cons, List.length_append] at enough
      have deep : u.depth ≤ Value.entriesDepth ((.text t, u) :: entries) := by
        rw [Value.entriesDepth]
        omega
      have deep' : Value.entriesDepth entries ≤ Value.entriesDepth ((.text t, u) :: entries) := by
        rw [Value.entriesDepth]
        omega
      have follow := ih ((.text s, v) :: done) t u fuel next named behind opens open' (fits'.mono deep)
        (fits'.mono deep') (by omega)
      have stops : Stops (entriesTranscript level ((.text t, u) :: entries) ++ (margin k ++ ('\x7d' :: rest))) := by
        rw [entriesTranscript]
        exact stops_of (by decide) (by decide) (by decide) (by decide)
      have comma : skipSpace (entriesTranscript level ((.text t, u) :: entries) ++ (margin k ++ ('\x7d' :: rest))) =
          ',' :: (margin level ++ (quotation t ++ (':' :: ' ' :: (transcript level u ++
            (entriesTranscript level entries ++ (margin k ++ ('\x7d' :: rest))))))) := by
        rw [entriesTranscript, List.cons_append, skipSpace_of (by decide)]
        simp [keyQuotation]
      rw [(members_step first begins fits (by omega) stops).2 _ comma, skipSpace_next (begins_quotation t), follow]
      simp

/-- Entries with texts for keys, each once, are what they make when they are written one after the other. -/
theorem ofPairs_distinct {entries : Entries} (keys : ∀ e ∈ entries, ∃ k, e.1 = .text k)
    (distinct : entries.Pairwise fun e f => e.1 ≠ f.1) : Entries.ofPairs entries = entries := by
  have written (done : Entries) (apart : ∀ e ∈ entries, ∀ d ∈ done, d.1 ≠ e.1) :
      entries.foldl (fun entries e => Entries.write entries e.1 e.2) done = done ++ entries := by
    induction entries generalizing done with
    | nil => rw [List.foldl_nil, List.append_nil]
    | cons e rest ih =>
        obtain ⟨k, v⟩ := e
        obtain ⟨⟨s, rfl⟩, named⟩ := List.forall_mem_cons.mp keys
        obtain ⟨first, others⟩ := List.pairwise_cons.mp distinct
        obtain ⟨here, there⟩ := List.forall_mem_cons.mp apart
        have fresh : ∀ d ∈ done, d.1.isSameItem (.text s) = false := fun d member => by
          rw [Bool.eq_false_iff, ne_eq, Value.isSameItem_text]
          exact here d member
        rw [List.foldl_cons, Entries.write_fresh fresh, ih named others, List.append_assoc, List.singleton_append]
        intro e member d among
        rcases List.mem_append.mp among with old | new
        · exact there e member d old
        · rw [List.mem_singleton.mp new]
          exact first e member
  exact written [] fun _ _ _ none => absurd none List.not_mem_nil

section

variable {inner? : Option Nat} {tail : List Char}

theorem value_array {items : List Value} (inside : below .readingArray levels? = .ok inner?)
    (opens : skipSpace tail = cs) (begins : Begins cs) (read : elements inner? fuel [] cs = .ok (items, rest)) :
    value levels? (fuel + 1) ('[' :: tail) = .ok (.list items, rest) := by
  obtain ⟨c, more, rfl, -, bracket, -⟩ := begins
  rw [value, inside]
  simp only [bind, Except.bind, opens]
  split
  · exact absurd (List.cons.inj ‹_›).1 bracket
  · rw [read]
    rfl

theorem value_object {pairs : Entries} (inside : below .readingObject levels? = .ok inner?)
    (opens : skipSpace tail = cs) (begins : Begins cs) (read : members inner? fuel [] cs = .ok (pairs, rest)) :
    value levels? (fuel + 1) ('\x7b' :: tail) = .ok (.mapping (Entries.ofPairs pairs), rest) := by
  obtain ⟨c, more, rfl, -, -, brace⟩ := begins
  rw [value, inside]
  simp only [bind, Except.bind, opens]
  split
  · exact absurd (List.cons.inj ‹_›).1 brace
  · rw [read]
    rfl

end

/-- An array is read when its items are. -/
theorem readsBack_list {items : List Value} (readable : ∀ u ∈ items, u.Readable) (each : ∀ u ∈ items, ReadsBack u) :
    ReadsBack (.list items) := by
  intro level levels? fuel rest fits enough stops
  obtain ⟨inner?, inside, left⟩ := Fits.below (k := Value.itemsDepth items) fits .readingArray
  cases items with
  | nil =>
      obtain ⟨fuel, rfl⟩ : ∃ f, fuel = f + 1 := ⟨fuel - 1, by simp [transcript] at enough; omega⟩
      have closes : skipSpace (']' :: rest) = ']' :: rest := skipSpace_of (by decide)
      rw [transcript, List.cons_append, List.singleton_append, value, inside]
      simp only [bind, Except.bind, closes]
      rfl
  | cons u items =>
      obtain ⟨first, others⟩ := List.forall_mem_cons.mp each
      obtain ⟨begins, begins'⟩ :=
        List.forall_mem_cons.mp fun u member => transcript_begins (readable u member) (level + 1)
      rw [transcript] at enough ⊢
      simp only [List.length_cons, List.length_append] at enough
      obtain ⟨fuel, rfl⟩ : ∃ f, fuel = f + 1 := ⟨fuel - 1, by omega⟩
      have read := elements_transcript items [] level fuel rest first others begins'
        (left.mono (Nat.le_max_left _ _)) (left.mono (Nat.le_max_right _ _)) (by omega)
      simp only [List.cons_append, List.append_assoc]
      exact value_array inside (skipSpace_next begins _) (begins.append _) read

/-- An object is read when the values of its entries are. -/
theorem readsBack_mapping {entries : Entries} (keys : ∀ e ∈ entries, ∃ k, e.1 = .text k)
    (distinct : entries.Pairwise fun e f => e.1 ≠ f.1) (readable : ∀ e ∈ entries, e.2.Readable)
    (each : ∀ e ∈ entries, ReadsBack e.2) : ReadsBack (.mapping entries) := by
  intro level levels? fuel rest fits enough stops
  obtain ⟨inner?, inside, left⟩ := Fits.below (k := Value.entriesDepth entries) fits .readingObject
  cases entries with
  | nil =>
      obtain ⟨fuel, rfl⟩ : ∃ f, fuel = f + 1 := ⟨fuel - 1, by simp [transcript] at enough; omega⟩
      have closes : skipSpace ('\x7d' :: rest) = '\x7d' :: rest := skipSpace_of (by decide)
      rw [transcript, List.cons_append, List.singleton_append, value, inside]
      simp only [bind, Except.bind, closes]
      rfl
  | cons e entries =>
      obtain ⟨key, u⟩ := e
      obtain ⟨⟨s, rfl⟩, named⟩ := List.forall_mem_cons.mp keys
      obtain ⟨first, others⟩ := List.forall_mem_cons.mp each
      obtain ⟨begins, begins'⟩ :=
        List.forall_mem_cons.mp fun e member => transcript_begins (readable e member) (level + 1)
      rw [transcript] at enough ⊢
      simp only [List.length_cons, List.length_append] at enough
      obtain ⟨fuel, rfl⟩ : ∃ f, fuel = f + 1 := ⟨fuel - 1, by omega⟩
      have deep : u.depth ≤ Value.entriesDepth ((.text s, u) :: entries) := by
        rw [Value.entriesDepth]
        omega
      have deep' : Value.entriesDepth entries ≤ Value.entriesDepth ((.text s, u) :: entries) := by
        rw [Value.entriesDepth]
        omega
      have read := members_transcript entries [] s u level fuel rest first named others begins
        begins' (left.mono deep) (left.mono deep') (by omega)
      simp only [List.cons_append, List.append_assoc]
      have whole := value_object inside (skipSpace_next (begins_quotation s) (level + 1))
        ((begins_quotation s).append _) read
      rw [List.reverse_nil, List.nil_append, ofPairs_distinct keys distinct] at whole
      exact whole

/-- Where there is anything to read, there is fuel. -/
theorem Begins.fuelled {text : List Char} (h : Begins text) (enough : text.length ≤ fuel) : ∃ f, fuel = f + 1 := by
  obtain ⟨c, tail, rfl, -⟩ := h
  rw [List.length_cons] at enough
  exact ⟨fuel - 1, by omega⟩

theorem readsBack_text (s : String) : ReadsBack (.text s) := by
  intro level levels? fuel rest fits enough stops
  obtain ⟨fuel, rfl⟩ := (begins_quotation s).fuelled enough
  have read := string_stringText .indented rfl s rest
  change string (quotation s ++ rest) = _ at read
  change value levels? (fuel + 1) (quotation s ++ rest) = _
  obtain ⟨more, opens⟩ := quotation_opens s
  rw [opens, List.cons_append] at read ⊢
  rw [value, read]
  rfl

theorem readsBack_scalar (begins : ∀ level, BeginsScalar (transcript level v))
    (read : ∀ level rest, Stops rest → scalar (transcript level v ++ rest) = .ok (v, rest)) : ReadsBack v := by
  intro level levels? fuel rest fits enough stops
  obtain ⟨fuel, rfl⟩ := (begins level).begins.fuelled enough
  exact (value_scalar (begins level)).trans (read level rest stops)

/-- A value that a document can hold is read of its transcript. -/
theorem readsBack (readable : v.Readable) : ReadsBack v := by
  induction readable with
  | @intro v here inside ih =>
      cases v with
      | null => exact readsBack_scalar (fun _ => ⟨'n', _, rfl, by decide⟩) fun _ _ _ => rfl
      | bool b =>
          cases b with
          | false => exact readsBack_scalar (fun _ => ⟨'f', _, rfl, by decide⟩) fun _ _ _ => rfl
          | true => exact readsBack_scalar (fun _ => ⟨'t', _, rfl, by decide⟩) fun _ _ _ => rfl
      | int n => exact readsBack_scalar (fun _ => begins_int n) fun _ _ => scalar_int here
      | float x => exact readsBack_scalar (fun _ => begins_float here) fun _ _ => scalar_float here
      | text s => exact readsBack_text s
      | list items => exact readsBack_list inside ih
      | mapping entries =>
          have each := Value.forall_children_mapping.mp ih
          have readable := Value.forall_children_mapping.mp inside
          exact readsBack_mapping here.1 here.2 (fun e member => (readable e member).2)
            fun e member => (each e member).2
      | _ => exact here.elim

/-! ### Whole texts -/

/-- What is written for a value is read as the value, when the levels suffice. -/
theorem readWithin_transcript (readable : v.Readable) (fits : Fits levels? v.depth) :
    readWithin levels? (String.ofList (transcript 0 v)) = .ok v := by
  have begins := transcript_begins readable 0
  have printed := Printed.transcript readable 0
  have whole := readsBack readable 0 levels? (2 * (transcript 0 v).length + 2) [] fits (by omega) .nil
  rw [List.append_nil] at whole
  have unmarked : ((transcript 0 v).head? == some '\uFEFF') = false := by
    obtain ⟨c, tail, starts, -⟩ := begins
    rw [starts] at printed ⊢
    have ascii := (List.forall_mem_cons.mp printed).1.1
    rw [List.head?_cons, beq_eq_false_iff_ne, ne_eq, Option.some.injEq]
    rintro rfl
    exact absurd ascii (by decide)
  have read : readChars levels? (transcript 0 v) = .ok v := by
    rw [readChars, unmarked, begins.skipSpace]
    simp only [Bool.false_eq_true, if_false, bind, Except.bind, whole]
    rfl
  simp only [readWithin, String.toList_ofList, read]

/-- There is one kind of line break in what is written. -/
theorem unifiedBreaks_printed (h : Printed cs) : Text.unifiedBreaks cs = cs := by
  induction cs with
  | nil => rfl
  | cons c rest ih =>
      obtain ⟨⟨-, plain⟩, others⟩ := List.forall_mem_cons.mp h
      rw [Text.unifiedBreaks, ih others]
      · exact fun tail same => absurd same plain
      · exact plain

end BlockGraph.Json
