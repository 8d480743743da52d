import BlockGraph.Proofs.Documents
import BlockGraph.Proofs.Readback
/-!
Saving a program and loading it again. What is read of a text can be written, and so can the program that a document
describes; what is written of it is read as the same program.
-/
namespace BlockGraph

/-! ### Values that a document can hold -/

namespace Value

variable {v : Value} {entries : Entries}

theorem Every.leaf {p : Value → Prop} (here : p v) (bare : v.children = []) : v.Every p := by
  refine .intro here ?_
  rw [bare]
  exact List.forall_mem_nil _

theorem Readable.ofText (s : String) : (Value.text s).Readable := .leaf trivial rfl

theorem Readable.ofItems {items : List Value} (h : ∀ v ∈ items, v.Readable) : (Value.list items).Readable :=
  .intro trivial h

theorem Readable.ofEntries (keys : ∀ e ∈ entries, ∃ k, e.1 = .text k)
    (distinct : entries.Pairwise fun e f => e.1 ≠ f.1) (each : ∀ e ∈ entries, e.2.Readable) :
    (Value.mapping entries).Readable := by
  refine .intro ⟨keys, distinct⟩ (Value.forall_children_mapping.mpr fun e member => ⟨?_, each e member⟩)
  obtain ⟨k, key⟩ := keys e member
  exact key ▸ Readable.ofText k

theorem Readable.json (h : v.Readable) : v.IsJson := by
  refine h.imp fun u readable => ?_
  cases u with
  | mapping entries => exact readable.1
  | tuple _ | set _ | frozenset _ | foreign _ => exact readable
  | _ => trivial

theorem Readable.under (h : (Value.mapping entries).Readable) {key : String}
    (found : Entries.field? entries key = some v) : v.Readable :=
  h.inside _ (Value.mem_children_mapping (Value.mem_of_field? found)).2

end Value

/-! ### What is read of a text -/

theorem Double.Spelled.of_number {x : Double} (number : x.isNan = false) : x.Spelled := by
  intro nan
  rw [number] at nan
  cases nan

namespace Number

theorem digitsValue_lt {cs : List Char} (digits : ∀ c ∈ cs, c.isDigit = true) : digitsValue cs < 10 ^ cs.length := by
  induction cs using List.reverseRecOn with
  | nil => decide
  | append_singleton cs c ih =>
      obtain ⟨front, last⟩ := List.forall_mem_append.mp digits
      have few := ih front
      have digit : c.toNat ≤ 57 := (Char.isDigit_iff_toNat.mp (last c (List.mem_singleton.mpr rfl))).2
      have value : digitsValue (cs ++ [c]) = 10 * digitsValue cs + (c.toNat - 0x30) := by
        rw [digitsValue, List.foldl_append]
        rfl
      rw [value, List.length_append, List.length_singleton, Nat.pow_succ]
      omega

theorem ofCode_number (negative : Bool) (code : Nat) : (Double.ofCode negative code).isNan = false := by
  unfold Double.ofCode
  split <;> rfl

/-- What is nearest to a decimal is a number. -/
theorem scaledDouble_number (negative : Bool) (digits : Nat) (exponent : Int) :
    (scaledDouble negative digits exponent).isNan = false := by
  unfold scaledDouble
  split
  · exact ofCode_number _ _
  · simp only
    split
    · rfl
    split
    · exact ofCode_number _ _
    split
    · exact ofCode_number _ _
    · exact ofCode_number _ _

theorem decimal?_number {negative : Bool} {cs : List Char} {x : Double} (h : decimal? negative cs = some x) :
    x.isNan = false := by
  have made (whole fraction power : List Char) (h : (if whole.isEmpty && fraction.isEmpty then none else do
      let exponent ← exponent? power
      some (scaledDouble negative (digitsValue (whole ++ fraction)) (exponent - fraction.length))) = some x) :
      x.isNan = false := by
    split at h
    · cases h
    · obtain ⟨e, -, made⟩ := Option.bind_eq_some_iff.mp h
      rw [← Option.some.inj made]
      exact scaledDouble_number _ _ _
  exact made _ _ _ h

end Number

namespace Json

variable {levels? : Option Nat} {fuel start : Nat} {negative : Bool} {cs rest : List Char} {v : Value}

theorem splitWhole_digits (cs : List Char) : ∀ c ∈ (splitWhole cs).1, c.isDigit = true := by
  unfold splitWhole
  split
  · exact List.forall_mem_singleton.mpr (by decide)
  · exact fun c member => List.all_eq_true.mp List.all_takeWhile c member

theorem unsignedNumber_readable (h : unsignedNumber negative start cs = .ok (v, rest)) : v.Readable := by
  have digits := splitWhole_digits cs
  unfold unsignedNumber at h
  generalize splitWhole cs = split at h digits
  obtain ⟨whole, behind⟩ := split
  simp only at h digits
  split at h
  · cases h
  split at h
  · split at h
    · cases h
    · rename_i few
      obtain ⟨k, bound, limit⟩ := digitBound_eq
      have less : Number.digitsValue whole < digitBound := by
        rw [bound]
        refine (Number.digitsValue_lt digits).trans_le (Nat.pow_le_pow_right (by decide) ?_)
        omega
      cases h
      refine .leaf ?_ rfl
      change (if negative then -(Number.digitsValue whole : Int) else Number.digitsValue whole).natAbs < digitBound
      split
      · rwa [Int.natAbs_neg, Int.natAbs_natCast]
      · rwa [Int.natAbs_natCast]
  · split at h
    · rename_i x made
      cases h
      have number := Number.decimal?_number made
      exact .leaf (Double.Spelled.of_number number) rfl
    · cases h

theorem scalar_readable (h : scalar cs = .ok (v, rest)) : v.Readable := by
  unfold scalar at h
  split at h
  · rename_i word u found
    cases h
    have member := List.mem_of_find?_eq_some found
    simp only [words, List.mem_cons, Prod.mk.injEq, List.not_mem_nil, or_false] at member
    rcases member with ⟨-, rfl⟩ | ⟨-, rfl⟩ | ⟨-, rfl⟩ | ⟨-, rfl⟩ | ⟨-, rfl⟩ | ⟨-, rfl⟩
    · exact .leaf trivial rfl
    · exact .leaf trivial rfl
    · exact .leaf trivial rfl
    · exact .leaf (fun _ => rfl) rfl
    · exact .leaf (Double.Spelled.of_number rfl) rfl
    · exact .leaf (Double.Spelled.of_number rfl) rfl
  · split at h
    · exact unsignedNumber_readable h
    · split at h
      · exact unsignedNumber_readable h
      · cases h
    · cases h

/-- Members that were read have texts for keys, and values that can be written. -/
def Members (pairs : List (Value × Value)) : Prop := ∀ e ∈ pairs, (∃ k, e.1 = .text k) ∧ e.2.Readable

/-- Whatever is written into entries with texts for keys, each once, they stay such entries. -/
theorem ofPairs_readable {pairs : List (Value × Value)} (h : Members pairs) :
    (Value.mapping (Entries.ofPairs pairs)).Readable := by
  have written (done : Entries) (there : Members done) (apart : done.Pairwise fun e f => e.1 ≠ f.1) :
      Members (pairs.foldl (fun entries e => Entries.write entries e.1 e.2) done) ∧
        (pairs.foldl (fun entries e => Entries.write entries e.1 e.2) done).Pairwise fun e f => e.1 ≠ f.1 := by
    induction pairs generalizing done with
    | nil => exact ⟨there, apart⟩
    | cons e rest ih =>
        obtain ⟨key, v⟩ := e
        obtain ⟨⟨⟨k, rfl⟩, readable⟩, others⟩ := List.forall_mem_cons.mp h
        rw [List.foldl_cons]
        refine ih others _ ?_ ?_
        · unfold Entries.write
          split
          · intro e member
            obtain ⟨d, old, rfl⟩ := List.mem_map.mp member
            split
            · exact ⟨(there d old).1, readable⟩
            · exact there d old
          · exact List.forall_mem_append.mpr ⟨there, List.forall_mem_singleton.mpr ⟨⟨k, rfl⟩, readable⟩⟩
        · unfold Entries.write
          split
          · refine List.pairwise_map.mpr (apart.imp fun differ => ?_)
            split <;> split <;> exact differ
          · rename_i fresh
            refine List.pairwise_append.mpr ⟨apart, List.pairwise_singleton _ _, fun e member f last same => ?_⟩
            rw [List.mem_singleton.mp last] at same
            exact fresh (List.any_eq_true.mpr ⟨e, member, Value.isSameItem_text.mpr same⟩)
  obtain ⟨each, distinct⟩ := written [] (List.forall_mem_nil _) .nil
  exact .ofEntries (fun e member => (each e member).1) distinct fun e member => (each e member).2

/-- What reading yields with so much fuel can be written. -/
structure Yields (fuel : Nat) : Prop where
  value : ∀ {levels? cs v rest}, value levels? fuel cs = .ok (v, rest) → v.Readable
  elements : ∀ {levels? done cs items rest}, elements levels? fuel done cs = .ok (items, rest) →
    (∀ u ∈ done, u.Readable) → ∀ u ∈ items, u.Readable
  members : ∀ {levels? done cs pairs rest}, members levels? fuel done cs = .ok (pairs, rest) →
    Members done → Members pairs

theorem value_yields (h : Yields fuel) (read : value levels? (fuel + 1) cs = .ok (v, rest)) : v.Readable := by
  unfold value at read
  split at read
  · obtain ⟨⟨s, behind⟩, -, made⟩ := Value.bind_ok read
    cases made
    exact .ofText s
  · obtain ⟨inner?, -, made⟩ := Value.bind_ok read
    split at made
    · cases made
      exact .ofItems (List.forall_mem_nil _)
    · obtain ⟨⟨items, behind⟩, inside, made⟩ := Value.bind_ok made
      cases made
      exact .ofItems (h.elements inside (List.forall_mem_nil _))
  · obtain ⟨inner?, -, made⟩ := Value.bind_ok read
    split at made
    · cases made
      exact .ofEntries (List.forall_mem_nil _) .nil (List.forall_mem_nil _)
    · obtain ⟨⟨pairs, behind⟩, inside, made⟩ := Value.bind_ok made
      cases made
      exact ofPairs_readable (h.members inside (List.forall_mem_nil _))
  · exact scalar_readable read

theorem elements_yields (h : Yields fuel) {done items : List Value} (old : ∀ u ∈ done, u.Readable)
    (read : elements levels? (fuel + 1) done cs = .ok (items, rest)) : ∀ u ∈ items, u.Readable := by
  unfold elements at read
  obtain ⟨⟨v, behind⟩, first, read⟩ := Value.bind_ok read
  dsimp only at read
  have all : ∀ u ∈ v :: done, u.Readable := List.forall_mem_cons.mpr ⟨h.value first, old⟩
  split at read
  · cases read
    exact fun u member => all u (List.mem_reverse.mp member)
  · exact h.elements read all
  · cases read

theorem members_yields (h : Yields fuel) {done pairs : Entries} (old : Members done)
    (read : members levels? (fuel + 1) done cs = .ok (pairs, rest)) : Members pairs := by
  unfold members at read
  split at read
  · obtain ⟨⟨key, behind⟩, -, read⟩ := Value.bind_ok read
    dsimp only at read
    split at read
    · obtain ⟨⟨v, behind⟩, first, read⟩ := Value.bind_ok read
      dsimp only at read
      have all : Members ((.text key, v) :: done) := List.forall_mem_cons.mpr ⟨⟨⟨key, rfl⟩, h.value first⟩, old⟩
      split at read
      · cases read
        exact fun e member => all e (List.mem_reverse.mp member)
      · exact h.members read all
      · cases read
    · cases read
  · cases read

theorem yields (fuel : Nat) : Yields fuel := by
  induction fuel with
  | zero =>
      refine ⟨fun read => ?_, fun read => ?_, fun read => ?_⟩
      · rw [value] at read
        cases read
      · rw [elements] at read
        cases read
      · rw [members] at read
        cases read
  | succ fuel ih => exact ⟨value_yields ih, fun read old => elements_yields ih old read,
      fun read old => members_yields ih old read⟩

/-- Whatever is read of a text can be written. -/
theorem readWithin_readable {text : String} (h : readWithin levels? text = .ok v) : v.Readable := by
  unfold readWithin at h
  simp only at h
  split at h
  · rename_i u read
    cases h
    unfold readChars at read
    split at read
    · cases read
    · obtain ⟨⟨u, behind⟩, inside, made⟩ := Value.bind_ok read
      dsimp only at made
      split at made
      · cases made
        exact (yields _).value inside
      · cases made
  · cases h
  · cases h

end Json

/-! ### What is written of a program -/

namespace Value

variable {v : Value} {n : Number}

theorem plainNumber?_eq (h : v.plainNumber? = some n) : v = ofNumber n := by
  cases v with
  | int _ | float _ => cases h; rfl
  | _ => cases h

theorem Readable.orEmpty (h : v.Readable) : v.orEmpty.Readable := by
  unfold Value.orEmpty
  split
  · exact h
  · exact .ofEntries (List.forall_mem_nil _) .nil (List.forall_mem_nil _)

theorem Readable.field {entries : Entries} (h : (Value.mapping entries).Readable) (key : String) :
    (Entries.field entries key).Readable := by
  rw [Entries.field]
  cases found : Entries.field? entries key with
  | none => exact .leaf trivial rfl
  | some v => exact h.under found

end Value

namespace Element

variable {e : Element} {v id type x y props : Value}

theorem readable_toValue (place : (Value.ofNumber e.x).Readable) (place' : (Value.ofNumber e.y).Readable)
    (given : (Value.mapping e.props).Readable) : e.toValue.Readable := by
  unfold toValue toEntries
  refine .ofEntries (by simp) (by simp) ?_
  simp [place, place', given, Value.Readable.ofText]

theorem ofParts_readable (place : x.Readable) (place' : y.Readable) (given : props.Readable)
    (h : ofParts id type x y props = .ok e) : e.toValue.Readable := by
  unfold ofParts at h
  split at h
  · split at h
    · split at h
      · rename_i across
        split at h
        · rename_i along
          split at h
          · rw [given.json.plain.copyEntries] at h
            simp only at h
            split at h
            · cases h
              rw [Value.plainNumber?_eq across] at place
              rw [Value.plainNumber?_eq along] at place'
              exact readable_toValue place place' given
            · cases h
          · cases h
        · cases h
      · cases h
    · cases h
  · cases h

theorem readable_of_ofValue (readable : v.Readable) (h : ofValue v = .ok e) : e.toValue.Readable := by
  cases v with
  | mapping entries =>
      have place := (readable.field "position").orEmpty
      have zero : (Value.float Double.zero).Readable := .leaf (Double.Spelled.of_number (Number.ofCode_number _ _)) rfl
      unfold ofValue at h
      simp only at h
      generalize (Entries.field entries "position").orEmpty = position at place h
      cases position with
      | mapping position =>
          have coordinate (key : String) :
              ((Entries.field? entries key).getD
                ((Entries.field? position key).getD (.float Double.zero))).Readable := by
            cases found : Entries.field? entries key with
            | some v => exact readable.under found
            | none =>
                cases found : Entries.field? position key with
                | some v => exact place.under found
                | none => exact zero
          exact ofParts_readable (coordinate "x") (coordinate "y") (readable.field "props").orEmpty h
      | _ => cases h
  | _ => cases h

/-- What is written of an element is two levels deeper than its deepest property at most. -/
theorem depth_toValue (h : e.Legible) : e.toValue.depth ≤ Value.copyLevels + 1 := by
  have shallow := h.shallow
  unfold checkDepth Value.within at shallow
  split at shallow
  · cases shallow
  · have number (n : Number) : (Value.ofNumber n).depth = 0 := by cases n <;> rfl
    simp only [toValue, toEntries, Value.depth, Value.entriesDepth, number] at *
    omega

end Element

namespace Connection

theorem readable_toValue (c : Connection) : c.toValue.Readable := by
  unfold toValue toEntries
  refine .ofEntries ?_ ?_ ?_
  · cases c.output? <;> cases c.input? <;> simp [optionalField]
  · cases c.output? <;> cases c.input? <;> simp [optionalField]
  · cases c.output? <;> cases c.input? <;> simp [optionalField, Value.Readable.ofText]

theorem depth_toValue (c : Connection) : c.toValue.depth = 1 := by
  unfold toValue toEntries
  cases c.output? <;> cases c.input? <;> rfl

end Connection

namespace Program

variable {p : Program} {v : Value} {path text : String}

/-- A program that can be written and read again. -/
structure Storable (p : Program) : Prop where
  readable : p.toValue.Readable
  shallow : p.toValue.depth ≤ Json.outsideLevels
  legible : ofValue p.toValue = .ok p

theorem depth_toValue {n : Nat} (elements : ∀ e ∈ p.elements, e.toValue.depth ≤ n + 1) :
    p.toValue.depth ≤ n + 3 := by
  have first : Value.itemsDepth (p.elements.map Element.toValue) ≤ n + 1 := by
    refine Value.itemsDepth_le fun v member => ?_
    obtain ⟨e, there, rfl⟩ := List.mem_map.mp member
    exact elements e there
  have second : Value.itemsDepth (p.connections.map Connection.toValue) ≤ n + 1 := by
    refine Value.itemsDepth_le fun v member => ?_
    obtain ⟨c, there, rfl⟩ := List.mem_map.mp member
    rw [c.depth_toValue]
    omega
  simp only [toValue, Value.depth, Value.entriesDepth]
  omega

theorem readable_toValue (elements : ∀ e ∈ p.elements, e.toValue.Readable) : p.toValue.Readable := by
  have first : (Value.list (p.elements.map Element.toValue)).Readable :=
    .ofItems (List.forall_mem_map.mpr elements)
  have second : (Value.list (p.connections.map Connection.toValue)).Readable :=
    .ofItems (List.forall_mem_map.mpr fun c _ => c.readable_toValue)
  unfold toValue
  exact .ofEntries (by simp) (by simp) (by simp [first, second])

/-- What a document that was read describes can be written and read again. -/
theorem storable_of_ofValue (readable : v.Readable) (h : ofValue v = .ok p) : p.Storable := by
  cases v with
  | mapping document =>
      have json := readable.json
      obtain ⟨elements, connections⟩ := (ofValue_iff (keyed_json json _) (keyed_json json _)).mp h
      have element : ∀ e ∈ p.elements, e.Legible ∧ e.toValue.Readable := by
        intro e member
        obtain ⟨u, there, read⟩ := elements.read_of_mem e member
        have inside : u.Readable := listed_every readable u there
        have ending := Element.ofValue_ending inside.json.plain
        rw [read] at ending
        cases ending with
        | read _ legible => exact ⟨legible, Element.readable_of_ofValue inside read⟩
      have connection : ∀ c ∈ p.connections, c.Legible := by
        intro c member
        obtain ⟨u, -, read⟩ := connections.read_of_mem c member
        exact Connection.legible_of_ofValue read
      have deep : p.toValue.depth ≤ Value.copyLevels + 3 :=
        depth_toValue fun e member => Element.depth_toValue (element e member).1
      exact
        { readable := readable_toValue fun e member => (element e member).2
          shallow := deep.trans (by decide)
          legible := ofValue_toValue (fun e member => (element e member).1) connection elements.distinct
            connections.distinct }
  | _ => cases h

/-! ### Saving and loading -/

theorem Storable.saved (h : p.Storable) : p.saved = (none, String.ofList (Json.transcript 0 p.toValue)) := by
  have text := Json.write_readable h.readable 0 ""
  rw [String.empty_append] at text
  unfold Program.saved Json.written
  rw [text]

/-- What was saved is loaded as the program it was saved of. -/
theorem Storable.loaded (h : p.Storable) (path : String) :
    ofFile path (.ok (String.ofList (Json.transcript 0 p.toValue))) = .ok p := by
  have whole : Json.read (String.ofList (Json.transcript 0 p.toValue)) = .ok p.toValue :=
    Json.readWithin_transcript h.readable fun n same => by cases same
  have within : Json.readWithin (some Json.outsideLevels) (String.ofList (Json.transcript 0 p.toValue)) =
      .ok p.toValue := by
    refine Json.readWithin_transcript h.readable fun n same => ?_
    rw [← Option.some.inj same]
    exact h.shallow
  have breaks := Json.unifiedBreaks_printed (Json.Printed.transcript h.readable 0)
  have text : ofText path (String.ofList (Json.transcript 0 p.toValue)) = .ok p := by
    simp only [ofText, String.toList_ofList, breaks, whole, h.legible]
  simp only [ofFile, Json.depthFault?, within, text]

theorem storable_of_ofFile (h : ofFile path (.ok text) = .ok p) : p.Storable := by
  unfold ofFile at h
  simp only at h
  split at h
  · cases h
  · unfold ofText at h
    split at h
    · cases h
    · rename_i read
      split at h
      · rename_i made
        cases h
        exact storable_of_ofValue (Json.readWithin_readable read) made
      · cases h

/-- A program that was loaded is saved whole, whatever was in the file. What is saved is loaded as the same elements
and the same connections in the same order, and saving these writes the same text. -/
theorem ofFile_saved (h : ofFile path (.ok text) = .ok p) : ∃ saved, p.saved = (none, saved) ∧
    ∀ again, ∃ q, ofFile again (.ok saved) = .ok q ∧ q.elements = p.elements ∧ q.connections = p.connections ∧
      q.saved = (none, saved) := by
  have storable := storable_of_ofFile h
  exact ⟨_, storable.saved, fun again => ⟨p, storable.loaded again, rfl, rfl, storable.saved⟩⟩

/-- A document with half of a surrogate pair, a fraction and an infinity in it. -/
def mixedDocument : String := "\x7b\"elements\": [\x7b\"id\": \"a\", \"type\": \"b\", \"x\": 1.5," ++
  "\"props\": \x7b\"k\": [\"\\ud800\", -Infinity]\x7d\x7d]\x7d"

theorem ofFile_saved_mixed : ∃ p, ofFile "p.json" (.ok mixedDocument) = .ok p ∧ ∃ saved, p.saved = (none, saved) ∧
    ∀ again, ∃ q, ofFile again (.ok saved) = .ok q ∧ q.elements = p.elements ∧ q.connections = p.connections ∧
      q.saved = (none, saved) := by
  have accepted : (ofFile "p.json" (.ok mixedDocument)).toBool = true := by decide +kernel
  cases loaded : ofFile "p.json" (.ok mixedDocument) with
  | error f =>
      rw [loaded] at accepted
      cases accepted
  | ok p => exact ⟨p, rfl, ofFile_saved loaded⟩

end Program

end BlockGraph
