import BlockGraph.Graph.Program
import BlockGraph.Proofs.Freezing
import Mathlib.Data.List.Forall2
/-!
Documents: what a program that was read holds, and what is read of a program that was written. Reading goes through
the entries in their order and stops at the first that is refused; what is written of a program has one spelling of
each key, and is read as that program again.
-/
namespace BlockGraph

namespace Value

/-- Values that JSON has: no tuples, sets or foreign values, and mappings with texts for keys. -/
def IsJson (v : Value) : Prop := v.Every fun u => match u with
  | .tuple _ | .set _ | .frozenset _ | .foreign _ => False
  | .mapping entries => ∀ e ∈ entries, ∃ k, e.1 = .text k
  | _ => True

theorem IsJson.ofText (s : String) : (Value.text s).IsJson := .intro trivial nofun

theorem IsJson.ofEntries {entries : Entries} (h : ∀ e ∈ entries, (∃ k, e.1 = .text k) ∧ e.2.IsJson) :
    (Value.mapping entries).IsJson := by
  refine .intro (fun e member => (h e member).1) (Value.forall_children_mapping.mpr fun e member => ?_)
  obtain ⟨⟨k, key⟩, value⟩ := h e member
  exact ⟨key ▸ IsJson.ofText k, value⟩

theorem IsJson.ofItems {items : List Value} (h : ∀ v ∈ items, v.IsJson) : (Value.list items).IsJson :=
  .intro trivial h

theorem IsJson.plain {v : Value} (h : v.IsJson) : v.Plain :=
  h.imp fun u json f same => by rw [same] at json; exact json

theorem mem_of_field? {entries : Entries} {key : String} {v : Value} (h : Entries.field? entries key = some v) :
    (Value.text key, v) ∈ entries := by
  obtain ⟨e, found, rfl⟩ := Option.map_eq_some_iff.mp h
  have same : e.1.isSameItem (.text key) = true := by simpa using List.find?_some found
  rw [← isSameItem_text.mp same]
  exact List.mem_of_find?_eq_some found

theorem Plain.field {entries : Entries} (h : (Value.mapping entries).Plain) (key : String) :
    (Entries.field entries key).Plain := by
  rw [Entries.field]
  cases found : Entries.field? entries key with
  | none => exact .intro nofun nofun
  | some v => exact h.inside _ (mem_children_mapping (mem_of_field? found)).2

theorem Plain.orEmpty {v : Value} (h : v.Plain) : v.orEmpty.Plain := by
  unfold Value.orEmpty
  split
  · exact h
  · exact .intro nofun nofun

theorem Plain.copyEntries {entries : Entries} (h : (Value.mapping entries).Plain) :
    Value.copyEntries entries = .ok entries :=
  copyEntries_same fun _ member =>
    ⟨(h.inside _ (mem_children_mapping member).1).copied, (h.inside _ (mem_children_mapping member).2).copied⟩

theorem itemsDepth_le {items : List Value} {n : Nat} (h : ∀ v ∈ items, v.depth ≤ n) : itemsDepth items ≤ n := by
  induction items with
  | nil => exact Nat.zero_le n
  | cons v rest ih =>
      obtain ⟨first, others⟩ := List.forall_mem_cons.mp h
      exact Nat.max_le.mpr ⟨first, ih others⟩

theorem plainNumber?_ofNumber (n : Number) : (Value.ofNumber n).plainNumber? = some n := by
  cases n <;> rfl

theorem name?_eq_some {v : Value} {s : String} (h : v.name? = some s) : Text.isBlankText s = false := by
  cases v with
  | text t =>
      simp only [name?] at h
      split at h
      · cases h
      · cases h
        exact Bool.eq_false_iff.mpr ‹_›
  | _ => cases h

theorem name?_text {s : String} (h : Text.isBlankText s = false) : (Value.text s).name? = some s := by
  simp only [name?, h, Bool.false_eq_true, if_false]

end Value

/-! ### Elements -/

namespace Element

variable {e : Element} {v id type x y props : Value} {cause : ElementFault}

/-- An element that can be read of what is written of it. -/
structure Legible (e : Element) : Prop where
  named : Text.isBlankText e.id = false
  typed : Text.isBlankText e.type = false
  copied : Value.copyEntries e.props = .ok e.props
  shallow : e.checkDepth = .ok ()

/-- Whether the properties of an entry are nested too deep to be copied. -/
def TooDeep (v : Value) : Prop :=
  ∃ entries props, v = .mapping entries ∧ Entries.field? entries "props" = some (.mapping props) ∧
    Value.copyLevels < (Value.mapping props).depth

/-- An element is read again of what is written of it. -/
theorem ofValue_toValue (h : e.Legible) : ofValue e.toValue = .ok e := by
  have props : (Value.mapping e.props).orEmpty = .mapping e.props := by
    unfold Value.orEmpty Value.isTrue
    cases e.props <;> rfl
  show ofParts (.text e.id) (.text e.type) (.ofNumber e.x) (.ofNumber e.y) (Value.mapping e.props).orEmpty = .ok e
  rw [props]
  simp only [ofParts, Value.name?_text h.named, Value.name?_text h.typed, Value.plainNumber?_ofNumber, h.copied,
    h.shallow]
  rfl

/-- How the reading of an element may end, where `deep` tells when its properties are nested too deep. -/
inductive Ending (deep : Prop) : Except ElementFault Element → Prop
  | read (e : Element) (legible : e.Legible) : Ending deep (.ok e)
  | refused (cause : ElementFault) (kind : cause.kind = .value ∨ cause.kind = .attribute) : Ending deep (.error cause)
  | tooDeep (h : deep) : Ending deep (.error (.value (.tooDeep .copying)))

theorem Ending.imp {deep deeper : Prop} {outcome : Except ElementFault Element} (h : Ending deep outcome)
    (weaker : deep → deeper) : Ending deeper outcome := by
  cases h with
  | read e legible => exact .read e legible
  | refused cause kind => exact .refused cause kind
  | tooDeep h => exact .tooDeep (weaker h)

theorem ofParts_ending (plain : props.Plain) :
    Ending (∃ entries, props = .mapping entries ∧ Value.copyLevels < props.depth) (ofParts id type x y props) := by
  unfold ofParts
  split
  · rename_i named
    split
    · rename_i typed
      split
      · split
        · split
          · rename_i _ entries
            rw [plain.copyEntries]
            simp only
            split
            · exact .read _ ⟨Value.name?_eq_some named, Value.name?_eq_some typed, plain.copyEntries, ‹_›⟩
            · rename_i fault refused
              simp only [checkDepth, Value.within] at refused
              split at refused
              · cases refused
                exact .tooDeep ⟨entries, rfl, ‹_›⟩
              · cases refused
          · exact .refused _ (.inl rfl)
        · exact .refused _ (.inl rfl)
      · exact .refused _ (.inl rfl)
    · exact .refused _ (.inl rfl)
  · exact .refused _ (.inl rfl)

/-- What is no deeper than an empty mapping can be copied. -/
theorem tooDeep_of_orEmpty {entries given : Entries} (same : (Entries.field entries "props").orEmpty = .mapping given)
    (deep : Value.copyLevels < (Value.mapping given).depth) : TooDeep (.mapping entries) := by
  unfold Value.orEmpty at same
  split at same
  · refine ⟨entries, given, rfl, ?_, deep⟩
    unfold Entries.field at same
    cases found : Entries.field? entries "props" with
    | none =>
        rw [found] at same
        cases same
    | some props =>
        rw [found] at same
        exact congrArg some same
  · cases same
    exact absurd deep (by decide)

/-- Plain data is read as an element, or refused for what it holds, or for how deep it goes. -/
theorem ofValue_ending (plain : v.Plain) : Ending (TooDeep v) (ofValue v) := by
  cases v with
  | mapping entries =>
      unfold ofValue
      simp only
      cases (Entries.field entries "position").orEmpty with
      | mapping position =>
          refine (ofParts_ending (plain.field "props").orEmpty).imp ?_
          rintro ⟨given, same, deep⟩
          exact tooDeep_of_orEmpty same (same ▸ deep)
      | _ => exact .refused _ (.inr rfl)
  | _ => exact .refused _ (.inl rfl)

end Element

/-! ### Connections -/

namespace Connection

variable {c : Connection} {v : Value}

/-- A connection that can be read of what is written of it. -/
structure Legible (c : Connection) : Prop where
  named : Text.isBlankText c.id = false
  apart : c.source ≠ c.target

/-- A connection is read again of what is written of it, under the first spelling of each key. -/
theorem ofValue_toValue (h : c.Legible) : ofValue c.toValue = .ok c := by
  have parts : ofValue c.toValue = ofParts (.text c.id) (.text c.source) (.text c.target)
      (c.output?.elim .null .text) (c.input?.elim .null .text) := by
    unfold toValue toEntries
    cases c.output? <;> cases c.input? <;> rfl
  have port : ∀ s? : Option String, port? (s?.elim .null .text) = some s? := fun s? => by cases s? <;> rfl
  rw [parts]
  simp only [ofParts, Value.name?_text h.named, Value.text?, if_neg h.apart, port]
  rfl

theorem legible_of_ofValue (h : ofValue v = .ok c) : c.Legible := by
  cases v with
  | mapping entries =>
      simp only [ofValue, ofParts] at h
      split at h
      · rename_i named
        split at h
        · split at h
          · split at h
            · cases h
            · split at h
              · split at h
                · cases h
                  exact ⟨Value.name?_eq_some named, ‹_›⟩
                · cases h
              · cases h
          · cases h
        · cases h
      · cases h
  | _ => cases h

end Connection

/-! ### Rows of entries -/

section

variable {σ ε β α ι : Type} {add : σ → β → Except ε σ} {Reads : β → α → Prop} {id : α → ι} {make : List α → σ}

/-- Where each entry of a row adds what is read of it behind what was read before, unless it is there, a whole row
adds what is read of it in its order. -/
theorem foldlM_adds (step : ∀ done e s, add (make done) e = .ok s ↔
      ∃ a, Reads e a ∧ (∀ b ∈ done, id b ≠ id a) ∧ s = make (done ++ [a]))
    (entries : List β) (done : List α) (s : σ) : entries.foldlM add (make done) = .ok s ↔
      ∃ read, List.Forall₂ Reads entries read ∧ read.Pairwise (fun a b => id a ≠ id b) ∧
        (∀ a ∈ read, ∀ b ∈ done, id b ≠ id a) ∧ s = make (done ++ read) := by
  induction entries generalizing done s with
  | nil =>
      rw [List.foldlM_nil]
      constructor
      · intro h
        cases h
        exact ⟨[], .nil, .nil, fun a member => absurd member List.not_mem_nil, by rw [List.append_nil]⟩
      · rintro ⟨read, each, -, -, rfl⟩
        cases each
        rw [List.append_nil]
        rfl
  | cons e rest ih =>
      rw [List.foldlM_cons]
      constructor
      · intro h
        obtain ⟨t, first, h⟩ := Value.bind_ok h
        obtain ⟨a, reads, fresh, rfl⟩ := (step done e t).mp first
        obtain ⟨read, each, apart, others, rfl⟩ := (ih (done ++ [a]) s).mp h
        refine ⟨a :: read, .cons reads each, List.pairwise_cons.mpr ⟨fun b member => ?_, apart⟩, ?_, ?_⟩
        · exact others b member a (List.mem_append_right _ List.mem_cons_self)
        · refine List.forall_mem_cons.mpr ⟨fresh, fun b member b' there => ?_⟩
          exact others b member b' (List.mem_append_left _ there)
        · rw [List.append_assoc, List.singleton_append]
      · rintro ⟨_, each, apart, fresh, rfl⟩
        cases each with
        | @cons _ a _ read reads each =>
            obtain ⟨before, apart⟩ := List.pairwise_cons.mp apart
            obtain ⟨first, fresh⟩ := List.forall_mem_cons.mp fresh
            have added := (step done e _).mpr ⟨a, reads, first, rfl⟩
            have others := (ih (done ++ [a]) (make (done ++ a :: read))).mpr ⟨read, each, apart, by
              intro b member b' there
              rcases List.mem_append.mp there with there | last
              · exact fresh b member b' there
              · cases List.mem_singleton.mp last
                exact before b member, by rw [List.append_assoc, List.singleton_append]⟩
            rw [added]
            exact others

/-- A row that is refused holds an entry that is. -/
theorem foldlM_refused {entries : List β} {s : σ} {fault : ε} (h : entries.foldlM add s = .error fault) :
    ∃ e ∈ entries, ∃ t, add t e = .error fault := by
  induction entries generalizing s with
  | nil => cases h
  | cons e rest ih =>
      rw [List.foldlM_cons] at h
      rcases Value.bind_error h with first | ⟨t, -, h⟩
      · exact ⟨e, List.mem_cons_self, s, first⟩
      · obtain ⟨e', member, refused⟩ := ih h
        exact ⟨e', List.mem_cons_of_mem _ member, refused⟩

end

/-! ### Programs -/

namespace Program

variable {p q : Program} {document : Entries} {key : String} {e : Except Fault String × Value}
  {f : ProgramFault}

/-- The entries that a document has under a key. -/
def listed (document : Entries) (key : String) : List Value :=
  match (Entries.field? document key).getD (.list []) with
  | .mapping entries => entries.map (·.2)
  | .list items => items
  | _ => []

/-- Whether the place of an entry has a name. -/
def Placed (e : Except Fault String × Value) : Prop := ∃ s, e.1 = .ok s

theorem placed_of_text {entries : Entries} (h : ∀ e ∈ entries, ∃ k, e.1 = .text k) :
    ∀ e ∈ entries.map (fun e => ((e.1.literal).map (key ++ " " ++ ·), e.2)), Placed e := by
  intro e member
  obtain ⟨entry, there, rfl⟩ := List.mem_map.mp member
  obtain ⟨k, text⟩ := h entry there
  exact ⟨key ++ " " ++ Text.quoted k, by rw [text]; rfl⟩

/-- Entries are found in a list, or in a mapping under keys that have a name. -/
theorem entriesUnder_outcome
    (keyed : ∀ entries, Entries.field? document key = some (.mapping entries) → ∀ e ∈ entries, ∃ k, e.1 = .text k) :
    entriesUnder document key = .error (.noArray key) ∨ ∃ row, entriesUnder document key = .ok row ∧
      (∀ e ∈ row, Placed e) ∧ row.map (·.2) = listed document key := by
  unfold entriesUnder listed
  cases found : Entries.field? document key with
  | none => exact .inr ⟨[], rfl, fun e member => absurd member List.not_mem_nil, rfl⟩
  | some v =>
      cases v with
      | mapping entries =>
          refine .inr ⟨_, rfl, placed_of_text (keyed entries found), ?_⟩
          simp only [List.map_map, Function.comp_def, Option.getD_some]
      | list items =>
          refine .inr ⟨_, rfl, fun e member => ?_, ?_⟩
          · obtain ⟨i, _, rfl⟩ := List.mem_mapIdx.mp member
            exact ⟨_, rfl⟩
          · refine List.ext_getElem? fun i => ?_
            simp only [List.getElem?_map, List.getElem?_mapIdx, Option.map_map, Function.comp_def, Option.map_id',
              Option.getD_some]
      | _ => exact .inl rfl

theorem any_id_iff {α : Type} {id : α → String} {done : List α} {a : α} :
    (done.any fun b => id b == id a) = false ↔ ∀ b ∈ done, id b ≠ id a := by
  rw [List.any_eq_false]
  exact forall₂_congr fun b _ => by rw [beq_iff_eq]

/-- How an entry is taken up: its place is named, it is read, and what it reads as has to be new. -/
def takeUp {ε α : Type} (label : Except Fault String) (read : Except ε α) (refused : String → ε → ProgramFault)
    (twice : α → ProgramFault) (id : α → String) (done : List α) (next : α → Program) : Except ProgramFault Program :=
  place label >>= fun s => match read with
    | .error cause => .error (refused s cause)
    | .ok a => if done.any fun b => id b == id a then .error (twice a) else .ok (next a)

theorem takeUp_ok_iff {ε α : Type} {label : Except Fault String} {read : Except ε α}
    {refused : String → ε → ProgramFault} {twice : α → ProgramFault} {id : α → String} {done : List α}
    {next : α → Program} : takeUp label read refused twice id done next = .ok q ↔
      ∃ a, ((∃ s, label = .ok s) ∧ read = .ok a) ∧ (∀ b ∈ done, id b ≠ id a) ∧ q = next a := by
  constructor
  · intro h
    cases label with
    | error fault => cases h
    | ok s =>
        simp only [takeUp, place, Value.ok_bind] at h
        cases read with
        | error cause => cases h
        | ok a =>
            simp only at h
            split at h
            · cases h
            · cases h
              exact ⟨a, ⟨⟨s, rfl⟩, rfl⟩, any_id_iff.mp (Bool.eq_false_iff.mpr ‹_›), rfl⟩
  · rintro ⟨a, ⟨⟨s, rfl⟩, rfl⟩, fresh, rfl⟩
    simp only [takeUp, place, Value.ok_bind, any_id_iff.mpr fresh]
    rfl

theorem takeUp_error {ε α : Type} {s : String} {read : Except ε α} {refused : String → ε → ProgramFault}
    {twice : α → ProgramFault} {id : α → String} {done : List α} {next : α → Program}
    (h : takeUp (.ok s) read refused twice id done next = .error f) :
    (∃ cause, read = .error cause ∧ f = refused s cause) ∨ ∃ a, f = twice a := by
  simp only [takeUp, place, Value.ok_bind] at h
  cases read with
  | error cause =>
      cases h
      exact .inl ⟨cause, rfl, rfl⟩
  | ok a =>
      simp only at h
      split at h
      · cases h
        exact .inr ⟨a, rfl⟩
      · cases h

/-- The fault of a program with an entry that is no element. -/
def elementFault (label : String) (cause : ElementFault) : ProgramFault :=
  match cause.kind, cause with
  | .type, .value f | .recursion, .value f => .value f
  | _, cause => .element label cause

theorem addElement_eq (cs : List Connection) (done : List Element) (e : Except Fault String × Value) :
    addElement ⟨done, cs⟩ e = takeUp e.1 (Element.ofValue e.2) elementFault (fun a => .duplicateElement a.id)
      Element.id done fun a => ⟨done ++ [a], cs⟩ := by
  unfold addElement takeUp elementFault
  congr 1
  funext s
  cases Element.ofValue e.2 with
  | error cause =>
      cases cause with
      | value f =>
          simp only [ElementFault.kind]
          generalize f.kind = kind
          cases kind <;> rfl
      | _ => rfl
  | ok a => rfl

theorem addConnection_eq (es : List Element) (done : List Connection) (e : Except Fault String × Value) :
    addConnection ⟨es, done⟩ e = takeUp e.1 (Connection.ofValue e.2) .connection
      (fun a => .duplicateConnection a.id) Connection.id done fun a => ⟨es, done ++ [a]⟩ := by
  unfold addConnection takeUp
  congr 1
  funext s
  cases Connection.ofValue e.2 <;> rfl

/-- What is read of the entries under a key: one item of each, in their order, and no id twice. -/
structure Holds {ε α : Type} (document : Entries) (key : String) (read : Value → Except ε α) (id : α → String)
    (items : List α) : Prop where
  array : entriesUnder document key ≠ .error (.noArray key)
  each : List.Forall₂ (fun v a => read v = .ok a) (listed document key) items
  distinct : items.Pairwise fun a b => id a ≠ id b

/-- Whether mappings under a key have texts for keys. -/
def Keyed (document : Entries) (key : String) : Prop :=
  ∀ entries, Entries.field? document key = some (.mapping entries) → ∀ e ∈ entries, ∃ k, e.1 = .text k

/-- What a row of entries adds to an empty program. -/
theorem row_adds {ε α : Type} {read : Value → Except ε α} {refused : String → ε → ProgramFault}
    {twice : α → ProgramFault} {id : α → String} {make : List α → Program}
    {add : Program → Except Fault String × Value → Except ProgramFault Program} (keyed : Keyed document key)
    (step : ∀ done e, add (make done) e =
      takeUp e.1 (read e.2) refused twice id done fun a => make (done ++ [a])) :
    (∃ row, entriesUnder document key = .ok row ∧ row.foldlM add (make []) = .ok q) ↔
      ∃ items, Holds document key read id items ∧ q = make items := by
  have adds : ∀ done e s, add (make done) e = .ok s ↔ ∃ a, (Placed e ∧ read e.2 = .ok a) ∧
      (∀ b ∈ done, id b ≠ id a) ∧ s = make (done ++ [a]) := by
    intro done e s
    rw [step]
    exact takeUp_ok_iff
  constructor
  · rintro ⟨row, found, added⟩
    obtain ⟨items, each, apart, -, rfl⟩ := (foldlM_adds adds row [] q).mp added
    rcases entriesUnder_outcome keyed with none | ⟨row', found', -, all⟩
    · cases found.symm.trans none
    · obtain rfl := Except.ok.inj (found.symm.trans found')
      refine ⟨items, ⟨by rw [found]; exact nofun, ?_, apart⟩, rfl⟩
      rw [← all, List.forall₂_map_left_iff]
      exact each.imp fun _ _ reads => reads.2
  · rintro ⟨items, ⟨array, each, apart⟩, rfl⟩
    rcases entriesUnder_outcome keyed with none | ⟨row, found, placed, all⟩
    · exact absurd none array
    · refine ⟨row, found, (foldlM_adds adds row [] _).mpr
        ⟨items, ?_, apart, fun a _ b member => absurd member List.not_mem_nil, rfl⟩⟩
      rw [← all, List.forall₂_map_left_iff] at each
      exact (List.forall₂_and_left _ _).mpr ⟨placed, each⟩

/-- A program is read of a document exactly when it holds what the document has under its two keys. -/
theorem ofValue_iff (elements : Keyed document "elements") (connections : Keyed document "connections") :
    ofValue (.mapping document) = .ok p ↔ Holds document "elements" Element.ofValue Element.id p.elements ∧
      Holds document "connections" Connection.ofValue Connection.id p.connections := by
  have rows : ofValue (.mapping document) = .ok p ↔
      ∃ q, (∃ row, entriesUnder document "elements" = .ok row ∧ row.foldlM addElement ⟨[], []⟩ = .ok q) ∧
        ∃ row, entriesUnder document "connections" = .ok row ∧ row.foldlM addConnection q = .ok p := by
    simp only [ofValue, Value.bind_ok_iff]
    exact ⟨fun ⟨row, found, q, added, rest⟩ => ⟨q, ⟨row, found, added⟩, rest⟩,
      fun ⟨q, ⟨row, found, added⟩, rest⟩ => ⟨row, found, q, added, rest⟩⟩
  rw [rows]
  constructor
  · rintro ⟨q, first, second⟩
    obtain ⟨es, read, rfl⟩ := (row_adds elements (addElement_eq [])).mp first
    obtain ⟨cs, joined, rfl⟩ := (row_adds connections (addConnection_eq es)).mp second
    exact ⟨read, joined⟩
  · rintro ⟨read, joined⟩
    exact ⟨⟨p.elements, []⟩, (row_adds elements (addElement_eq [])).mpr ⟨_, read, rfl⟩,
      (row_adds connections (addConnection_eq p.elements)).mpr ⟨_, joined, rfl⟩⟩

/-- What holds of everything in a document holds of the values under a key. -/
theorem listed_every {holds : Value → Prop} (h : (Value.mapping document).Every holds) :
    ∀ v ∈ listed document key, v.Every holds := by
  intro v member
  unfold listed at member
  cases found : Entries.field? document key with
  | none =>
      rw [found] at member
      cases member
  | some row =>
      have inside : row.Every holds := h.inside _ (Value.mem_children_mapping (Value.mem_of_field? found)).2
      rw [found] at member
      cases row with
      | mapping entries =>
          obtain ⟨e, there, rfl⟩ := List.mem_map.mp member
          exact inside.inside _ (Value.mem_children_mapping there).2
      | list items => exact inside.inside v member
      | _ => cases member

theorem listed_json (json : (Value.mapping document).IsJson) : ∀ v ∈ listed document key, v.IsJson :=
  listed_every json

theorem keyed_json (json : (Value.mapping document).IsJson) (key : String) : Keyed document key := by
  intro entries found
  exact (json.inside _ (Value.mem_children_mapping (Value.mem_of_field? found)).2).here

theorem elementFault_kind {s : String} {cause : ElementFault} (h : cause.kind = .value ∨ cause.kind = .attribute) :
    (elementFault s cause).kind = .value := by
  unfold elementFault
  split
  · rename_i kind
    rcases h with h | h <;> cases h.symm.trans kind
  · rename_i kind
    rcases h with h | h <;> cases h.symm.trans kind
  · rfl

theorem Holds.read_of_mem {ε α : Type} {read : Value → Except ε α} {id : α → String} {items : List α}
    (h : Holds document key read id items) : ∀ a ∈ items, ∃ v ∈ listed document key, read v = .ok a := by
  intro a member
  obtain ⟨i, here, rfl⟩ := List.mem_iff_getElem.mp member
  have there : i < (listed document key).length := by rw [h.each.length_eq]; exact here
  exact ⟨_, List.getElem_mem there, h.each.get there here⟩

/-- A program is read again of what is written of it, as it is and in the same order. -/
theorem ofValue_toValue (elements : ∀ e ∈ p.elements, e.Legible) (connections : ∀ c ∈ p.connections, c.Legible)
    (apart : p.elements.Pairwise fun a b => a.id ≠ b.id) (apart' : p.connections.Pairwise fun a b => a.id ≠ b.id) :
    ofValue p.toValue = .ok p := by
  refine (ofValue_iff ?_ ?_).mpr ⟨⟨?_, ?_, apart⟩, ⟨?_, ?_, apart'⟩⟩
  · intro entries found
    cases found
  · intro entries found
    cases found
  · exact nofun
  · exact List.forall₂_map_left_iff.mpr
      (List.forall₂_same.mpr fun e member => Element.ofValue_toValue (elements e member))
  · exact nofun
  · exact List.forall₂_map_left_iff.mpr
      (List.forall₂_same.mpr fun c member => Connection.ofValue_toValue (connections c member))

theorem entriesUnder_refused (keyed : Keyed document key) (h : entriesUnder document key = .error f) :
    f = .noArray key := by
  rcases entriesUnder_outcome keyed with none | ⟨row, found, -⟩
  · cases h.symm.trans none
    rfl
  · cases h.symm.trans found

/-- A row that is refused holds an entry that is, and which has a place. -/
theorem row_refused {add : Program → Except Fault String × Value → Except ProgramFault Program}
    {row : List (Except Fault String × Value)} (keyed : Keyed document key)
    (found : entriesUnder document key = .ok row) (h : row.foldlM add q = .error f) :
    ∃ e s t, e.1 = .ok s ∧ e.2 ∈ listed document key ∧ add t e = .error f := by
  obtain ⟨e, member, t, refused⟩ := foldlM_refused h
  rcases entriesUnder_outcome keyed with none | ⟨row', found', placed, all⟩
  · cases found.symm.trans none
  · obtain rfl := Except.ok.inj (found.symm.trans found')
    obtain ⟨s, label⟩ := placed e member
    exact ⟨e, s, t, label, all ▸ List.mem_map_of_mem member, refused⟩

/-- Values that JSON has are refused as programs for what they hold, or for properties that are nested too deep. -/
theorem refused_cases (json : (Value.mapping document).IsJson) (h : ofValue (.mapping document) = .error f) :
    f.kind = .value ∨ f = .value (.tooDeep .copying) ∧ ∃ v ∈ listed document "elements", Element.TooDeep v := by
  have keyed := keyed_json json
  rcases Value.bind_error h with h | ⟨row, found, h⟩
  · rw [entriesUnder_refused (keyed "elements") h]
    exact .inl rfl
  rcases Value.bind_error h with h | ⟨q, -, h⟩
  · obtain ⟨e, s, t, label, there, refused⟩ := row_refused (keyed "elements") found h
    rw [addElement_eq, label] at refused
    rcases takeUp_error refused with ⟨cause, read, rfl⟩ | ⟨a, rfl⟩
    · have ending := Element.ofValue_ending (listed_json json e.2 there).plain
      rw [read] at ending
      cases ending with
      | refused _ kind => exact .inl (elementFault_kind kind)
      | tooDeep deep => exact .inr ⟨rfl, e.2, there, deep⟩
    · exact .inl rfl
  rcases Value.bind_error h with h | ⟨row, found, h⟩
  · rw [entriesUnder_refused (keyed "connections") h]
    exact .inl rfl
  · obtain ⟨e, s, t, label, -, refused⟩ := row_refused (keyed "connections") found h
    rw [addConnection_eq, label] at refused
    rcases takeUp_error refused with ⟨cause, -, rfl⟩ | ⟨a, rfl⟩ <;> exact .inl rfl

/-- Whatever JSON holds, it is refused as a program for what it holds, or for properties that are nested too deep,
or it is read as the program with an item for each of its entries, in their order and with no id twice. What is
written of that program is read as the same program. -/
theorem ofValue_json {v : Value} (json : v.IsJson) :
    (∀ f, ofValue v = .error f → f.kind = .value ∨ f = .value (.tooDeep .copying) ∧
      ∃ document, v = .mapping document ∧ ∃ u ∈ listed document "elements", Element.TooDeep u) ∧
    ∀ p, ofValue v = .ok p → (∃ document, v = .mapping document ∧
      Holds document "elements" Element.ofValue Element.id p.elements ∧
      Holds document "connections" Connection.ofValue Connection.id p.connections) ∧ ofValue p.toValue = .ok p := by
  cases v with
  | mapping document =>
      constructor
      · intro f h
        refine (refused_cases json h).imp_right fun ⟨same, u, there, deep⟩ => ⟨same, document, rfl, u, there, deep⟩
      · intro p h
        obtain ⟨elements, connections⟩ := (ofValue_iff (keyed_json json _) (keyed_json json _)).mp h
        refine ⟨⟨document, rfl, elements, connections⟩, ?_⟩
        refine ofValue_toValue (fun e member => ?_) (fun c member => ?_) elements.distinct connections.distinct
        · obtain ⟨u, there, read⟩ := elements.read_of_mem e member
          have ending := Element.ofValue_ending (listed_json json u there).plain
          rw [read] at ending
          cases ending with
          | read _ legible => exact legible
        · obtain ⟨u, -, read⟩ := connections.read_of_mem c member
          exact Connection.legible_of_ofValue read
  | _ =>
      refine ⟨fun f h => ?_, fun p h => by cases h⟩
      cases h
      exact .inl rfl

/-- A document of either kind of entries, with keys of either spelling, is read as a program that is read again. -/
theorem ofValue_json_least :
    let element := Value.mapping [(.text "id", .text "a"), (.text "type", .text "add"),
      (.text "position", .mapping [(.text "x", .int 3)])]
    let connection := Value.mapping [(.text "id", .text "c"), (.text "fromId", .text "a"), (.text "to_id", .text "b")]
    let document := Value.mapping [(.text "elements", .mapping [(.text "a", element)]),
      (.text "connections", .list [connection])]
    ∃ p, document.IsJson ∧ ofValue document = .ok p ∧ ofValue p.toValue = .ok p := by
  intro element connection document
  have number : (Value.int 3).IsJson := .intro trivial nofun
  have place : (Value.mapping [(.text "x", .int 3)]).IsJson :=
    .ofEntries (List.forall_mem_singleton.mpr ⟨⟨"x", rfl⟩, number⟩)
  have entry : element.IsJson := .ofEntries (by simp [Value.IsJson.ofText, place])
  have elements : (Value.mapping [(.text "a", element)]).IsJson :=
    .ofEntries (List.forall_mem_singleton.mpr ⟨⟨"a", rfl⟩, entry⟩)
  have edge : connection.IsJson := .ofEntries (by simp [Value.IsJson.ofText])
  have connections := Value.IsJson.ofItems (List.forall_mem_singleton.mpr edge)
  have json : document.IsJson := .ofEntries (by simp [elements, connections])
  obtain ⟨p, read⟩ : ∃ p, ofValue document = .ok p := ⟨_, rfl⟩
  exact ⟨p, json, read, ((ofValue_json json).2 p read).2⟩

end Program

/-- Lists inside of each other, as many as are asked for. -/
def Value.boxes : Nat → Value
  | 0 => .null
  | n + 1 => .list [boxes n]

namespace Value

theorem boxes_json (n : Nat) : (boxes n).IsJson := by
  induction n with
  | zero => exact .intro trivial nofun
  | succ n ih => exact .intro trivial (List.forall_mem_singleton.mpr ih)

theorem depth_boxes (n : Nat) : (boxes n).depth = n := by
  induction n with
  | zero => rfl
  | succ n ih => simp only [boxes, depth, itemsDepth, ih, Nat.max_zero]

end Value

/-- An element with lists inside of each other for a property. -/
def Element.boxed (n : Nat) : Value :=
  .mapping [(.text "id", .text "A"), (.text "type", .text "t"), (.text "props", .mapping [(.text "k", .boxes n)])]

theorem Element.boxed_json (n : Nat) : (Element.boxed n).IsJson := by
  have props : (Value.mapping [(.text "k", .boxes n)]).IsJson := .ofEntries (by simp [Value.boxes_json])
  exact .ofEntries (by simp [Value.IsJson.ofText, props])

/-- Such an element is refused when the lists are too many. -/
theorem Element.boxed_refused {n : Nat} (deep : Value.copyLevels ≤ n) :
    ofValue (boxed n) = .error (.value (.tooDeep .copying)) := by
  have plain : (Value.mapping [(.text "k", .boxes n)]).Plain :=
    Value.IsJson.plain (.ofEntries (by simp [Value.boxes_json]))
  have depth : (Value.mapping [(.text "k", .boxes n)]).depth = n + 1 := by
    simp [Value.depth, Value.entriesDepth, Value.depth_boxes]
  show ofParts (.text "A") (.text "t") (.float Double.zero) (.float Double.zero)
    (.mapping [(.text "k", .boxes n)]) = _
  unfold ofParts
  simp only [plain.copyEntries, checkDepth, Value.within, depth, if_pos (Nat.lt_succ_of_le deep)]
  rfl

namespace Program

theorem boxed_refused {n : Nat} (deep : Value.copyLevels ≤ n) :
    ofValue (.mapping [(.text "elements", .list [Element.boxed n])]) = .error (.value (.tooDeep .copying)) := by
  have refused : addElement ⟨[], []⟩ (.ok "elements[0]", Element.boxed n) = .error (.value (.tooDeep .copying)) := by
    rw [addElement_eq, Element.boxed_refused deep]
    rfl
  show (addElement ⟨[], []⟩ (.ok "elements[0]", Element.boxed n) >>= _) >>= _ = _
  rw [refused]
  rfl

/-- Properties that are nested too deep are refused by a fault of another kind. -/
theorem refused_by_depth : ∃ v : Value, v.IsJson ∧ ∃ f, ofValue v = .error f ∧ f.kind = .recursion := by
  have elements := Value.IsJson.ofItems (List.forall_mem_singleton.mpr (Element.boxed_json 900))
  have deep : Value.copyLevels ≤ 900 := by decide
  exact ⟨_, .ofEntries (List.forall_mem_singleton.mpr ⟨⟨"elements", rfl⟩, elements⟩), _, boxed_refused deep, rfl⟩

end Program

end BlockGraph
