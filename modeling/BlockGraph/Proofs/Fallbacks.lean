import BlockGraph.Proofs.Containers
import BlockGraph.Proofs.Writing
/-!
Texts for log lines. JSON text falls back on plain text, and the plain text of a container is its JSON text. The two
therefore call each other without end for a container that holds an integer with too many digits or a foreign value
without a text; all other values are answered, but not all of them with a text.
-/
namespace BlockGraph

open Json (Writable Blocked)

namespace Value

/-! ### Calls -/

/-- A call of one of the two conversions to text. -/
inductive Call where
  | json (v : Value)
  | text (v : Value)

namespace Call

def value : Call → Value
  | json v | text v => v

/-- What a call comes to without the other conversion: an answer, or a call of that one. -/
def turn : Call → Except Fault String ⊕ Call
  | json v => match v.compactJson with
    | .ok s => .inl (.ok s)
    | .error f => if fallsBack f then .inr (text v) else .inl (.error f)
  | text v => if v.isContainer then .inr (json v) else .inl v.atomText

/-- Whether a call returns, so that the calls it leads to come to an end. -/
inductive Returns : Call → Except Fault String → Prop
  | answered {c : Call} {r : Except Fault String} (answer : c.turn = .inl r) : c.Returns r
  | passed {c d : Call} {r : Except Fault String} (on : c.turn = .inr d) (rest : d.Returns r) : c.Returns r

/-- What a call comes to, where a call that does not return counts as going too deep. -/
def answer : Call → Except Fault String
  | json v => v.toJson
  | text v => v.toText

/-- The fault that stands for a call that does not return. -/
def endless : Call → Fault
  | json _ => .endlessJson
  | text _ => .endlessText

end Call

/-- Whether the conversions of a value pass it on to each other. -/
def Circles (v : Value) : Prop := v.isContainer = true ∧ ∃ f, v.compactJson = .error f ∧ fallsBack f = true

namespace Call

variable {c : Call} {r r' : Except Fault String}

theorem Returns.unique (h : c.Returns r) (h' : c.Returns r') : r = r' := by
  induction h with
  | answered answer =>
      cases h' with
      | answered answer' => exact Sum.inl.inj (answer.symm.trans answer')
      | passed on _ => cases answer.symm.trans on
  | passed on _ ih =>
      cases h' with
      | answered answer => cases on.symm.trans answer
      | passed on' rest =>
          cases on.symm.trans on'
          exact ih rest

/-- From a value that is passed on, each call leads to the other. -/
theorem turn_circles (circles : c.value.Circles) : ∃ d, c.turn = .inr d ∧ d.value = c.value := by
  obtain ⟨container, f, fails, back⟩ := circles
  cases c with
  | json v => exact ⟨text v, by simp only [turn, show v.compactJson = _ from fails, back, if_true], rfl⟩
  | text v => exact ⟨json v, if_pos container, rfl⟩

/-- What returns does not begin with a value that is passed on. -/
theorem Returns.settled (h : c.Returns r) : ¬c.value.Circles := by
  -- Circling is kept from call to call, and the last call of those that return is answered.
  induction h with
  | answered answer =>
      intro circles
      obtain ⟨d, on, -⟩ := turn_circles circles
      cases answer.symm.trans on
  | passed on _ ih =>
      intro circles
      obtain ⟨d, on', same⟩ := turn_circles circles
      cases on.symm.trans on'
      exact ih (same ▸ circles)

theorem turn_written {v : Value} {s : String} (written : v.compactJson = .ok s) : (json v).turn = .inl (.ok s) := by
  rw [turn, written]

theorem turn_raised {v : Value} {f : Fault} (fails : v.compactJson = .error f) (kept : ¬fallsBack f = true) :
    (json v).turn = .inl (.error f) := by
  simp only [turn, fails, if_neg kept]

theorem json_returns {v : Value} (settled : ¬v.Circles) : (json v).Returns v.toJson := by
  rw [toJson]
  cases written : v.compactJson with
  | ok s => exact .answered (turn_written written)
  | error f =>
      by_cases back : fallsBack f = true
      · have atom : ¬v.isContainer = true := fun container => settled ⟨container, f, written, back⟩
        have on : (json v).turn = .inr (text v) := by simp only [turn, written, back, if_true]
        have answer : (text v).turn = .inl v.atomText := if_neg atom
        simp only [back, Bool.not_true, Bool.false_eq_true, if_false, if_neg atom]
        exact .passed on (.answered answer)
      · simp only [Bool.eq_false_of_not_eq_true back, Bool.not_false, if_true]
        exact .answered (turn_raised written back)

theorem text_returns {v : Value} (settled : ¬v.Circles) : (text v).Returns v.toText := by
  rw [toText]
  split
  · rename_i container
    have on : (text v).turn = .inr (json v) := if_pos container
    refine .passed on ?_
    cases written : v.compactJson with
    | ok s => exact .answered (turn_written written)
    | error f =>
        have back : ¬fallsBack f = true := fun back => settled ⟨container, f, written, back⟩
        simp only [if_neg back]
        exact .answered (turn_raised written back)
  · rename_i atom
    exact .answered (if_neg atom)

/-- Without a value that is passed on, at most one call leads to the other. -/
theorem returns_answer (settled : ¬c.value.Circles) : c.Returns c.answer := by
  cases c with
  | json v => exact json_returns settled
  | text v => exact text_returns settled

theorem answer_circles (circles : c.value.Circles) : c.answer = .error c.endless := by
  obtain ⟨container, f, fails, back⟩ := circles
  cases c with
  | json v =>
      simp only [value] at container fails
      simp only [answer, endless, toJson, fails, back, container, Bool.not_true, Bool.false_eq_true, if_false, if_true]
  | text v =>
      simp only [value] at container fails
      simp only [answer, endless, toText, fails, back, container, if_true]

/-- The conversions come to what their calls return; where these do not return, that counts as going too deep. -/
theorem answer_eq_iff : c.answer = r ↔ c.Returns r ∨ (∀ r', ¬c.Returns r') ∧ r = .error c.endless := by
  by_cases circles : c.value.Circles
  · have never : ∀ r', ¬c.Returns r' := fun r' returns => returns.settled circles
    rw [answer_circles circles]
    exact ⟨fun same => .inr ⟨never, same.symm⟩, fun h => (h.resolve_left (never r)).2.symm⟩
  · have returns := returns_answer circles
    refine ⟨fun same => .inl (same ▸ returns), ?_⟩
    rintro (returns' | ⟨never, -⟩)
    · exact returns.unique returns'
    · exact absurd returns (never _)

end Call

variable {v : Value} {f : Fault} {r : Except Fault String}

/-! ### What stands in the way of a text -/

theorem compactJson_deep (deep : textLevels < v.depth) : v.compactJson = .error (.tooDeep .writing) := by
  rw [compactJson, within, if_pos deep]
  rfl

theorem compactJson_shallow (shallow : v.depth ≤ textLevels) : v.compactJson = Json.text .compact plainText v := by
  rw [compactJson, within, if_neg (Nat.not_lt.mpr shallow)]
  rfl

/-! ### Faults -/

theorem spellings_error {items : List Value} (fails : spellings items = .error f) :
    ∃ u ∈ items, u.spelling = .error f := by
  induction items with
  | nil => cases fails
  | cons u rest ih =>
      rw [spellings] at fails
      rcases bind_error fails with first | ⟨s, -, fails⟩
      · exact ⟨u, List.mem_cons_self, first⟩
      · rcases bind_error fails with others | ⟨row, -, made⟩
        · obtain ⟨w, member, here⟩ := ih others
          exact ⟨w, List.mem_cons_of_mem _ member, here⟩
        · cases made

theorem entrySpellings_error {entries : Entries} (fails : entrySpellings entries = .error f) :
    ∃ e ∈ entries, e.1.spelling = .error f ∨ e.2.spelling = .error f := by
  induction entries with
  | nil => cases fails
  | cons e rest ih =>
      rw [entrySpellings] at fails
      rcases bind_error fails with key | ⟨s, -, fails⟩
      · exact ⟨e, List.mem_cons_self, .inl key⟩
      · rcases bind_error fails with value | ⟨t, -, fails⟩
        · exact ⟨e, List.mem_cons_self, .inr value⟩
        · rcases bind_error fails with others | ⟨row, -, made⟩
          · obtain ⟨w, member, here⟩ := ih others
            exact ⟨w, List.mem_cons_of_mem _ member, here⟩
          · cases made

/-- Whether a fault is that of an integer with too many digits, or of a foreign value without a text. -/
def Unspelled (f : Fault) : Prop := f = .digitLimit ∨ f = .noText

/-- A value without a literal holds an integer with too many digits or a foreign value without a text. -/
theorem spelling_error (fails : v.spelling = .error f) : Unspelled f := by
  induction every_true v with
  | @intro v _ _ ih =>
      have row {items : List Value} {finish : List String → String}
          (each : ∀ u ∈ items, u.spelling = .error f → Unspelled f)
          (fails : (do return finish (← spellings items)) = .error f) : Unspelled f := by
        rcases bind_error fails with inside | ⟨_, -, made⟩
        · obtain ⟨u, member, here⟩ := spellings_error inside
          exact each u member here
        · cases made
      cases v with
      | null | bool _ | float _ | text _ => cases fails
      | int n =>
          rw [spelling] at fails
          by_cases short : n.natAbs < digitBound
          · cases (integerText_short short).symm.trans fails
          · cases (integerText_long short).symm.trans fails
            exact .inl rfl
      | list items => exact row ih fails
      | tuple items =>
          cases items with
          | nil => exact row ih fails
          | cons item rest =>
              cases rest with
              | nil =>
                  rcases bind_error fails with inside | ⟨_, -, made⟩
                  · exact ih item List.mem_cons_self inside
                  · cases made
              | cons next rest => exact row ih fails
      | set items | frozenset items =>
          cases items with
          | nil => cases fails
          | cons item rest => exact row ih fails
      | mapping entries =>
          rcases bind_error fails with inside | ⟨_, -, made⟩
          · obtain ⟨e, member, key | value⟩ := entrySpellings_error inside
            · exact ih e.1 (mem_children_mapping member).1 key
            · exact ih e.2 (mem_children_mapping member).2 value
          · cases made
      | foreign g =>
          rw [spelling] at fails
          split at fails
          · cases fails
          · cases fails
            exact .inr rfl

theorem plainText_error (fails : v.plainText = .error f) :
    Unspelled f ∨ textLevels < v.depth ∧ f = .tooDeep .showing := by
  have literal_error (fails : v.literal = .error f) : Unspelled f ∨ textLevels < v.depth ∧ f = .tooDeep .showing := by
    rcases bind_error fails with deep | ⟨_, -, fails⟩
    · unfold within at deep
      split at deep
      · rename_i deeper
        cases deep
        exact .inr ⟨deeper, rfl⟩
      · cases deep
    · exact .inl (spelling_error fails)
  cases v with
  | text s => cases fails
  | _ => exact literal_error fails

/-- What stands in the way of a text is a key that JSON has no form for, or a part without a literal. -/
theorem blocked_fault (blocked : Blocked .compact plainText v f) (shallow : v.depth ≤ textLevels) :
    Unspelled f ∨ ∃ kind, f = .keyKind kind := by
  induction blocked with
  | int long => exact .inl (.inl rfl)
  | float strict _ => cases strict
  | @list before after u f _ _ ih | @tuple before after u f _ _ ih =>
      have inside : u ∈ (Value.list (before ++ u :: after)).children := List.mem_append_cons_self
      exact ih ((depth_lt inside).le.trans shallow)
  | @key before after k u _ not =>
      cases k with
      | int n => exact .inl (.inl rfl)
      | _ => exact .inr ⟨_, rfl⟩
  | @entry before after k u f _ _ _ ih =>
      have inside : u ∈ (Value.mapping (before ++ (k, u) :: after)).children :=
        (mem_children_mapping List.mem_append_cons_self).2
      exact ih ((depth_lt inside).le.trans shallow)
  | other formless unshown =>
      rcases plainText_error unshown with unspelled | ⟨deep, -⟩
      · exact .inl unspelled
      · exact absurd shallow (Nat.not_le.mpr deep)

theorem Unspelled.kind (unspelled : Unspelled f) : f.kind = .value := by
  rcases unspelled with rfl | rfl <;> rfl

/-- The conversions pass on the containers in which the first part that cannot be written has no literal. -/
theorem circles_iff : v.Circles ↔ v.depth ≤ textLevels ∧ v.isContainer = true ∧
    ∃ f, Unspelled f ∧ Blocked .compact plainText v f := by
  rcases Nat.lt_or_ge textLevels v.depth with deep | shallow
  · refine ⟨fun ⟨_, f, fails, back⟩ => ?_, fun ⟨shallow, _⟩ => absurd deep (Nat.not_lt.mpr shallow)⟩
    cases (compactJson_deep deep).symm.trans fails
    cases back
  · rw [Circles, compactJson_shallow shallow]
    constructor
    · rintro ⟨container, f, fails, back⟩
      have blocked := Json.text_error_iff.mp fails
      rcases blocked_fault blocked shallow with unspelled | ⟨kind, rfl⟩
      · exact ⟨shallow, container, f, unspelled, blocked⟩
      · cases back
    · rintro ⟨_, container, f, unspelled, blocked⟩
      exact ⟨container, f, blocked.text_error, decide_eq_true unspelled.kind⟩

/-- For a value that is no container, the plain text fails as the JSON text did. -/
theorem atomText_blocked (blocked : Blocked .compact plainText v f) (atom : ¬v.isContainer = true) :
    v.atomText = .error f := by
  cases blocked with
  | @int n long => exact (literal_int n).trans (integerText_long long)
  | float strict _ => cases strict
  | list | tuple | key | entry => exact absurd rfl atom
  | other formless unshown =>
      cases v with
      | set _ | frozenset _ | foreign _ => exact unshown
      | _ => exact absurd trivial formless

/-! ### Answers -/

/-- How a call for the JSON text of a value ends: with the text, with the fault of what stands in its way, or not at
all. -/
inductive Answered (v : Value) : Prop
  | deep (deep : textLevels < v.depth) (raises : (Call.json v).Returns (.error (.tooDeep .writing)))
  | text (shallow : v.depth ≤ textLevels) (writable : Writable .compact plainText v) (s : String)
      (returns : (Call.json v).Returns (.ok s))
  | key (shallow : v.depth ≤ textLevels) (kind : String) (blocked : Blocked .compact plainText v (.keyKind kind))
      (raises : (Call.json v).Returns (.error (.keyKind kind)))
  | atom (shallow : v.depth ≤ textLevels) (atom : v.isContainer = false) (f : Fault) (unspelled : Unspelled f)
      (blocked : Blocked .compact plainText v f) (raises : (Call.json v).Returns (.error f))
  | never (shallow : v.depth ≤ textLevels) (container : v.isContainer = true) (f : Fault) (unspelled : Unspelled f)
      (blocked : Blocked .compact plainText v f) (never : ∀ r, ¬(Call.json v).Returns r)

theorem json_text (shallow : v.depth ≤ textLevels) (writable : Writable .compact plainText v) :
    (Call.json v).Returns (.ok (Json.written .compact plainText v).2) := by
  have written := compactJson_shallow shallow
  rw [writable.text_ok] at written
  exact .answered (Call.turn_written written)

theorem answered (v : Value) : v.Answered := by
  rcases Nat.lt_or_ge textLevels v.depth with deep | shallow
  · exact .deep deep (.answered (Call.turn_raised (compactJson_deep deep) Bool.false_ne_true))
  · rcases Json.writable_or_blocked .compact plainText v with writable | ⟨f, blocked⟩
    · exact .text shallow writable _ (json_text shallow writable)
    · have written := compactJson_shallow shallow
      rw [blocked.text_error] at written
      rcases blocked_fault blocked shallow with unspelled | ⟨kind, rfl⟩
      · by_cases container : v.isContainer = true
        · have circles : v.Circles := circles_iff.mpr ⟨shallow, container, f, unspelled, blocked⟩
          exact .never shallow container f unspelled blocked fun r returns => returns.settled circles
        · have answer := Call.json_returns fun circles => container circles.1
          have fails : v.toJson = .error f := by
            have back : fallsBack f = true := decide_eq_true unspelled.kind
            simp only [toJson, written, back, Bool.not_true, Bool.false_eq_true, if_false, if_neg container,
              atomText_blocked blocked container]
          rw [fails] at answer
          exact .atom shallow (Bool.eq_false_of_not_eq_true container) f unspelled blocked answer
      · exact .key shallow kind blocked (.answered (Call.turn_raised written Bool.false_ne_true))

/-- A call for the JSON text returns a text exactly when all of the value can be written. -/
theorem json_ok_iff : (∃ s, (Call.json v).Returns (.ok s)) ↔ v.depth ≤ textLevels ∧ Writable .compact plainText v := by
  refine ⟨fun ⟨s, returns⟩ => ?_, fun ⟨shallow, writable⟩ => ⟨_, json_text shallow writable⟩⟩
  cases answered v with
  | text shallow writable => exact ⟨shallow, writable⟩
  | deep _ raises | key _ _ _ raises | atom _ _ _ _ _ raises => cases returns.unique raises
  | never _ _ _ _ _ never => exact absurd returns (never _)

theorem Call.never_iff {c : Call} : (∀ r, ¬c.Returns r) ↔ c.value.Circles := by
  refine ⟨fun never => ?_, fun circles r returns => returns.settled circles⟩
  by_contra settled
  exact never _ (returns_answer settled)

/-! ### What a block makes of them -/

/-- Whether a fault is of a kind that the conversions give. -/
def IsConversion (f : Fault) : Prop := f.kind = .value ∨ f.kind = .type ∨ f.kind = .recursion

theorem compactJson_fault (fails : v.compactJson = .error f) : IsConversion f := by
  rcases Nat.lt_or_ge textLevels v.depth with deep | shallow
  · cases (compactJson_deep deep).symm.trans fails
    exact .inr (.inr rfl)
  · rw [compactJson_shallow shallow] at fails
    rcases blocked_fault (Json.text_error_iff.mp fails) shallow with unspelled | ⟨kind, rfl⟩
    · exact .inl unspelled.kind
    · exact .inr (.inl rfl)

theorem atomText_fault (fails : v.atomText = .error f) : IsConversion f := by
  have plain (fails : v.plainText = .error f) : IsConversion f := by
    rcases plainText_error fails with unspelled | ⟨-, rfl⟩
    · exact .inl unspelled.kind
    · exact .inr (.inr rfl)
  cases v with
  | null | bool _ | float _ => cases fails
  | _ => exact plain fails

theorem Call.answer_fault {c : Call} (fails : c.answer = .error f) : IsConversion f := by
  cases c with
  | json v =>
      simp only [answer, toJson] at fails
      split at fails
      · cases fails
      · rename_i written
        split at fails
        · exact Except.error.inj fails ▸ compactJson_fault written
        · split at fails
          · exact Except.error.inj fails ▸ .inr (.inr rfl)
          · exact atomText_fault fails
  | text v =>
      simp only [answer, toText] at fails
      split at fails
      · split at fails
        · cases fails
        · rename_i written
          split at fails
          · exact Except.error.inj fails ▸ .inr (.inr rfl)
          · exact Except.error.inj fails ▸ compactJson_fault written
      · exact atomText_fault fails

end Value

namespace Standard
open Plan

variable {f : Fault}

theorem leaving_conversion (of : Value.IsConversion f) : Process.leaving .stream f = f := by
  refine if_neg ?_
  rcases of with kind | kind | kind <;> rw [kind] <;> decide

/-- The name that an element is given for a variable. -/
def nameOf (c : Context) : Value :=
  (Entries.field c.inputs "name").orElse ((Entries.field c.inputs "target").orElse (.text "variable"))

/-- What becomes of the block that sets a variable: it writes its log line before it hands its value over. -/
inductive SetsVariable (c : Context) : List Emission → Ending → Prop
  | unnamed (f : Fault) (fails : (nameOf c).toText = .error f) : SetsVariable c [] (.fault f)
  | untold (name : String) (named : (nameOf c).toText = .ok name) (f : Fault)
      (fails : (Entries.field c.inputs "value").toJson = .error f) : SetsVariable c [] (.fault f)
  | refused (name line : String) (named : (nameOf c).toText = .ok name)
      (told : (Entries.field c.inputs "value").toJson = .ok line)
      (large : ¬(Entries.field c.inputs "value").Emittable) :
      SetsVariable c [] (.fault (Entries.field c.inputs "value").refusal)
  | sent (name line : String) (named : (nameOf c).toText = .ok name)
      (told : (Entries.field c.inputs "value").toJson = .ok line)
      (fits : (Entries.field c.inputs "value").Emittable) :
      SetsVariable c [⟨"result", Entries.field c.inputs "value"⟩] .normal

theorem setVariable_gives (sight : Sight) : setVariable.plan.Gives sight (SetsVariable sight.context) := by
  refine gives_input _ (gives_input _ ?_)
  show Gives (of (nameOf sight.context).toText >>= _) _ _
  refine gives_of (fun name named => ?_) fun f fails => ?_
  · refine gives_input _ (gives_storeGlobal _ _ (gives_store rfl _ ?_))
    refine gives_of (fun line told => gives_say _ (gives_emitted rfl ?_ ?_)) fun f fails => ?_
    · exact .sent name line named told
    · exact .refused name line named told
    · rw [leaving_conversion (Value.Call.answer_fault (c := .json _) fails)]
      exact .untold name named f fails
  · rw [leaving_conversion (Value.Call.answer_fault (c := .text _) fails)]
    exact .unnamed f fails

/-- When a call for the JSON text of a value returns a text, when it does not return at all, and what else becomes of
it; and what the block that sets a variable makes of it. -/
theorem lines_answered (v : Value) (c : Context) (sessions : ℕ → Session) :
    ((∃ s, (Value.Call.json v).Returns (.ok s)) ↔ v.depth ≤ Value.textLevels ∧ Writable .compact Value.plainText v) ∧
    ((∀ r, ¬(Value.Call.json v).Returns r) ↔ v.depth ≤ Value.textLevels ∧ v.isContainer = true ∧
      ∃ f, Value.Unspelled f ∧ Blocked .compact Value.plainText v f) ∧
    v.Answered ∧
    (∀ r, v.toJson = r ↔ (Value.Call.json v).Returns r ∨
      (∀ r', ¬(Value.Call.json v).Returns r') ∧ r = .error .endlessJson) ∧
    ∃ es e, (setVariable.invoked c).Emits sessions es e ∧ SetsVariable c es e :=
  ⟨Value.json_ok_iff, Value.Call.never_iff.trans Value.circles_iff, v.answered,
    fun _ => Value.Call.answer_eq_iff (c := .json v),
    StandardBlock.invoked_emits rfl (setVariable_gives (StandardBlock.sight c (sessions 0)))⟩

/-- A value of a foreign type that has no text. -/
def mute : Value := .foreign ⟨"Node", "graph", none, true, 0, 0⟩

/-- A list of a value without a text is passed on without end, and a mapping with a tuple as a key has no text. -/
theorem lines_unanswered : (∀ r, ¬(Value.Call.json (.list [mute])).Returns r) ∧
    (Value.mapping [(.tuple [.int 1], .int 2)]).toJson = .error (.keyKind "tuple") := by
  have blocked : Blocked .compact Value.plainText (.list [mute]) .noText :=
    @Blocked.list _ _ [] [] mute .noText (List.forall_mem_nil _) (.other id rfl)
  have circles : (Value.list [mute]).Circles :=
    Value.circles_iff.mpr ⟨by decide, rfl, .noText, .inr rfl, blocked⟩
  exact ⟨fun r returns => returns.settled circles, by decide +kernel⟩

end Standard

end BlockGraph
