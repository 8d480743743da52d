import BlockGraph.Proofs.Registrations
/-!
Names of block types. A registry accepts a text as a name exactly when it is a letter with letters, digits,
underscores and dashes behind it, of at most fifty characters in all, the last of which may also be a line break.
-/
namespace BlockGraph

namespace BlockType

variable {cs : List Char} {s : String}

/-- A letter with letters, digits, underscores and dashes behind it. -/
def Spelled (cs : List Char) : Prop :=
  ∃ c rest, cs = c :: rest ∧ isLetter c = true ∧ ∀ x ∈ rest, isNameChar x = true

/-- What a registry takes for the name of a block type. -/
structure Named (s : String) : Prop where
  short : s.length ≤ 50
  spelled : Spelled s.toList ∨ ∃ name, Spelled name ∧ s.toList = name ++ ['\n']

theorem isNameChar_lineBreak : isNameChar '\n' = false := by decide

/-- A line break at the end of a name is left out of account, as long as something stands before it. -/
theorem isName_iff : isName cs = true ↔ Spelled cs ∨ ∃ name, Spelled name ∧ cs = name ++ ['\n'] := by
  constructor
  · intro h
    cases cs with
    | nil => cases h
    | cons c rest =>
        obtain ⟨letter, h⟩ := Bool.and_eq_true_iff.mp h
        split at h
        · rename_i last
          obtain ⟨before, rfl⟩ := List.getLast?_eq_some_iff.mp last
          rw [List.dropLast_concat] at h
          exact .inr ⟨c :: before, ⟨c, before, rfl, letter, List.all_eq_true.mp h⟩, rfl⟩
        · exact .inl ⟨c, rest, rfl, letter, List.all_eq_true.mp h⟩
  · rintro (⟨c, rest, rfl, letter, others⟩ | ⟨_, ⟨c, rest, rfl, letter, others⟩, rfl⟩)
    · refine Bool.and_eq_true_iff.mpr ⟨letter, ?_⟩
      split
      · rename_i last
        have accepted := others _ (List.mem_of_getLast? last)
        exact absurd accepted (Bool.eq_false_iff.mp isNameChar_lineBreak)
      · exact List.all_eq_true.mpr others
    · rw [List.cons_append]
      refine Bool.and_eq_true_iff.mpr ⟨letter, ?_⟩
      rw [List.getLast?_concat, List.dropLast_concat]
      exact List.all_eq_true.mpr others

theorem isBlank_of_isLetter {c : Char} (letter : isLetter c = true) : Text.isBlank c = false := by
  simp only [isLetter, Bool.or_eq_true, Bool.and_eq_true, decide_eq_true_eq, Char.le_def,
    UInt32.le_iff_toNat_le] at letter
  have range : 65 ≤ c.toNat ∧ c.toNat ≤ 90 ∨ 97 ≤ c.toNat ∧ c.toNat ≤ 122 := letter
  simp only [Text.isBlank, Bool.or_eq_false_iff, Bool.and_eq_false_iff, decide_eq_false_iff_not,
    beq_eq_false_iff_ne]
  omega

theorem Spelled.notBlank (h : Spelled cs) : cs.all Text.isBlank = false := by
  obtain ⟨c, rest, rfl, letter, -⟩ := h
  rw [List.all_cons, isBlank_of_isLetter letter, Bool.false_and]

theorem Named.notBlank (h : Named s) : Text.isBlankText s = false := by
  rcases h.spelled with spelled | ⟨name, spelled, ends⟩
  · exact spelled.notBlank
  · rw [Text.isBlankText, ends, List.all_append, spelled.notBlank, Bool.false_and]

/-- The check of a name. -/
theorem ofValue_iff : ofValue (.text s) = .ok s ↔ Named s := by
  constructor
  · intro h
    simp only [ofValue] at h
    split at h
    · cases h
    · split at h
      · cases h
      · rename_i short
        split at h
        · exact ⟨Nat.not_lt.mp short, isName_iff.mp ‹_›⟩
        · cases h
  · intro h
    simp only [ofValue, h.notBlank, Bool.false_eq_true, if_false, if_neg (Nat.not_lt.mpr h.short),
      isName_iff.mpr h.spelled, if_true, maxLength]

end BlockType

namespace Registry

/-- Every name in a registry is a proper one, whatever calls were made, and a text can be registered exactly when
it is one. -/
theorem names_proper (calls : List Call) (s : String) :
    (∀ b ∈ (ofCalls calls).blocks, BlockType.Named b.1) ∧
      ((∃ (r : Registry) (what : Registrant) (stored : BlockDefinition × Registry) (lines : List JournalEntry),
        (r.register (.text s) what).outcome = (.ok stored, lines)) ↔ BlockType.Named s) := by
  refine ⟨fun b member => BlockType.ofValue_iff.mp (ofCalls_sound calls b member).named, ?_, ?_⟩
  · rintro ⟨r, what, ⟨d, r'⟩, lines, h⟩
    obtain ⟨name, named, -⟩ := register_ok h
    cases ofValue_ok named
    exact BlockType.ofValue_iff.mp named
  · intro named
    exact ⟨empty, .draft .least, _, _, register_least (BlockType.ofValue_iff.mpr named)⟩

/-- A registry to which one name was given holds a proper one. -/
theorem names_proper_least : ∃ b ∈ (ofCalls [.register (.text "add") (.draft .least)]).blocks,
    BlockType.Named b.1 := by
  have named : BlockType.Named "add" := ⟨by decide, .inl ⟨'a', ['d', 'd'], by decide, by decide, List.all_eq_true.mp (by decide)⟩⟩
  have member := mem_ofCalls_least (BlockType.ofValue_iff.mpr named)
  exact ⟨_, member, (names_proper _ "add").1 _ member⟩

/-- A registry can hold a name with a line break in it. -/
theorem line_break_named : ∃ calls, (∃ b ∈ (ofCalls calls).blocks, b.1 = "add\n") ∧
    ¬BlockType.Spelled "add\n".toList := by
  have ends : "add\n".toList = ['a', 'd', 'd'] ++ ['\n'] := by decide
  have named : BlockType.Named "add\n" :=
    ⟨by decide, .inr ⟨['a', 'd', 'd'], ⟨'a', ['d', 'd'], rfl, by decide, List.all_eq_true.mp (by decide)⟩, ends⟩⟩
  have member := mem_ofCalls_least (BlockType.ofValue_iff.mpr named)
  refine ⟨[.register (.text "add\n") (.draft .least)], ⟨_, member, rfl⟩, ?_⟩
  rintro ⟨c, rest, same, -, others⟩
  rw [ends] at same
  obtain ⟨rfl, rfl⟩ := List.cons.inj same
  exact absurd (others '\n' (by decide)) (by decide)

end Registry

end BlockGraph
