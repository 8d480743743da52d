import BlockGraph.Proofs.Documents
import BlockGraph.Value.Plain
/-!
Plain data: what values are reduced to. The result is data that strict JSON can hold, is nested no deeper than asked
for, and is not changed by reducing it again. The one thing that keeps a value from being reduced is that there are
no levels left to go down.
-/
namespace BlockGraph

namespace Value

/-! ### Levels -/

/-- The values that lie directly under a value; keys do not. -/
def under : Value → List Value
  | list items | tuple items | set items | frozenset items => items
  | mapping entries => entries.map (·.2)
  | _ => []

mutual

/-- How many levels a value has, itself being on the first. -/
def height : Value → Nat
  | .list items | .tuple items | .set items | .frozenset items => itemsHeight items + 1
  | .mapping entries => entriesHeight entries + 1
  | _ => 1

def itemsHeight : List Value → Nat
  | [] => 0
  | v :: rest => max (height v) (itemsHeight rest)

def entriesHeight : List (Value × Value) → Nat
  | [] => 0
  | (_, v) :: rest => max (height v) (entriesHeight rest)

end

variable {v r : Value} {n levels depth : Nat} {items : List Value} {entries : Entries}

theorem height_pos (v : Value) : 0 < v.height := by
  cases v <;> simp only [height] <;> omega

theorem lt_itemsHeight : n < itemsHeight items ↔ ∃ u ∈ items, n < u.height := by
  induction items with
  | nil => simp [itemsHeight]
  | cons u rest ih =>
      rw [itemsHeight, List.exists_mem_cons_iff, ← ih]
      omega

theorem entriesHeight_eq (entries : Entries) : entriesHeight entries = itemsHeight (entries.map (·.2)) := by
  induction entries with
  | nil => rfl
  | cons e rest ih => rw [entriesHeight, ih, List.map_cons, itemsHeight]

/-- A value reaches below its own level where one of those under it reaches. -/
theorem lt_height : n + 1 < v.height ↔ ∃ u ∈ v.under, n < u.height := by
  cases v with
  | list items | tuple items | set items | frozenset items =>
      simp only [height, under, ← lt_itemsHeight]
      omega
  | mapping entries =>
      simp only [height, under, ← lt_itemsHeight, entriesHeight_eq]
      omega
  | _ => simp [height, under]

/-- Whether a value cannot be gone through within so many levels, nor is cut off before. -/
def Exceeds (levels depth : Nat) (v : Value) : Prop := levels < v.height ∧ levels ≤ depth

theorem exceeds_zero (depth : Nat) (v : Value) : Exceeds 0 depth v := ⟨height_pos v, Nat.zero_le depth⟩

theorem exceeds_succ : Exceeds (levels + 1) (depth + 1) v ↔ ∃ u ∈ v.under, Exceeds levels depth u := by
  simp only [Exceeds, lt_height, Nat.add_le_add_iff_right]
  exact ⟨fun ⟨⟨u, member, less⟩, most⟩ => ⟨u, member, less, most⟩, fun ⟨u, member, less, most⟩ => ⟨⟨u, member, less⟩, most⟩⟩

/-! ### What values are reduced to -/

/-- Data that strict JSON can hold: null, truth values, integers, finite doubles, texts, lists, and mappings that
have texts for keys, no two the same. -/
def IsStrict (v : Value) : Prop := v.Every fun u => match u with
  | .tuple _ | .set _ | .frozenset _ | .foreign _ => False
  | .float x => x.isFinite = true
  | .mapping entries => (∀ e ∈ entries, ∃ k, e.1 = .text k) ∧ Entries.Distinct entries
  | _ => True

/-- Whether every key of a mapping has a text, wherever it lies. -/
def KeysTold (v : Value) : Prop := v.Every fun u => match u with
  | .mapping entries => ∀ e ∈ entries, ∃ s, e.1.plainText = .ok s
  | _ => True

/-- What a value may be reduced to, within so many levels and down to a depth. -/
structure Reduced (levels depth : Nat) (r : Value) : Prop where
  strict : r.IsStrict
  shallow : r.depth ≤ depth
  stays : plainWithin levels depth r = .ok r

/-- Entries that a mapping may be reduced to. -/
structure ReducedEntries (levels depth : Nat) (entries : Entries) : Prop where
  each : ∀ e ∈ entries, (∃ k, e.1 = .text k) ∧ Reduced levels depth e.2
  distinct : entries.Distinct

theorem entriesDepth_le (h : ∀ e ∈ entries, e.1.depth ≤ n ∧ e.2.depth ≤ n) : entriesDepth entries ≤ n := by
  induction entries with
  | nil => exact Nat.zero_le n
  | cons e rest ih =>
      obtain ⟨first, others⟩ := List.forall_mem_cons.mp h
      exact Nat.max_le.mpr ⟨Nat.max_le.mpr first, ih others⟩

theorem mapM_same {ε α : Type} {f : α → Except ε α} {xs : List α} (h : ∀ x ∈ xs, f x = .ok x) :
    xs.mapM f = .ok xs := by
  induction xs with
  | nil => rfl
  | cons x rest ih =>
      obtain ⟨first, others⟩ := List.forall_mem_cons.mp h
      rw [List.mapM_cons, first, ih others]
      rfl

/-- Entries under texts that are all different are written as they are. -/
theorem foldlM_same {plain : Value → Except Fault Value} (done : Entries)
    (texts : ∀ e ∈ entries, ∃ k, e.1 = .text k) (distinct : (done ++ entries).Distinct)
    (same : ∀ e ∈ entries, plain e.2 = .ok e.2) :
    entries.foldlM (plainEntry plain) done = .ok (done ++ entries) := by
  induction entries generalizing done with
  | nil => rw [List.append_nil]; rfl
  | cons e rest ih =>
      obtain ⟨⟨k, text⟩, texts⟩ := List.forall_mem_cons.mp texts
      obtain ⟨first, same⟩ := List.forall_mem_cons.mp same
      have fresh : ∀ e' ∈ done, e'.1.isSameItem (.text k) = false := by
        intro e' member
        rw [Bool.eq_false_iff, ne_eq, isSameItem_text]
        intro there
        have apart := (List.pairwise_append.mp distinct).2.2 e' member e List.mem_cons_self k there
        exact apart text
      have written : plainEntry plain done e = .ok (done ++ [e]) := by
        rw [plainEntry, first, text]
        show Except.ok (Entries.write done (.text k) e.2) = _
        rw [Entries.write_fresh fresh, ← text]
      rw [List.append_cons] at distinct
      rw [List.foldlM_cons, written]
      show List.foldlM _ _ _ = _
      rw [ih (done ++ [e]) texts distinct same, ← List.append_cons]

namespace Reduced

theorem list (h : ∀ u ∈ items, Reduced levels depth u) : Reduced (levels + 1) (depth + 1) (.list items) where
  strict := .intro trivial fun u member => (h u member).strict
  shallow := Nat.succ_le_succ (itemsDepth_le fun u member => (h u member).shallow)
  stays := by
    rw [plainWithin, mapM_same fun u member => (h u member).stays]
    rfl

theorem mapping (h : ReducedEntries levels depth entries) : Reduced (levels + 1) (depth + 1) (.mapping entries) where
  strict := by
    refine .intro ⟨fun e member => (h.each e member).1, h.distinct⟩ (forall_children_mapping.mpr fun e member => ?_)
    obtain ⟨⟨k, text⟩, value⟩ := h.each e member
    exact ⟨text ▸ .intro trivial nofun, value.strict⟩
  shallow := by
    refine Nat.succ_le_succ (entriesDepth_le fun e member => ?_)
    obtain ⟨⟨k, text⟩, value⟩ := h.each e member
    exact ⟨text ▸ Nat.zero_le depth, value.shallow⟩
  stays := by
    have same := foldlM_same [] (fun e member => (h.each e member).1) h.distinct
      fun e member => (h.each e member).2.stays
    rw [plainWithin, same]
    rfl

/-- What holds no other values and is no foreign value is reduced to itself, unless it is a double that is not
finite. -/
theorem leaf (strict : r.IsStrict) (low : r.depth = 0) : Reduced (levels + 1) (depth + 1) r where
  strict := strict
  shallow := low ▸ Nat.zero_le (depth + 1)
  stays := by
    have here := strict.here
    cases r with
    | float x => cases x <;> first | rfl | cases here
    | list items | tuple items | mapping entries | set items | frozenset items => cases low
    | foreign f => exact here.elim
    | _ => rfl

theorem text (s : String) : Reduced (levels + 1) (depth + 1) (.text s) := leaf (.intro trivial nofun) rfl

theorem mark : Reduced (levels + 1) 0 (.text depthMark) := ⟨.intro trivial nofun, Nat.le_refl 0, rfl⟩

end Reduced

/-- Writing under a text keeps the keys of a mapping texts that are all different. -/
theorem ReducedEntries.write (h : ReducedEntries levels depth entries) (key : String) (value : Reduced levels depth r) :
    ReducedEntries levels depth (Entries.writeField entries key r) where
  each := by
    intro e member
    unfold Entries.writeField Entries.write at member
    split at member
    · obtain ⟨e', there, rfl⟩ := List.mem_map.mp member
      split
      · exact ⟨(h.each e' there).1, value⟩
      · exact h.each e' there
    · rcases List.mem_append.mp member with there | last
      · exact h.each e there
      · obtain rfl := List.mem_singleton.mp last
        exact ⟨⟨key, rfl⟩, value⟩
  distinct := h.distinct.write

/-! ### Reducing -/

section

variable {α β : Type} {f : α → Except Fault β} {xs : List α} {short short' : Prop} {good : α → Prop} {good' : β → Prop}

/-- How reducing may end, where `short` tells whether there are too few levels. -/
inductive Ending (short : Prop) (good : α → Prop) : Except Fault α → Prop
  | tooDeep (h : short) : Ending short good (.error (.tooDeep .converting))
  | reduced (enough : ¬short) (a : α) (h : good a) : Ending short good (.ok a)

theorem Ending.map {x : Except Fault α} (h : Ending short good x) (f : α → β) (same : short ↔ short')
    (keeps : ∀ a, good a → good' (f a)) : Ending short' good' (x >>= fun a => pure (f a)) := by
  cases h with
  | tooDeep h => exact .tooDeep (same.mp h)
  | reduced enough a h => exact .reduced (mt same.mpr enough) (f a) (keeps a h)

theorem mapM_ending {stuck : α → Prop} (each : ∀ x ∈ xs, Ending (stuck x) good' (f x)) :
    Ending (∃ x ∈ xs, stuck x) (fun ys => ∀ y ∈ ys, good' y) (xs.mapM f) := by
  induction xs with
  | nil => exact .reduced (by simp) [] nofun
  | cons x rest ih =>
      obtain ⟨first, others⟩ := List.forall_mem_cons.mp each
      rw [List.mapM_cons, List.exists_mem_cons_iff]
      generalize f x = made at first
      cases first with
      | tooDeep h => exact .tooDeep (.inl h)
      | reduced enough y h =>
          refine (ih others).map (y :: ·) ?_ fun ys holds => List.forall_mem_cons.mpr ⟨h, holds⟩
          rw [or_iff_right enough]

end

theorem foldlM_ending {levels depth : Nat} {done : Entries} (told : ∀ e ∈ entries, ∃ s, e.1.plainText = .ok s)
    (each : ∀ e ∈ entries, Ending (Exceeds levels depth e.2) (Reduced levels depth) (plainWithin levels depth e.2))
    (written : ReducedEntries levels depth done) :
    Ending (∃ e ∈ entries, Exceeds levels depth e.2) (ReducedEntries levels depth)
      (entries.foldlM (plainEntry (plainWithin levels depth)) done) := by
  induction entries generalizing done with
  | nil => exact .reduced (by simp) done written
  | cons e rest ih =>
      obtain ⟨⟨s, text⟩, told⟩ := List.forall_mem_cons.mp told
      obtain ⟨first, each⟩ := List.forall_mem_cons.mp each
      rw [List.foldlM_cons, List.exists_mem_cons_iff, plainEntry, text]
      generalize plainWithin levels depth e.2 = made at first
      cases first with
      | tooDeep h => exact .tooDeep (.inl h)
      | reduced enough r h =>
          rw [or_iff_right enough]
          exact ih told each (written.write s h)

/-- Reducing gives up exactly where the levels do not suffice. -/
theorem plainWithin_ending (levels depth : Nat) (told : v.KeysTold) :
    Ending (Exceeds levels depth v) (Reduced levels depth) (plainWithin levels depth v) := by
  induction levels generalizing depth v with
  | zero => exact .tooDeep (exceeds_zero depth v)
  | succ levels ih =>
      cases depth with
      | zero => exact .reduced (fun h => absurd h.2 (Nat.not_succ_le_zero levels)) _ .mark
      | succ depth =>
          have leaf : ∀ {r : Value}, v.height = 1 → Reduced (levels + 1) (depth + 1) r →
              Ending (Exceeds (levels + 1) (depth + 1) v) (Reduced (levels + 1) (depth + 1)) (.ok r) :=
            fun low h => .reduced (fun more => absurd more.1 (by omega)) _ h
          cases v with
          | list items | tuple items | set items | frozenset items =>
              have row : Ending (∃ u ∈ items, Exceeds levels depth u) _ _ :=
                mapM_ending fun u member => ih depth (told.inside u member)
              exact row.map list (by rw [exceeds_succ, under]) fun rs h => Reduced.list h
          | mapping entries =>
              have values : ∀ e ∈ entries, Ending (Exceeds levels depth e.2) (Reduced levels depth) _ :=
                fun e member => ih depth (told.inside e.2 (mem_children_mapping member).2)
              have row := foldlM_ending told.here values ⟨fun e member => absurd member List.not_mem_nil, .nil⟩
              refine row.map mapping ?_ fun rs h => Reduced.mapping h
              simp only [exceeds_succ, under, List.mem_map, exists_exists_and_eq_and]
          | float x =>
              refine leaf rfl ?_
              cases x with
              | finite negative code inRange => exact .leaf (.intro rfl nofun) rfl
              | _ => exact .text _
          | foreign f => exact leaf rfl (.text _)
          | _ => exact leaf rfl (.leaf (.intro trivial nofun) rfl)

/-- Strict data whose levels are all within the depth is not changed. -/
theorem plainWithin_same (strict : v.IsStrict) (most : v.height ≤ depth) (enough : v.height ≤ levels) :
    plainWithin levels depth v = .ok v := by
  obtain ⟨levels, rfl⟩ := Nat.exists_eq_add_one.mpr (Nat.lt_of_lt_of_le (height_pos v) enough)
  obtain ⟨depth, rfl⟩ := Nat.exists_eq_add_one.mpr (Nat.lt_of_lt_of_le (height_pos v) most)
  induction strict generalizing levels depth with
  | @intro v here inside ih =>
      -- What lies under the value has one level less, and there is one level less for it.
      have same : ∀ u ∈ v.under, u ∈ v.children → plainWithin levels depth u = .ok u := by
        intro u member child
        have low {n : Nat} (h : v.height ≤ n + 1) : u.height ≤ n :=
          Nat.le_of_not_lt fun more => absurd (lt_height.mpr ⟨u, member, more⟩) (Nat.not_lt.mpr h)
        obtain ⟨l, rfl⟩ := Nat.exists_eq_add_one.mpr (Nat.lt_of_lt_of_le (height_pos u) (low enough))
        obtain ⟨d, rfl⟩ := Nat.exists_eq_add_one.mpr (Nat.lt_of_lt_of_le (height_pos u) (low most))
        exact ih u child l (low enough) d (low most)
      cases v with
      | list items =>
          have row : items.mapM (plainWithin levels depth) = .ok items := mapM_same fun u member => same u member member
          rw [plainWithin, row]
          rfl
      | mapping entries =>
          have values : ∀ e ∈ entries, plainWithin levels depth e.2 = .ok e.2 := fun e member =>
            same e.2 (List.mem_map_of_mem member) (mem_children_mapping member).2
          rw [plainWithin, foldlM_same [] here.1 here.2 values]
          rfl
      | float x => cases x <;> first | rfl | cases here
      | tuple items | set items | frozenset items | foreign f => exact here.elim
      | _ => rfl

/-- A value whose keys have texts is reduced to data that strict JSON can hold, is nested no deeper than asked for and
is not changed by reducing it again; data of this kind whose levels are all within the depth stays as it is. Only
where there are more levels to go down than can be is the value given up. -/
theorem plain_strict (depth : Nat) (told : v.KeysTold) :
    plainLevels < v.height ∧ plainLevels ≤ depth ∧ plain depth v = .error (.tooDeep .converting) ∨
    (v.height ≤ plainLevels ∨ depth < plainLevels) ∧ ∃ r, plain depth v = .ok r ∧ r.IsStrict ∧ r.depth ≤ depth ∧
      plain depth r = .ok r ∧ (v.IsStrict → v.height ≤ depth → r = v) := by
  have ending := plainWithin_ending plainLevels depth told
  unfold plain
  generalize made : plainWithin plainLevels depth v = outcome at ending
  cases ending with
  | tooDeep h => exact .inl ⟨h.1, h.2, rfl⟩
  | reduced enough r h =>
      have range : v.height ≤ plainLevels ∨ depth < plainLevels := by
        simp only [Exceeds] at enough
        omega
      refine .inr ⟨range, r, rfl, h.strict, h.shallow, h.stays, fun strict within => ?_⟩
      rw [plainWithin_same strict within (by omega)] at made
      exact (Except.ok.inj made).symm

theorem height_boxes (n : Nat) : (boxes n).height = n + 1 := by
  induction n with
  | zero => rfl
  | succ n ih => rw [boxes, height, itemsHeight, ih, itemsHeight, Nat.max_zero]

theorem boxes_told (n : Nat) : (boxes n).KeysTold := by
  induction n with
  | zero => exact .intro trivial nofun
  | succ n ih => exact .intro trivial (List.forall_mem_singleton.mpr ih)

/-- A mapping with two keys of one text, the first of them over lists inside of each other. -/
def hidden (n : Nat) : Value := .mapping [(.bool true, boxes n), (.text "True", .null)]

theorem hidden_told (n : Nat) : (hidden n).KeysTold := by
  refine .intro ?_ (forall_children_mapping.mpr ?_)
  · exact List.forall_mem_cons.mpr ⟨⟨"True", rfl⟩, List.forall_mem_singleton.mpr ⟨"True", rfl⟩⟩
  · have scalar : (Value.text "True").KeysTold ∧ Value.null.KeysTold := ⟨.intro trivial nofun, .intro trivial nofun⟩
    exact List.forall_mem_cons.mpr ⟨⟨.intro trivial nofun, boxes_told n⟩, List.forall_mem_singleton.mpr scalar⟩

theorem plain_strict_cut :
    plainLevels < (hidden 2).height ∧ plainLevels ≤ 2 ∧ plain 2 (hidden 2) = .error (.tooDeep .converting) ∨
    ((hidden 2).height ≤ plainLevels ∨ 2 < plainLevels) ∧ ∃ r, plain 2 (hidden 2) = .ok r ∧ r.IsStrict ∧ r.depth ≤ 2 ∧
      plain 2 r = .ok r ∧ ((hidden 2).IsStrict → (hidden 2).height ≤ 2 → r = hidden 2) :=
  plain_strict 2 (hidden_told 2)

/-- What is nested deeper than can be gone down is given up, though nothing would be left of it. -/
theorem plain_gives_up : (hidden 900).KeysTold ∧ plain 1000 (hidden 900) = .error (.tooDeep .converting) := by
  have told := hidden_told 900
  have tall : plainLevels < (hidden 900).height := by
    simp only [hidden, height, entriesHeight, height_boxes]
    decide
  have ending := plainWithin_ending plainLevels 1000 told
  rw [plain]
  generalize plainWithin plainLevels 1000 (hidden 900) = outcome at ending
  cases ending with
  | tooDeep h => exact ⟨told, rfl⟩
  | reduced enough r h => exact absurd ⟨tall, by decide⟩ enough

end Value

end BlockGraph
