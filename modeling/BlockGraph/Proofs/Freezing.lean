import BlockGraph.Proofs.Inputs
/-!
Freezing: what becomes of data that is copied, frozen for good and handed out again in copies. A copy of frozen
data is the data with its tuples as lists and its frozen sets as sets, however deep they lie outside of sets, and
freezing that copy gives the frozen data back.
-/
namespace BlockGraph

namespace Value

/-! ### Parts of values -/

/-- The values directly inside a value. -/
def children : Value → List Value
  | list items | tuple items | set items | frozenset items => items
  | mapping entries => entries.flatMap fun e => [e.1, e.2]
  | _ => []

theorem mem_children_mapping {entries : Entries} {e : Value × Value} (h : e ∈ entries) :
    e.1 ∈ (mapping entries).children ∧ e.2 ∈ (mapping entries).children :=
  ⟨List.mem_flatMap.mpr ⟨e, h, List.mem_cons_self⟩,
    List.mem_flatMap.mpr ⟨e, h, List.mem_cons_of_mem _ List.mem_cons_self⟩⟩

theorem forall_children_mapping {p : Value → Prop} {entries : Entries} :
    (∀ u ∈ (mapping entries).children, p u) ↔ ∀ e ∈ entries, p e.1 ∧ p e.2 := by
  constructor
  · intro h e member
    exact ⟨h _ (mem_children_mapping member).1, h _ (mem_children_mapping member).2⟩
  · intro h u member
    obtain ⟨e, within, here⟩ := List.mem_flatMap.mp member
    rcases List.mem_cons.mp here with rfl | here
    · exact (h e within).1
    · obtain rfl := List.mem_singleton.mp here
      exact (h e within).2

/-- What holds of a value and of everything inside it. -/
inductive Every (p : Value → Prop) : Value → Prop
  | intro {v : Value} (here : p v) (inside : ∀ u ∈ v.children, Every p u) : Every p v

section

variable {p q : Value → Prop} {v : Value}

theorem every_iff : v.Every p ↔ p v ∧ ∀ u ∈ v.children, u.Every p :=
  ⟨fun h => by cases h; exact ⟨‹_›, ‹_›⟩, fun ⟨here, inside⟩ => .intro here inside⟩

theorem Every.here (h : v.Every p) : p v := (every_iff.mp h).1

theorem Every.inside (h : v.Every p) : ∀ u ∈ v.children, u.Every p := (every_iff.mp h).2

theorem Every.imp (h : v.Every p) (weaker : ∀ u, p u → q u) : v.Every q := by
  induction h with
  | intro here _ ih => exact .intro (weaker _ here) ih

end

mutual

/-- Values are built out of their parts, so that what holds of a value as soon as it holds of those holds of
all. -/
theorem every_true (v : Value) : v.Every fun _ => True := by
  cases v with
  | list items | tuple items | set items | frozenset items => exact .intro trivial (every_true_items items)
  | mapping entries => exact .intro trivial (forall_children_mapping.mpr (every_true_entries entries))
  | _ => exact .intro trivial fun u member => absurd member List.not_mem_nil

theorem every_true_items (items : List Value) : ∀ v ∈ items, v.Every fun _ => True := by
  cases items with
  | nil => exact fun v member => absurd member List.not_mem_nil
  | cons v rest => exact List.forall_mem_cons.mpr ⟨every_true v, every_true_items rest⟩

theorem every_true_entries (entries : List (Value × Value)) :
    ∀ e ∈ entries, e.1.Every (fun _ => True) ∧ e.2.Every fun _ => True := by
  cases entries with
  | nil => exact fun e member => absurd member List.not_mem_nil
  | cons e rest =>
      obtain ⟨k, v⟩ := e
      exact List.forall_mem_cons.mpr ⟨⟨every_true k, every_true v⟩, every_true_entries rest⟩

end

/-! ### Freezing -/

section

variable {v : Value} {items : List Value} {entries : Entries}

theorem freezeItems_eq (items : List Value) : freezeItems items = items.map freeze := by
  induction items with
  | nil => rfl
  | cons v rest ih => rw [freezeItems, ih, List.map_cons]

theorem freezeEntries_eq (entries : Entries) :
    freezeEntries entries = entries.map fun e => (e.1, e.2.freeze) := by
  induction entries with
  | nil => rfl
  | cons e rest ih => rw [freezeEntries, ih, List.map_cons]

theorem freezeEntries_append (entries other : Entries) :
    freezeEntries (entries ++ other) = freezeEntries entries ++ freezeEntries other := by
  rw [freezeEntries_eq, freezeEntries_eq, freezeEntries_eq, List.map_append]

/-- What is frozen stays as it is. -/
theorem freeze_freeze (v : Value) : v.freeze.freeze = v.freeze := by
  induction every_true v with
  | @intro v _ _ ih =>
      cases v with
      | list items | tuple items =>
          simp only [freeze, freezeItems_eq, List.map_map]
          exact congrArg _ (List.map_congr_left ih)
      | mapping entries =>
          have ih := forall_children_mapping.mp ih
          simp only [freeze, freezeEntries_eq, List.map_map]
          refine congrArg _ (List.map_congr_left fun e member => ?_)
          exact congrArg (Prod.mk e.1) (ih e member).2
      | _ => simp only [freeze]

mutual

/-- The value with every tuple outside sets turned into a list, and every frozen set outside sets into a set. -/
def loose : Value → Value
  | .mapping entries => .mapping (looseEntries entries)
  | .list items | .tuple items => .list (looseItems items)
  | .frozenset items => .set items
  | v => v

def looseItems : List Value → List Value
  | [] => []
  | v :: rest => loose v :: looseItems rest

def looseEntries : List (Value × Value) → List (Value × Value)
  | [] => []
  | (k, v) :: rest => (k, loose v) :: looseEntries rest

end

theorem looseItems_eq (items : List Value) : looseItems items = items.map loose := by
  induction items with
  | nil => rfl
  | cons v rest ih => rw [looseItems, ih, List.map_cons]

theorem looseEntries_eq (entries : Entries) :
    looseEntries entries = entries.map fun e => (e.1, e.2.loose) := by
  induction entries with
  | nil => rfl
  | cons e rest ih => rw [looseEntries, ih, List.map_cons]

theorem looseEntries_append (entries other : Entries) :
    looseEntries (entries ++ other) = looseEntries entries ++ looseEntries other := by
  rw [looseEntries_eq, looseEntries_eq, looseEntries_eq, List.map_append]

/-- Freezing undoes what loosening did. -/
theorem freeze_loose (v : Value) : v.loose.freeze = v.freeze := by
  induction every_true v with
  | @intro v _ _ ih =>
      cases v with
      | list items | tuple items =>
          simp only [freeze, loose, freezeItems_eq, looseItems_eq, List.map_map]
          exact congrArg _ (List.map_congr_left ih)
      | mapping entries =>
          have ih := forall_children_mapping.mp ih
          simp only [freeze, loose, freezeEntries_eq, looseEntries_eq, List.map_map]
          refine congrArg _ (List.map_congr_left fun e member => ?_)
          exact congrArg (Prod.mk e.1) (ih e member).2
      | _ => simp only [freeze, loose]

theorem freezeEntries_loose (entries : Entries) :
    freezeEntries (looseEntries entries) = freezeEntries entries := by
  rw [freezeEntries_eq, freezeEntries_eq, looseEntries_eq, List.map_map]
  exact List.map_congr_left fun e _ => congrArg (Prod.mk e.1) e.2.freeze_loose

theorem freezeEntries_frozen (h : ∀ e ∈ entries, e.2.freeze = e.2) : freezeEntries entries = entries := by
  induction entries with
  | nil => rfl
  | cons e rest ih =>
      obtain ⟨first, others⟩ := List.forall_mem_cons.mp h
      rw [freezeEntries, first, ih others]

/-! ### Copies of plain data -/

/-- Data with nothing foreign inside. -/
def Plain (v : Value) : Prop := v.Every fun u => ∀ f, u ≠ foreign f

theorem Plain.inside (h : v.Plain) : ∀ u ∈ v.children, u.Plain := Every.inside h

theorem copyList_same (h : ∀ v ∈ items, v.copy = .ok v) : copyList items = .ok items := by
  induction items with
  | nil => rfl
  | cons v rest ih =>
      obtain ⟨first, others⟩ := List.forall_mem_cons.mp h
      rw [copyList, first, ih others]
      rfl

theorem copyEntries_same (h : ∀ e ∈ entries, e.1.copy = .ok e.1 ∧ e.2.copy = .ok e.2) :
    copyEntries entries = .ok entries := by
  induction entries with
  | nil => rfl
  | cons e rest ih =>
      obtain ⟨⟨key, value⟩, others⟩ := List.forall_mem_cons.mp h
      rw [copyEntries, key, value, ih others]
      rfl

/-- A copy of plain data is that data. -/
theorem Plain.copied (h : v.Plain) : v.copy = .ok v := by
  induction h with
  | @intro v plain _ ih =>
      cases v with
      | list items | tuple items | set items | frozenset items =>
          have copied : copyList items = .ok items := copyList_same ih
          rw [copy, copied]
          rfl
      | mapping entries =>
          rw [copy, copyEntries_same (forall_children_mapping.mp ih)]
          rfl
      | foreign f => exact absurd rfl (plain f)
      | _ => rfl

theorem loosenList_loose (h : ∀ v ∈ items, v.freeze.loosen = .ok v.loose) :
    loosenList (freezeItems items) = .ok (looseItems items) := by
  induction items with
  | nil => rfl
  | cons v rest ih =>
      obtain ⟨first, others⟩ := List.forall_mem_cons.mp h
      rw [freezeItems, loosenList, first, ih others]
      rfl

theorem loosenEntries_loose (h : ∀ e ∈ entries, e.2.freeze.loosen = .ok e.2.loose) :
    loosenEntries (freezeEntries entries) = .ok (looseEntries entries) := by
  induction entries with
  | nil => rfl
  | cons e rest ih =>
      obtain ⟨value, others⟩ := List.forall_mem_cons.mp h
      rw [freezeEntries, loosenEntries, value, ih others]
      rfl

/-- What is handed out of frozen data has its lists and sets again. -/
theorem Plain.handedOut (h : v.Plain) : v.freeze.loosen = .ok v.loose := by
  induction h with
  | @intro v plain _ ih =>
      cases v with
      | list items | tuple items =>
          have made : loosenList (freezeItems items) = .ok (looseItems items) := loosenList_loose ih
          rw [freeze, loosen, made, loose]
          rfl
      | mapping entries =>
          have ih := forall_children_mapping.mp ih
          rw [freeze, loosen, loosenEntries_loose fun e member => (ih e member).2, loose]
          rfl
      | foreign f => exact absurd rfl (plain f)
      | _ => rfl

/-- Plain data stays plain when it is frozen. -/
theorem Plain.frozen (h : v.Plain) : v.freeze.Plain := by
  induction h with
  | @intro v plain inside ih =>
      cases v with
      | list items | tuple items =>
          refine .intro (fun f same => by cases same) fun u member => ?_
          rw [freeze, freezeItems_eq] at member
          obtain ⟨u, there, rfl⟩ := List.mem_map.mp member
          exact ih u there
      | set items | frozenset items => exact .intro (fun f same => by cases same) inside
      | mapping entries =>
          have ih := forall_children_mapping.mp ih
          rw [freeze, freezeEntries_eq]
          refine .intro (fun f same => by cases same) (forall_children_mapping.mpr fun e member => ?_)
          obtain ⟨e, there, rfl⟩ := List.mem_map.mp member
          exact ⟨inside e.1 (mem_children_mapping there).1, (ih e there).2⟩
      | _ => exact .intro plain inside

theorem loosenList_freezes (h : ∀ v ∈ items, ∃ u, v.loosen = .ok u ∧ u.freeze = v.freeze) :
    ∃ us, loosenList items = .ok us ∧ freezeItems us = freezeItems items := by
  induction items with
  | nil => exact ⟨[], rfl, rfl⟩
  | cons v rest ih =>
      obtain ⟨⟨u, first, same⟩, others⟩ := List.forall_mem_cons.mp h
      obtain ⟨us, made, sames⟩ := ih others
      refine ⟨u :: us, ?_, by rw [freezeItems, freezeItems, same, sames]⟩
      rw [loosenList, first, made]
      rfl

theorem loosenEntries_freezes (h : ∀ e ∈ entries, ∃ u, e.2.loosen = .ok u ∧ u.freeze = e.2.freeze) :
    ∃ us, loosenEntries entries = .ok us ∧ freezeEntries us = freezeEntries entries := by
  induction entries with
  | nil => exact ⟨[], rfl, rfl⟩
  | cons e rest ih =>
      obtain ⟨⟨u, value, same⟩, others⟩ := List.forall_mem_cons.mp h
      obtain ⟨us, made, sames⟩ := ih others
      refine ⟨(e.1, u) :: us, ?_, by rw [freezeEntries, freezeEntries, same, sames]⟩
      rw [loosenEntries, value, made]
      rfl

/-- A list inside a copy keeps its tuples, and a list that came from a tuple does not: frozen, the copy is as
the original all the same. -/
theorem Plain.loosened (h : v.Plain) : ∃ u, v.loosen = .ok u ∧ u.freeze = v.freeze := by
  induction h with
  | @intro v plain inside ih =>
      cases v with
      | list items | set items =>
          have copied : copyList items = .ok items := copyList_same fun v member => Plain.copied (inside v member)
          refine ⟨_, ?_, rfl⟩
          rw [loosen, copied]
          rfl
      | tuple items =>
          obtain ⟨us, made, same⟩ : ∃ us, loosenList items = .ok us ∧ freezeItems us = freezeItems items :=
            loosenList_freezes ih
          refine ⟨.list us, ?_, by simp only [freeze, same]⟩
          rw [loosen, made]
          rfl
      | mapping entries =>
          have ih := forall_children_mapping.mp ih
          obtain ⟨us, made, same⟩ := loosenEntries_freezes fun e member => (ih e member).2
          refine ⟨.mapping us, ?_, by simp only [freeze, same]⟩
          rw [loosen, made]
          rfl
      | foreign f => exact absurd rfl (plain f)
      | frozenset items => exact ⟨.set items, rfl, by simp only [freeze]⟩
      | _ => exact ⟨_, rfl, rfl⟩

end

/-! ### What is cut -/

section

variable {v : Value}

theorem Plain.trimmed (h : v.Plain) : v.trimmed.Plain := by
  cases v with
  | list items | tuple items =>
      refine .intro (fun f same => by cases same) fun u member => ?_
      exact h.inside u (List.mem_of_mem_take member)
  | text s => exact .intro (fun f same => by cases same) fun u member => absurd member List.not_mem_nil
  | _ => exact h

/-- Nothing is cut of what was kept before. -/
theorem trimmed_frozen (frozen : v.freeze = v) (fits : v.fits) : v.trimmed = v := by
  cases v with
  | text s => simp only [Value.trimmed, if_neg (Nat.not_lt.mpr fits)]
  | list items => simp only [freeze, reduceCtorEq] at frozen
  | tuple items => simp only [Value.trimmed, List.take_of_length_le fits]
  | _ => rfl

/-- Whether a property may be kept under a key. -/
def isPropKey : Value → Bool
  | .text s => decide (s.length ≤ 100)
  | _ => false

theorem isPropKey_iff : v.isPropKey = true ↔ ∃ k, v = .text k ∧ k.length ≤ 100 := by
  cases v <;> simp [isPropKey]

end

end Value

/-! ### Copies of properties -/

namespace Entries

variable {entries props : Entries} {key value : Value}

theorem write_fresh (h : ∀ e ∈ entries, e.1.isSameItem key = false) :
    write entries key value = entries ++ [(key, value)] := by
  have lacks : hasKey entries key = false := by
    refine List.any_eq_false.mpr fun e member => ?_
    rw [h e member]
    exact Bool.false_ne_true
  rw [write, lacks]
  rfl

theorem Distinct.of_snoc {e : Value × Value} (h : Distinct (props ++ [e])) :
    Distinct props ∧ ∀ k, e.1 = .text k → ∀ e' ∈ props, e'.1 ≠ .text k := by
  obtain ⟨before, -, apart⟩ := List.pairwise_append.mp h
  refine ⟨before, fun k same e' member there => ?_⟩
  exact apart e' member e (List.mem_singleton.mpr rfl) k there same

/-- The properties that are kept, each cut to what is kept of it. -/
def bounded (props : Entries) : Entries :=
  (props.filter fun e => e.1.isPropKey).map fun e => (e.1, e.2.trimmed)

theorem bounded_snoc (props : Entries) (e : Value × Value) :
    bounded (props ++ [e]) = bounded props ++ if e.1.isPropKey then [(e.1, e.2.trimmed)] else [] := by
  rw [bounded, List.filter_append, List.map_append, List.filter_cons, List.filter_nil, bounded]
  split <;> rfl

theorem mem_bounded {e : Value × Value} (h : e ∈ bounded props) :
    ∃ e' ∈ props, e.1 = e'.1 ∧ e.2 = e'.2.trimmed := by
  obtain ⟨e', member, rfl⟩ := List.mem_map.mp h
  exact ⟨e', (List.mem_filter.mp member).1, rfl, rfl⟩

end Entries

namespace Value

variable {props copied : Entries} {lines : List JournalEntry}

theorem freezeEntries_keys {entries other : Entries} (same : freezeEntries entries = freezeEntries other) :
    entries.map Prod.fst = other.map Prod.fst := by
  rw [freezeEntries_eq, freezeEntries_eq] at same
  have keys := congrArg (List.map Prod.fst) same
  simpa only [List.map_map, Function.comp_def] using keys

/-- Frozen, the copies of plain properties are as the originals are that were cut. -/
theorem freezeEntries_copyProps (h : (copyProps props).outcome = (.ok copied, lines))
    (distinct : props.Distinct) (plain : ∀ e ∈ props, e.2.Plain) :
    freezeEntries copied = freezeEntries props.bounded := by
  induction props using List.reverseRecOn generalizing copied lines with
  | nil =>
      cases h
      rfl
  | append_singleton props e ih =>
      rw [copyProps_snoc] at h
      split at h
      · cases h
      · rename_i done lines₁ before
        obtain ⟨distinct, apart⟩ := distinct.of_snoc
        have plains := fun e' member => plain e' (List.mem_append_left _ member)
        have same := ih before distinct plains
        rw [Entries.bounded_snoc]
        rcases copyEntry_outcome h with ⟨k, u, key, short, made, rfl⟩ | ⟨long, rfl⟩
        · have fresh : ∀ e' ∈ done, e'.1.isSameItem (.text k) = false := by
            intro e' member
            have there : e'.1 ∈ (Entries.bounded props).map Prod.fst :=
              freezeEntries_keys same ▸ List.mem_map_of_mem member
            obtain ⟨b, within, key'⟩ := List.mem_map.mp there
            obtain ⟨origin, from_, key'', -⟩ := Entries.mem_bounded within
            rw [Bool.eq_false_iff, ne_eq, isSameItem_text, ← key', key'']
            exact apart k key origin from_
          obtain ⟨w, loosened, frozen⟩ := (plain e (List.mem_append_right _ List.mem_cons_self)).trimmed.loosened
          obtain rfl : u = w := Except.ok.inj (made.symm.trans loosened)
          have keeps : e.1.isPropKey = true := isPropKey_iff.mpr ⟨k, key, short⟩
          rw [Entries.write_fresh fresh, keeps, if_pos rfl, freezeEntries_append, freezeEntries_append, same]
          simp only [freezeEntries, frozen, key]
        · have drops : e.1.isPropKey = false := by
            rw [Bool.eq_false_iff, ne_eq, isPropKey_iff]
            rintro ⟨k, key, short⟩
            exact Nat.not_lt.mpr short (long k key)
          rw [drops, if_neg Bool.false_ne_true, List.append_nil]
          exact same

/-- Properties that were kept before are copied as they are. -/
theorem copyProps_frozen (keys : ∀ e ∈ props, ∃ k, e.1 = .text k ∧ k.length ≤ 100)
    (distinct : props.Distinct) (fits : ∀ e ∈ props, e.2.fits) (frozen : ∀ e ∈ props, e.2.freeze = e.2)
    (plain : ∀ e ∈ props, e.2.Plain) : (copyProps props).outcome = (.ok (looseEntries props), []) := by
  induction props using List.reverseRecOn with
  | nil => rfl
  | append_singleton props e ih =>
      rw [List.forall_mem_append, List.forall_mem_singleton] at keys fits frozen plain
      obtain ⟨before, apart⟩ := distinct.of_snoc
      obtain ⟨k, v⟩ := e
      obtain ⟨keys, k, rfl, short⟩ := keys
      have loosened : v.trimmed.loosen = .ok v.loose := by
        rw [trimmed_frozen frozen.2 fits.2, ← plain.2.handedOut, frozen.2]
      have fresh : ∀ e ∈ looseEntries props, e.1.isSameItem (.text k) = false := by
        intro e member
        rw [looseEntries_eq] at member
        obtain ⟨e', within, rfl⟩ := List.mem_map.mp member
        rw [Bool.eq_false_iff, ne_eq, isSameItem_text]
        exact apart k rfl e' within
      rw [copyProps_snoc, ih keys before fits.1 frozen.1 plain.1]
      simp only [copyEntry_text short, loosened]
      show (Except.ok (Entries.write (looseEntries props) (.text k) v.loose), []) = _
      rw [Entries.write_fresh fresh, looseEntries_append]
      rfl

end Value

end BlockGraph
