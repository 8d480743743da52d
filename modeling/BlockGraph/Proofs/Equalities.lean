import BlockGraph.Proofs.Freezing
import BlockGraph.Proofs.Outputs
/-!
Equalities: what it means for values to be equal. Numbers are equal when they are worth the same, and containers when
their parts can be paired off. For values in which no mapping holds a key twice and no set an item twice, equality is
symmetric and transitive, and the equalities that blocks compare by are told from it.
-/
namespace BlockGraph

/-! ### Numbers -/

/-- What a number is worth: an infinity, or a whole number of units. -/
inductive Worth where
  | infinite (negative : Bool)
  | units (u : ℤ)

namespace Number

variable {a b c : Number}

/-- What a number is worth; not-a-number is worth nothing. -/
def worth? : Number → Option Worth
  | .int n => some (.units (n * Double.unitsPerOne))
  | .float (.nan _) => none
  | .float (.infinite negative) => some (.infinite negative)
  | .float x => x.units?.map .units

theorem lt_int (a b : ℤ) : lt (.int a) (.int b) = decide (a < b) := by
  simp only [lt, compare?]
  rw [Bool.eq_iff_iff, beq_iff_eq, Option.some_inj, decide_eq_true_iff]
  exact Int.compare_eq_lt

theorem le_int (a b : ℤ) : le (.int a) (.int b) = decide (a ≤ b) := by
  simp only [le, compare?]
  rw [Bool.eq_iff_iff, Bool.or_eq_true, beq_iff_eq, beq_iff_eq, Option.some_inj, Option.some_inj, decide_eq_true_iff,
    Int.compare_eq_lt, Int.compare_eq_eq, Int.le_iff_lt_or_eq]

/-- Numbers are equal when they are worth the same. -/
theorem eq_iff : a.eq b = true ↔ ∃ w, a.worth? = some w ∧ b.worth? = some w := by
  have one : (Double.unitsPerOne : ℤ) ≠ 0 := Int.natCast_ne_zero.mpr Double.unitsPerOne_pos.ne'
  rw [eq, beq_iff_eq]
  rcases a with m | (_ | s | _) <;> rcases b with n | (_ | t | _)
  all_goals simp only [compare?, worth?, Double.compare?, Double.compareInt?, Double.units?, Option.map_some,
    Option.map_none, Option.some_inj, Int.compare_swap, Int.compare_eq_eq, Worth.units.injEq, Worth.infinite.injEq,
    reduceCtorEq, false_and, and_false, exists_false, exists_eq_left']
  case int.int => rw [Int.mul_eq_mul_right_iff one, eq_comm]
  case int.float.finite | float.finite.int | float.finite.float.finite => exact eq_comm
  case float.infinite.float.infinite => cases s <;> cases t <;> simp
  case int.float.infinite | float.finite.float.infinite => cases t <;> simp
  case float.infinite.int | float.infinite.float.finite => cases s <;> simp

theorem eq_symm (a b : Number) : a.eq b = b.eq a := by
  rw [Bool.eq_iff_iff, eq_iff, eq_iff]
  exact exists_congr fun w => and_comm

theorem eq_trans (first : a.eq b = true) (second : b.eq c = true) : a.eq c = true := by
  obtain ⟨w, left, right⟩ := eq_iff.mp first
  obtain ⟨w', left', right'⟩ := eq_iff.mp second
  cases right.symm.trans left'
  exact eq_iff.mpr ⟨w, left, right'⟩

end Number

/-! ### Rows paired off -/

section

variable {α β : Type} {R : α → β → Prop} {S : α → α → Prop} {xs : List α} {ys : List β}

/-- When each item of a row finds a partner in another row of the same length, and no two items share one, each item of
that other row is a partner. -/
theorem partners_all (apart : xs.Pairwise fun x x' => ¬S x x') (length : xs.length = ys.length)
    (partner : ∀ x ∈ xs, ∃ y ∈ ys, R x y)
    (alone : ∀ x ∈ xs, ∀ x' ∈ xs, ∀ y ∈ ys, R x y → R x' y → S x x') : ∀ y ∈ ys, ∃ x ∈ xs, R x y := by
  induction xs generalizing ys with
  | nil =>
      obtain rfl : ys = [] := List.eq_nil_of_length_eq_zero length.symm
      nofun
  | cons x xs ih =>
      obtain ⟨y, member, with_⟩ := partner x List.mem_cons_self
      obtain ⟨before, after, rfl⟩ := List.append_of_mem member
      obtain ⟨first, others⟩ := List.pairwise_cons.mp apart
      have fewer : xs.length = (before ++ after).length := by
        simp only [List.length_cons, List.length_append] at length ⊢
        omega
      have wider {z : β} (there : z ∈ before ++ after) : z ∈ before ++ y :: after := by
        rcases List.mem_append.mp there with there | there
        · exact List.mem_append_left _ there
        · exact List.mem_append_right _ (List.mem_cons_of_mem _ there)
      have partner' : ∀ x' ∈ xs, ∃ z ∈ before ++ after, R x' z := fun x' there => by
        obtain ⟨z, place, pair⟩ := partner x' (List.mem_cons_of_mem _ there)
        rcases List.mem_append.mp place with place | place
        · exact ⟨z, List.mem_append_left _ place, pair⟩
        · rcases List.mem_cons.mp place with rfl | place
          · exact absurd (alone x List.mem_cons_self x' (List.mem_cons_of_mem _ there) z member with_ pair)
              (first x' there)
          · exact ⟨z, List.mem_append_right _ place, pair⟩
      have rest := ih others fewer partner' fun u there u' there' z place =>
        alone u (List.mem_cons_of_mem _ there) u' (List.mem_cons_of_mem _ there') z (wider place)
      intro z place
      by_cases same : z = y
      · exact ⟨x, List.mem_cons_self, same ▸ with_⟩
      · have place' : z ∈ before ++ after := by
          rcases List.mem_append.mp place with place | place
          · exact List.mem_append_left _ place
          · exact List.mem_append_right _ ((List.mem_cons.mp place).resolve_left same)
        obtain ⟨u, there, pair⟩ := rest z place'
        exact ⟨u, List.mem_cons_of_mem _ there, pair⟩

end

/-! ### Equality of values -/

namespace Value

/-- Whether a container holds no key twice, if it is a mapping, and no item twice, if it is a set. -/
def HoldsOnce : Value → Prop
  | .set items | .frozenset items => items.Pairwise fun a b => b.isSameItem a = false
  | .mapping entries => entries.Pairwise fun e e' => e'.1.isSameItem e.1 = false
  | _ => True

/-- The items of a set, be it frozen or not. -/
def members? : Value → Option (List Value)
  | .set items | .frozenset items => some items
  | _ => none

/-- The ways in which two values can be equal. -/
inductive Equal : Value → Value → Prop
  | null : Equal .null .null
  | text (s : String) : Equal (.text s) (.text s)
  | foreign (f : Foreign) : Equal (.foreign f) (.foreign f)
  | number {a b : Value} {x y : Number} : a.number? = some x → b.number? = some y → x.eq y = true → Equal a b
  | list {as bs : List Value} : eqList as bs = true → Equal (.list as) (.list bs)
  | tuple {as bs : List Value} : eqList as bs = true → Equal (.tuple as) (.tuple bs)
  | set {a b : Value} {as bs : List Value} : a.members? = some as → b.members? = some bs → as.length = bs.length →
      eqAmong as bs = true → Equal a b
  | mapping {xs ys : Entries} : xs.length = ys.length → eqEntries xs ys = true → Equal (.mapping xs) (.mapping ys)

theorem eq_iff {a b : Value} : a.eq b = true ↔ Equal a b := by
  constructor
  · intro same
    cases a <;> cases b
    all_goals simp only [eq, sameNumber, number?, Bool.false_eq_true, Bool.and_eq_true, beq_iff_eq] at same
    case null.null => exact .null
    case text.text => exact same ▸ .text _
    case foreign.foreign => exact same ▸ .foreign _
    case list.list => exact .list same
    case tuple.tuple => exact .tuple same
    case mapping.mapping => exact .mapping same.1 same.2
    case set.set | set.frozenset | frozenset.set | frozenset.frozenset => exact .set rfl rfl same.1 same.2
    all_goals exact .number rfl rfl same
  · intro h
    cases h with
    | null => rfl
    | text | foreign => simp only [eq, beq_self_eq_true]
    | number left right same =>
        cases a <;> cases left <;> cases b <;> cases right <;> exact same
    | list same | tuple same => simpa only [eq] using same
    | set left right length same =>
        cases a <;> cases left <;> cases b <;> cases right <;>
          simp only [eq, length, same, beq_self_eq_true, Bool.and_self]
    | mapping length same => simp only [eq, length, same, beq_self_eq_true, Bool.and_self]

/-! ### Parts paired off -/

/-- Whether being one item is symmetric and transitive for some values. -/
structure Coherent (p : Value → Prop) : Prop where
  symm : ∀ {a b}, p a → p b → a.isSameItem b = true → b.isSameItem a = true
  trans : ∀ {a b c}, p a → p b → p c → a.isSameItem b = true → b.isSameItem c = true → a.isSameItem c = true

theorem eqList_iff {as bs : List Value} :
    eqList as bs = true ↔ List.Forall₂ (fun a b => a.isSameItem b = true) as bs := by
  induction as generalizing bs with
  | nil => cases bs <;> simp [eqList]
  | cons a as ih =>
      cases bs with
      | nil => simp [eqList]
      | cons b bs => rw [eqList, Bool.and_eq_true, ih, List.forall₂_cons, isSameItem]

theorem eqAmong_iff {as bs : List Value} :
    eqAmong as bs = true ↔ ∀ a ∈ as, ∃ b ∈ bs, a.isSameItem b = true := by
  induction as with
  | nil => simp [eqAmong]
  | cons a as ih => rw [eqAmong, Bool.and_eq_true, ih, List.forall_mem_cons, List.any_eq_true]; rfl

section

variable {p : Value → Prop} {a b c : Value} {as bs cs : List Value} {xs ys zs : Entries}

/-- Among keys that differ, the one that is found is any one that is the same. -/
theorem Coherent.find? (h : Coherent p) {k : Value} (known : p k) (keys : ∀ e ∈ ys, p e.1)
    (once : HoldsOnce (.mapping ys)) {e : Value × Value} (member : e ∈ ys) (same : k.isSameItem e.1 = true) :
    ys.find? (fun e => isSameNaN k e.1 || k.eq e.1) = some e := by
  obtain ⟨before, after, rfl⟩ := List.append_of_mem member
  refine List.find?_eq_some_iff_append.mpr ⟨same, before, after, rfl, fun e' there => ?_⟩
  rw [Bool.not_eq_true', ← Bool.not_eq_true]
  intro same'
  have place : e' ∈ before ++ e :: after := List.mem_append_left _ there
  have apart := (List.pairwise_append.mp once).2.2 e' there e List.mem_cons_self
  have again := h.trans (keys e member) known (keys e' place) (h.symm known (keys e member) same) same'
  rw [apart] at again
  cases again

theorem Coherent.eqEntries_iff (h : Coherent p) (keys : ∀ e ∈ xs, p e.1) (keys' : ∀ e ∈ ys, p e.1)
    (once : HoldsOnce (.mapping ys)) : eqEntries xs ys = true ↔
      ∀ e ∈ xs, ∃ e' ∈ ys, e.1.isSameItem e'.1 = true ∧ e.2.isSameItem e'.2 = true := by
  induction xs with
  | nil => simp [eqEntries]
  | cons e xs ih =>
      obtain ⟨known, others⟩ := List.forall_mem_cons.mp keys
      obtain ⟨k, v⟩ := e
      rw [eqEntries, Bool.and_eq_true, ih others, List.forall_mem_cons]
      refine and_congr_left fun _ => ⟨fun found => ?_, ?_⟩
      · cases searched : ys.find? (fun e => isSameNaN k e.1 || k.eq e.1) with
        | none =>
            rw [searched] at found
            cases found
        | some e =>
            rw [searched] at found
            have key := List.find?_some searched
            exact ⟨e, List.mem_of_find?_eq_some searched, key, found⟩
      · rintro ⟨e, member, key, value⟩
        rw [h.find? known keys' once member key]
        exact value

theorem Coherent.eqList_symm (h : Coherent p) (known : ∀ a ∈ as, p a) (known' : ∀ b ∈ bs, p b)
    (same : eqList as bs = true) : eqList bs as = true := by
  rw [eqList_iff] at same ⊢
  induction same with
  | nil => exact .nil
  | cons first _ ih =>
      obtain ⟨here, others⟩ := List.forall_mem_cons.mp known
      obtain ⟨here', others'⟩ := List.forall_mem_cons.mp known'
      exact .cons (h.symm here here' first) (ih others others')

theorem Coherent.eqList_trans (h : Coherent p) (known : ∀ a ∈ as, p a) (known' : ∀ b ∈ bs, p b)
    (known'' : ∀ c ∈ cs, p c) (first : eqList as bs = true) (second : eqList bs cs = true) : eqList as cs = true := by
  rw [eqList_iff] at first second ⊢
  induction first generalizing cs with
  | nil => exact second
  | cons same _ ih =>
      cases second with
      | cons same' rest =>
          obtain ⟨here, others⟩ := List.forall_mem_cons.mp known
          obtain ⟨here', others'⟩ := List.forall_mem_cons.mp known'
          obtain ⟨here'', others''⟩ := List.forall_mem_cons.mp known''
          exact .cons (h.trans here here' here'' same same') (ih others others' others'' rest)

theorem Coherent.eqAmong_symm (h : Coherent p) (known : ∀ a ∈ as, p a) (known' : ∀ b ∈ bs, p b)
    (once : as.Pairwise fun a b => b.isSameItem a = false) (length : as.length = bs.length)
    (same : eqAmong as bs = true) : eqAmong bs as = true := by
  rw [eqAmong_iff] at same ⊢
  have apart : as.Pairwise fun a a' => ¬a'.isSameItem a = true := once.imp fun differ => by simp [differ]
  have back := partners_all apart length same fun a there a' there' b place first second =>
    h.trans (known a' there') (known' b place) (known a there) second (h.symm (known a there) (known' b place) first)
  intro b place
  obtain ⟨a, there, same⟩ := back b place
  exact ⟨a, there, h.symm (known a there) (known' b place) same⟩

theorem Coherent.eqAmong_trans (h : Coherent p) (known : ∀ a ∈ as, p a) (known' : ∀ b ∈ bs, p b)
    (known'' : ∀ c ∈ cs, p c) (first : eqAmong as bs = true) (second : eqAmong bs cs = true) :
    eqAmong as cs = true := by
  rw [eqAmong_iff] at first second ⊢
  intro a there
  obtain ⟨b, place, same⟩ := first a there
  obtain ⟨c, place', same'⟩ := second b place
  exact ⟨c, place', h.trans (known a there) (known' b place) (known'' c place') same same'⟩

theorem Coherent.eqEntries_symm (h : Coherent p) (known : ∀ e ∈ xs, p e.1 ∧ p e.2) (known' : ∀ e ∈ ys, p e.1 ∧ p e.2)
    (once : HoldsOnce (.mapping xs)) (once' : HoldsOnce (.mapping ys)) (length : xs.length = ys.length)
    (same : eqEntries xs ys = true) : eqEntries ys xs = true := by
  rw [h.eqEntries_iff (fun e there => (known e there).1) (fun e there => (known' e there).1) once'] at same
  rw [h.eqEntries_iff (fun e there => (known' e there).1) (fun e there => (known e there).1) once]
  have apart : xs.Pairwise fun e e' => ¬e'.1.isSameItem e.1 = true :=
    List.Pairwise.imp (fun differ => by simp [differ]) once
  have back := partners_all apart length same fun x there x' there' y place first second =>
    h.trans (known x' there').1 (known' y place).1 (known x there).1 second.1
      (h.symm (known x there).1 (known' y place).1 first.1)
  intro y place
  obtain ⟨x, there, key, value⟩ := back y place
  exact ⟨x, there, h.symm (known x there).1 (known' y place).1 key, h.symm (known x there).2 (known' y place).2 value⟩

theorem Coherent.eqEntries_trans (h : Coherent p) (known : ∀ e ∈ xs, p e.1 ∧ p e.2)
    (known' : ∀ e ∈ ys, p e.1 ∧ p e.2) (known'' : ∀ e ∈ zs, p e.1 ∧ p e.2) (once' : HoldsOnce (.mapping ys))
    (once'' : HoldsOnce (.mapping zs)) (first : eqEntries xs ys = true) (second : eqEntries ys zs = true) :
    eqEntries xs zs = true := by
  have keys : ∀ e ∈ xs, p e.1 := fun e there => (known e there).1
  have keys' : ∀ e ∈ ys, p e.1 := fun e there => (known' e there).1
  have keys'' : ∀ e ∈ zs, p e.1 := fun e there => (known'' e there).1
  rw [h.eqEntries_iff keys keys' once'] at first
  rw [h.eqEntries_iff keys' keys'' once''] at second
  rw [h.eqEntries_iff keys keys'' once'']
  intro x there
  obtain ⟨y, place, key, value⟩ := first x there
  obtain ⟨z, place', key', value'⟩ := second y place
  exact ⟨z, place', h.trans (keys x there) (keys' y place) (keys'' z place') key key',
    h.trans (known x there).2 (known' y place).2 (known'' z place').2 value value'⟩

/-! ### Equality as a whole -/

/-- Whether a value holds nothing twice, and what is in it is of some kind. -/
def Over (p : Value → Prop) (v : Value) : Prop := v.HoldsOnce ∧ ∀ u ∈ v.children, p u

theorem Over.members (above : a.Over p) (members : a.members? = some as) :
    (as.Pairwise fun a b => b.isSameItem a = false) ∧ ∀ u ∈ as, p u := by
  cases a <;> cases members <;> exact above

theorem Over.entries (above : (mapping xs).Over p) : HoldsOnce (.mapping xs) ∧ ∀ e ∈ xs, p e.1 ∧ p e.2 :=
  ⟨above.1, forall_children_mapping.mp above.2⟩

theorem Equal.symm (h : Coherent p) (here : a.Over p) (here' : b.Over p) (same : Equal a b) : Equal b a := by
  cases same with
  | null => exact .null
  | text s => exact .text s
  | foreign f => exact .foreign f
  | number left right same => exact .number right left (Number.eq_symm _ _ ▸ same)
  | list same => exact .list (h.eqList_symm here.2 here'.2 same)
  | tuple same => exact .tuple (h.eqList_symm here.2 here'.2 same)
  | set left right length same =>
      obtain ⟨once, inside⟩ := here.members left
      exact .set right left length.symm (h.eqAmong_symm inside (here'.members right).2 once length same)
  | mapping length same =>
      obtain ⟨once, inside⟩ := here.entries
      obtain ⟨once', inside'⟩ := here'.entries
      exact .mapping length.symm (h.eqEntries_symm inside inside' once once' length same)

theorem Equal.trans (h : Coherent p) (here : a.Over p) (here' : b.Over p) (here'' : c.Over p) (first : Equal a b)
    (second : Equal b c) : Equal a c := by
  cases first with
  | null => exact second
  | text s => exact second
  | foreign f => exact second
  | number left right same =>
      cases second with
      | number left' right' same' =>
          cases right.symm.trans left'
          exact .number left right' (Number.eq_trans same same')
      | set left' => cases b <;> cases right <;> cases left'
      | _ => cases right
  | list same =>
      cases second with
      | list same' => exact .list (h.eqList_trans here.2 here'.2 here''.2 same same')
      | number left' | set left' => cases left'
  | tuple same =>
      cases second with
      | tuple same' => exact .tuple (h.eqList_trans here.2 here'.2 here''.2 same same')
      | number left' | set left' => cases left'
  | set left right length same =>
      cases second with
      | set left' right' length' same' =>
          cases right.symm.trans left'
          exact .set left right' (length.trans length') (h.eqAmong_trans (here.members left).2 (here'.members right).2
            (here''.members right').2 same same')
      | number left' => cases b <;> cases right <;> cases left'
      | _ => cases right
  | mapping length same =>
      cases second with
      | mapping length' same' =>
          obtain ⟨-, inside⟩ := here.entries
          obtain ⟨once', inside'⟩ := here'.entries
          obtain ⟨once'', inside''⟩ := here''.entries
          exact .mapping (length.trans length') (h.eqEntries_trans inside inside' inside'' once' once'' same same')
      | number left' | set left' => cases left'

theorem isSameNaN_iff : a.isSameNaN b = true ↔ ∃ m, a = .float (.nan (some m)) ∧ b = .float (.nan (some m)) := by
  constructor
  · intro same
    cases a <;> cases b <;> try cases same
    rename_i x y
    rcases x with (_ | m) | _ | _ <;> rcases y with (_ | m') | _ | _ <;> try cases same
    exact ⟨m, rfl, by rw [beq_iff_eq.mp same]⟩
  · rintro ⟨m, rfl, rfl⟩
    exact beq_self_eq_true m

/-- Not-a-number equals nothing. -/
theorem Equal.not_nan {mark? : Option ℕ} : ¬Equal (.float (.nan mark?)) b ∧ ¬Equal b (.float (.nan mark?)) := by
  constructor
  · intro same
    cases same with
    | number left _ same =>
        cases left
        obtain ⟨w, worth, -⟩ := Number.eq_iff.mp same
        cases worth
    | set left => cases left
  · intro same
    cases same with
    | number _ right same =>
        cases right
        obtain ⟨w, -, worth⟩ := Number.eq_iff.mp same
        cases worth
    | set _ right => cases right

theorem isSameItem_iff : a.isSameItem b = true ↔ a.isSameNaN b = true ∨ Equal a b := by
  rw [isSameItem, Bool.or_eq_true, eq_iff]

/-- Being one item is symmetric and transitive for values that hold nothing twice, when it is so for what they hold. -/
theorem Coherent.over (h : Coherent p) : Coherent (Over p) where
  symm here here' same := by
    rw [isSameItem_iff] at same ⊢
    rcases same with same | same
    · obtain ⟨m, rfl, rfl⟩ := isSameNaN_iff.mp same
      exact .inl same
    · exact .inr (same.symm h here here')
  trans here here' here'' first second := by
    rw [isSameItem_iff] at first second ⊢
    rcases first with first | first
    · obtain ⟨m, rfl, rfl⟩ := isSameNaN_iff.mp first
      exact second
    · rcases second with second | second
      · obtain ⟨m, rfl, rfl⟩ := isSameNaN_iff.mp second
        exact (Equal.not_nan.2 first).elim
      · exact .inr (first.trans h here here' here'' second)

end

theorem depth_lt {v u : Value} (inside : u ∈ v.children) : u.depth < v.depth := by
  have items {all : List Value} (member : u ∈ all) : u.depth < itemsDepth all + 1 := by
    induction all with
    | nil => cases member
    | cons w rest ih =>
        rw [itemsDepth]
        rcases List.mem_cons.mp member with rfl | member
        · omega
        · have := ih member
          omega
  have entries {all : Entries} {e : Value × Value} (member : e ∈ all) :
      e.1.depth < entriesDepth all + 1 ∧ e.2.depth < entriesDepth all + 1 := by
    induction all with
    | nil => cases member
    | cons w rest ih =>
        rw [entriesDepth]
        rcases List.mem_cons.mp member with rfl | member
        · omega
        · have := ih member
          omega
  cases v with
  | list all | tuple all | set all | frozenset all => exact items inside
  | mapping all =>
      have below := (@forall_children_mapping (·.depth < entriesDepth all + 1) all).mpr fun e member => entries member
      exact below u inside
  | _ => cases inside

/-- What values hold is nested less deep, so that the values of any depth are told from those that are less deep. -/
theorem coherent_below (n : ℕ) : Coherent fun v => v.Every HoldsOnce ∧ v.depth < n := by
  induction n with
  | zero => exact ⟨fun here => absurd here.2 (Nat.not_lt_zero _), fun here => absurd here.2 (Nat.not_lt_zero _)⟩
  | succ n ih =>
      have above {v : Value} (here : v.Every HoldsOnce ∧ v.depth < n + 1) :
          v.Over fun v => v.Every HoldsOnce ∧ v.depth < n :=
        ⟨here.1.here, fun u inside => ⟨here.1.inside u inside, by have := depth_lt inside; omega⟩⟩
      exact ⟨fun here here' => ih.over.symm (above here) (above here'),
        fun here here' here'' => ih.over.trans (above here) (above here') (above here'')⟩

/-- Being one item is symmetric and transitive for values in which nothing holds anything twice. -/
theorem coherent : Coherent (·.Every HoldsOnce) where
  symm {a b} here here' :=
    (coherent_below (max a.depth b.depth + 1)).symm ⟨here, by omega⟩ ⟨here', by omega⟩
  trans {a b c} here here' here'' :=
    (coherent_below (max a.depth (max b.depth c.depth) + 1)).trans ⟨here, by omega⟩ ⟨here', by omega⟩ ⟨here'', by omega⟩

section

variable {a b c : Value}

theorem Every.over (h : a.Every HoldsOnce) : a.Over (·.Every HoldsOnce) := ⟨h.here, h.inside⟩

theorem eq_symm (here : a.Every HoldsOnce) (here' : b.Every HoldsOnce) : a.eq b = b.eq a := by
  rw [Bool.eq_iff_iff, eq_iff, eq_iff]
  exact ⟨(·.symm coherent here.over here'.over), (·.symm coherent here'.over here.over)⟩

theorem eq_trans (here : a.Every HoldsOnce) (here' : b.Every HoldsOnce) (here'' : c.Every HoldsOnce)
    (first : a.eq b = true) (second : b.eq c = true) : a.eq c = true :=
  eq_iff.mpr ((eq_iff.mp first).trans coherent here.over here'.over here''.over (eq_iff.mp second))

/-! ### The equalities that blocks compare by -/

theorem sameNumber_symm (a b : Value) : a.sameNumber b = b.sameNumber a := by
  rw [sameNumber, sameNumber]
  cases a.number? <;> cases b.number? <;> simp only [Number.eq_symm]

theorem sameNumber_trans (first : a.sameNumber b = true) (second : b.sameNumber c = true) :
    a.sameNumber c = true := by
  rw [sameNumber] at first second ⊢
  cases left : a.number? <;> cases middle : b.number? <;> cases right : c.number? <;>
    simp only [left, middle, right, Bool.false_eq_true] at first second ⊢
  exact Number.eq_trans first second

theorem eq_sameNumber (number : a.isNumber = true) (number' : b.isNumber = true) : a.eq b = a.sameNumber b := by
  cases a <;> cases number <;> cases b <;> cases number' <;> rfl

theorem looseEq_symm (here : a.Every HoldsOnce) (here' : b.Every HoldsOnce) : a.looseEq b = b.looseEq a := by
  have same := eq_symm here here'
  cases a <;> cases b <;>
    simp only [looseEq, isNumber, if_true, Bool.false_eq_true, if_false, same, sameNumber_symm _ (ofNumber _)]

theorem sameKind_symm (a b : Value) : a.sameKind b = b.sameKind a := by
  cases a <;> cases b <;> simp only [sameKind, Bool.beq_comm]

theorem strictEq_symm (here : a.Every HoldsOnce) (here' : b.Every HoldsOnce) : a.strictEq b = b.strictEq a := by
  rw [strictEq, strictEq, Bool.and_comm a.isNumber, sameNumber_symm, sameKind_symm, eq_symm here here']

theorem sameKind_isNumber (same : a.sameKind b = true) : a.isNumber = b.isNumber := by
  cases a <;> cases b <;> first | rfl | cases same

theorem sameKind_trans (first : a.sameKind b = true) (second : b.sameKind c = true) : a.sameKind c = true := by
  cases a <;> cases b <;> first | cases first | skip
  all_goals cases c <;> first | cases second | skip
  case foreign => exact beq_iff_eq.mpr ((beq_iff_eq.mp first).trans (beq_iff_eq.mp second))
  all_goals rfl

theorem strictEq_iff : a.strictEq b = true ↔
    a.isNumber = true ∧ b.isNumber = true ∧ a.sameNumber b = true ∨
      a.isNumber = false ∧ b.isNumber = false ∧ a.sameKind b = true ∧ a.eq b = true := by
  rw [strictEq]
  cases left : a.isNumber <;> cases right : b.isNumber <;> simp
  all_goals
    intro kind
    cases (left.symm.trans (sameKind_isNumber kind)).trans right

theorem strictEq_trans (here : a.Every HoldsOnce) (here' : b.Every HoldsOnce) (here'' : c.Every HoldsOnce)
    (first : a.strictEq b = true) (second : b.strictEq c = true) : a.strictEq c = true := by
  rw [strictEq_iff] at first second ⊢
  rcases first with ⟨left, middle, same⟩ | ⟨left, middle, kind, same⟩ <;>
    rcases second with ⟨middle', right, same'⟩ | ⟨middle', right, kind', same'⟩
  · exact .inl ⟨left, right, sameNumber_trans same same'⟩
  · cases middle.symm.trans middle'
  · cases middle.symm.trans middle'
  · exact .inr ⟨left, right, sameKind_trans kind kind', eq_trans here here' here'' same same'⟩

theorem looseEq_of_strictEq (same : a.strictEq b = true) : a.looseEq b = true := by
  rcases strictEq_iff.mp same with ⟨left, right, same⟩ | ⟨left, right, kind, same⟩
  · rw [← eq_sameNumber left right] at same
    cases a <;> cases left <;> cases b <;> cases right <;> exact same
  · cases a <;> cases left <;> cases b <;> first | exact same | cases kind

end

end Value

namespace Standard
open Plan

variable {c : Context} {sessions : ℕ → Session} {es : List Emission}

/-- The operator that a block for comparisons is given; without one it is that of loose equality. -/
def operatorOf (c : Context) : Value := (Entries.field c.inputs "operator").orElse (.text "==")

theorem compare_hands (sight : Sight) : compare.plan.Hands sight
    ((Entries.field sight.context.inputs "a").toJson.isOk = true ∧ (operatorOf sight.context).plainText.isOk = true ∧
      (Entries.field sight.context.inputs "b").toJson.isOk = true)
    [⟨"result", .bool (compares (operatorOf sight.context) (Entries.field sight.context.inputs "a")
      (Entries.field sight.context.inputs "b"))⟩] := by
  refine gives_input _ (gives_input _ (gives_input _ (gives_store rfl _ ?_)))
  refine hands_of (fun left _ => hands_of (fun middle _ => hands_of (fun right _ => hands_of (fun result _ =>
    gives_say _ (hands_emitted rfl fun _ => trivial)) ?_) ?_) ?_) ?_
  · exact fun _ => rfl
  · exact fun fine => fine.2.2
  · exact fun fine => fine.2.1
  · exact fun fine => fine.1

/-- The equalities that blocks compare by are symmetric, the strict one is also transitive and the stricter one, and the
operators for what is unequal are their negations. -/
theorem equalities_lawful :
    (∀ a b : Value, a.Every Value.HoldsOnce → b.Every Value.HoldsOnce →
      a.looseEq b = b.looseEq a ∧ a.strictEq b = b.strictEq a) ∧
    (∀ a b c : Value, a.Every Value.HoldsOnce → b.Every Value.HoldsOnce → c.Every Value.HoldsOnce →
      a.strictEq b = true → b.strictEq c = true → a.strictEq c = true) ∧
    (∀ a b : Value, a.strictEq b = true → a.looseEq b = true) ∧
    ∀ c sessions es, (compare.invoked c).Emits sessions es .normal → ∃ r : Bool, es = [⟨"result", .bool r⟩] ∧
      (operatorOf c = .text "==" → r = (Entries.field c.inputs "a").looseEq (Entries.field c.inputs "b")) ∧
      (operatorOf c = .text "!=" → r = !(Entries.field c.inputs "a").looseEq (Entries.field c.inputs "b")) ∧
      (operatorOf c = .text "===" → r = (Entries.field c.inputs "a").strictEq (Entries.field c.inputs "b")) ∧
      (operatorOf c = .text "!==" → r = !(Entries.field c.inputs "a").strictEq (Entries.field c.inputs "b")) := by
  refine ⟨fun a b here here' => ⟨Value.looseEq_symm here here', Value.strictEq_symm here here'⟩,
    fun a b c => Value.strictEq_trans, fun a b => Value.looseEq_of_strictEq, fun c sessions es emits => ?_⟩
  refine ⟨_, (StandardBlock.invoked_hands rfl (compare_hands _)).2 es emits, ?_⟩
  refine ⟨fun is => ?_, fun is => ?_, fun is => ?_, fun is => ?_⟩ <;>
    (show compares (operatorOf c) _ _ = _; rw [is]; rfl)

/-- An element that is to compare two values. -/
def comparison (a b : Value) (operator : String) : Context :=
  ⟨"A", "compare", [(.text "a", a), (.text "b", b), (.text "operator", .text operator)], [], [], 0⟩

theorem equalities_lawful_mappings :
    let one : Value := .mapping [(.text "k", .int 1)]
    let truth : Value := .mapping [(.text "k", .bool true)]
    (one.looseEq truth = truth.looseEq one ∧ one.strictEq truth = truth.strictEq one) ∧ one.strictEq one = true ∧
      one.looseEq truth = true ∧ ∀ sessions, ∃ es r,
        (compare.invoked (comparison one truth "!=")).Emits sessions es .normal ∧
        es = [⟨"result", .bool r⟩] ∧ r = !one.looseEq truth := by
  intro one truth
  have leaf {v : Value} (none : v.children = []) (here : v.HoldsOnce) : v.Every Value.HoldsOnce :=
    .intro here (by rw [none]; nofun)
  have once {v : Value} (inside : v.Every Value.HoldsOnce) : (Value.mapping [(.text "k", v)]).Every Value.HoldsOnce :=
    .intro (List.pairwise_singleton _ _) (Value.forall_children_mapping.mpr fun e member => by
      rw [List.mem_singleton.mp member]
      exact ⟨leaf rfl trivial, inside⟩)
  obtain ⟨symmetric, transitive, stricter, compared⟩ := equalities_lawful
  have first : one.Every Value.HoldsOnce := once (leaf rfl trivial)
  have second : truth.Every Value.HoldsOnce := once (leaf rfl trivial)
  have same : one.strictEq truth = true := by decide +kernel
  refine ⟨symmetric _ _ first second, transitive _ _ _ first second first same (by decide +kernel), stricter _ _ same,
    fun sessions => ?_⟩
  have shown : one.toJson.isOk = true ∧ (Value.text "!=").plainText.isOk = true ∧ truth.toJson.isOk = true := by
    decide +kernel
  have emits := (StandardBlock.invoked_hands rfl
    (compare_hands (StandardBlock.sight (comparison one truth "!=") (sessions 0)))).1 shown
  obtain ⟨r, hands, -, negated, -⟩ := compared _ sessions _ emits
  exact ⟨_, r, emits, hands, negated rfl⟩

end Standard

end BlockGraph
