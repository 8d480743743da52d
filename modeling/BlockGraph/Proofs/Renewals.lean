import BlockGraph.Proofs.Registrations
/-!
Renewals: what becomes of a definition that was taken out of a registry and is registered again. It passes every
check, is kept as it is, and hands out the same default properties; only that it now counts as supplied in all
its parts, which is why a registry takes it for the one it holds only when its author had supplied them all.
-/
namespace BlockGraph

/-! ### Data that equals itself -/

namespace Value

/-- Whether a value equals itself when its parts do: no not-a-number does, nor a mapping with a key twice. -/
def Settled : Value → Prop
  | float x => x.isNan = false
  | mapping entries => entries.Pairwise fun e e' => e'.1.isSameItem e.1 = false
  | _ => True

theorem compare_self {x : Double} (h : x.isNan = false) : Double.compare? x x = some .eq := by
  cases x with
  | nan mark => cases h
  | infinite negative => simp only [Double.compare?, if_true]
  | finite negative code inRange => exact congrArg some Std.ReflCmp.compare_self

theorem eqList_self {items : List Value} (h : ∀ v ∈ items, v.eq v = true) : eqList items items = true := by
  induction items with
  | nil => rfl
  | cons v rest ih =>
      obtain ⟨first, others⟩ := List.forall_mem_cons.mp h
      rw [eqList, first, Bool.or_true, Bool.true_and]
      exact ih others

theorem eqAmong_of_mem {items others : List Value} (h : ∀ v ∈ items, v ∈ others ∧ v.eq v = true) :
    eqAmong items others = true := by
  induction items with
  | nil => rfl
  | cons v rest ih =>
      obtain ⟨⟨member, same⟩, more⟩ := List.forall_mem_cons.mp h
      rw [eqAmong, ih more, Bool.and_true]
      exact List.any_eq_true.mpr ⟨v, member, by rw [same, Bool.or_true]⟩

theorem eqEntries_of_mem {entries others : Entries}
    (distinct : others.Pairwise fun e e' => e'.1.isSameItem e.1 = false)
    (h : ∀ e ∈ entries, e ∈ others ∧ e.1.eq e.1 = true ∧ e.2.eq e.2 = true) :
    eqEntries entries others = true := by
  induction entries with
  | nil => rfl
  | cons e rest ih =>
      obtain ⟨⟨member, key, value⟩, more⟩ := List.forall_mem_cons.mp h
      obtain ⟨before, after, rfl⟩ := List.append_of_mem member
      have apart : ∀ e' ∈ before, e.1.isSameItem e'.1 = false := fun e' there =>
        (List.pairwise_append.mp distinct).2.2 e' there e List.mem_cons_self
      have found : (before ++ e :: after).find? (fun e' => isSameNaN e.1 e'.1 || e.1.eq e'.1) = some e := by
        refine List.find?_eq_some_iff_append.mpr ⟨by rw [key, Bool.or_true], before, after, rfl, ?_⟩
        intro e' there
        rw [Bool.not_eq_true']
        exact apart e' there
      rw [eqEntries, found, ih more]
      simp only [value, Bool.or_true, Bool.and_true]

/-- Data without not-a-number equals itself. -/
theorem eq_self {v : Value} (h : v.Every Settled) : v.eq v = true := by
  induction h with
  | @intro v settled _ ih =>
      cases v with
      | list items | tuple items =>
          have same : eqList items items = true := eqList_self ih
          simp only [eq, same]
      | set items | frozenset items =>
          have same : eqAmong items items = true := eqAmong_of_mem fun v member => ⟨member, ih v member⟩
          simp only [eq, same, beq_self_eq_true, Bool.and_self]
      | mapping entries =>
          have ih := forall_children_mapping.mp ih
          have same : eqEntries entries entries = true :=
            eqEntries_of_mem settled fun e member => ⟨member, ih e member⟩
          simp only [eq, same, beq_self_eq_true, Bool.and_self]
      | float x => simp only [eq, sameNumber, number?, Number.eq, Number.compare?, compare_self settled]; rfl
      | bool b => cases b <;> rfl
      | int n => simp [eq, sameNumber, number?, Number.eq, Number.compare?]
      | _ => simp only [eq, beq_self_eq_true]

/-- What is handed out of frozen data equals itself when the data does. -/
theorem Every.loose {v : Value} (h : v.Every Settled) : v.loose.Every Settled := by
  induction h with
  | @intro v settled inside ih =>
      cases v with
      | list items | tuple items =>
          refine .intro trivial fun u member => ?_
          rw [Value.loose, looseItems_eq] at member
          obtain ⟨u, there, rfl⟩ := List.mem_map.mp member
          exact ih u there
      | set items | frozenset items => exact .intro trivial inside
      | mapping entries =>
          have ih := forall_children_mapping.mp ih
          rw [Value.loose, looseEntries_eq]
          refine .intro (List.pairwise_map.mpr settled) (forall_children_mapping.mpr fun e member => ?_)
          obtain ⟨e, there, rfl⟩ := List.mem_map.mp member
          exact ⟨inside e.1 (mem_children_mapping there).1, (ih e there).2⟩
      | _ => exact .intro settled inside

end Value

/-! ### Checks that a kept definition passes again -/

theorem Category.ofName?_name (c : Category) : Category.ofName? c.name = some c := by
  cases c <;> decide

namespace Draft

variable {kind name s : String} {names : List String} {limit : Nat}

theorem portName_text (named : Text.isBlankText s = false) (short : s.length ≤ 50) :
    portName kind (.text s) = .ok s := by
  simp only [portName, Value.name?, named, Bool.false_eq_true, if_false, if_neg (Nat.not_lt.mpr short)]

theorem ports_tuple (kind : String) (h : PortNames names) : ports kind (.tuple (names.map .text)) = .ok names := by
  have few : ¬20 < (names.map Value.text).length := by
    rw [List.length_map]
    exact Nat.not_lt.mpr h.few
  have read : ∀ names : List String, (∀ s ∈ names, portName kind (.text s) = .ok s) →
      (names.map Value.text).mapM (portName kind) = .ok names := by
    intro names each
    induction names with
    | nil => rfl
    | cons s rest ih =>
        obtain ⟨first, others⟩ := List.forall_mem_cons.mp each
        rw [List.map_cons, List.mapM_cons, first, ih others]
        rfl
  rw [ports, if_neg few]
  exact read names fun s member => portName_text (h.named s member) (h.short s member)

theorem distinct_of_nodup (h : names.Nodup) : distinct names = true := by
  induction names with
  | nil => rfl
  | cons s rest ih =>
      obtain ⟨apart, others⟩ := List.nodup_cons.mp h
      simp only [distinct, ih others, List.contains_eq_mem, apart, decide_false, Bool.not_false, Bool.and_self]

theorem optionalText_elim {s? : Option String} (h : ∀ s ∈ s?, s.length ≤ limit) :
    optionalText name limit (s?.elim .null .text) = .ok s? := by
  cases s? with
  | none => rfl
  | some s => exact if_neg (Nat.not_lt.mpr (h s rfl))

end Draft

namespace BlockDefinition

variable {d : BlockDefinition} {name : String}

/-- What the checks find in a definition that was kept. -/
def checked (d : BlockDefinition) : Draft.Checked where
  displayName := d.displayName
  category := d.category
  inputs := d.inputs
  outputs := d.outputs
  defaultProps := d.defaultProps
  isCircular := d.isCircular
  color? := d.color?
  icon? := d.icon?
  description? := some d.description
  version? := some d.version
  author? := d.author?
  execute? := some d.logic
  validate? := some d.check
  render? := some d.render

theorem WellFormed.passes (h : d.WellFormed) : d.toDraft.check name = .ok d.checked := by
  have category : Category.ofValue? (.text d.category.name) = some d.category := d.category.ofName?_name
  have inputs := Draft.ports_tuple "inputs" h.inputs
  have outputs := Draft.ports_tuple "outputs" h.outputs
  have shared : d.inputs.filter d.outputs.contains = [] := by
    refine List.filter_eq_nil_iff.mpr fun s member => ?_
    rw [List.contains_iff_mem]
    exact h.apart member
  have description : Draft.optionalText "description" 500 (.text d.description) = .ok (some d.description) :=
    if_neg (Nat.not_lt.mpr h.description)
  have version : Draft.optionalText "version" 20 (.text d.version) = .ok (some d.version) :=
    if_neg (Nat.not_lt.mpr h.version)
  unfold Draft.check
  simp only [toDraft, Value.text?, h.named, Bool.false_eq_true, if_false, if_neg (Nat.not_lt.mpr h.displayName),
    category, inputs, outputs, Value.ok_bind, Draft.distinct_of_nodup h.inputs.distinct,
    Draft.distinct_of_nodup h.outputs.distinct, Bool.not_true, shared, List.isEmpty_nil,
    Draft.optionalText_elim h.color, Draft.optionalText_elim h.icon, description, version,
    Draft.optionalText_elim h.author, Draft.supplied]
  rfl

/-- The definition as it is kept when it is registered again: every part of it now counts as supplied. -/
def renewed (d : BlockDefinition) : BlockDefinition := { d with supplied := ⟨true, true, true⟩ }

@[simp] theorem renewed_defaults (d : BlockDefinition) : d.renewed.defaults = d.defaults := rfl

/-- What is handed out of plain default properties. -/
theorem WellFormed.defaults_eq (h : d.WellFormed) (plain : ∀ e ∈ d.defaultProps, e.2.Plain) :
    d.defaults = Value.looseEntries d.defaultProps := by
  have made := Value.loosenEntries_loose fun e member => (plain e member).handedOut
  rw [Value.freezeEntries_frozen h.frozen] at made
  rw [defaults, made]

/-- A kept definition with plain default properties is kept again as it is. -/
theorem WellFormed.renews (h : d.WellFormed) (plain : ∀ e ∈ d.defaultProps, e.2.Plain) :
    (ofChecked name d.checked).outcome = (.ok d.renewed, []) := by
  have copies := Value.copyProps_frozen h.keys h.distinct h.values h.frozen plain
  have back : Value.freezeEntries (Value.looseEntries d.defaultProps) = d.defaultProps :=
    (Value.freezeEntries_loose _).trans (Value.freezeEntries_frozen h.frozen)
  unfold Journaled.outcome at copies
  unfold ofChecked Journaled.outcome
  rw [ExceptT.run_bind, StateT.run_bind]
  simp only [checked, copies]
  show (Except.ok { d.renewed with defaultProps := Value.freezeEntries (Value.looseEntries d.defaultProps) }, []) = _
  rw [back]
  rfl

end BlockDefinition

namespace Registry

variable {r r' : Registry} {d : BlockDefinition} {type : Value} {what : Registrant} {name : String}
  {lines : List JournalEntry}

/-- A definition passes its tests when it draws its default properties and says nothing about them but text. -/
theorem smokeTest_ok_iff : smokeTest name d = .ok () ↔ (∃ p, d.preview d.defaults = .ok p) ∧
    ∃ v, d.check d.defaults = .ok v ∧ (v = .null ∨ ∃ s, v = .text s) := by
  unfold smokeTest
  cases d.preview d.defaults with
  | error cause => simp
  | ok p =>
      cases d.check d.defaults with
      | error cause => simp
      | ok v => cases v <;> simp

theorem lifted_bind {ε α β : Type} (a : α) (f : α → Journaled ε β) :
    ((liftM (Except.ok a : Except ε α) : Journaled ε α) >>= f) = f a := rfl

theorem passedOn_bind {α β : Type} {w : Journaled Fault α} {f : α → Registering β} {a : α}
    (h : w.outcome = (.ok a, [])) : (passOn w >>= f).outcome = (f a).outcome := by
  unfold Journaled.outcome at h
  unfold passOn Journaled.outcome
  rw [ExceptT.run_bind, StateT.run_bind, ExceptT.run_mk, StateT.run_bind, h]
  rfl

/-- Registering a kept definition with plain default properties: where the name is free it is kept again, and
where it is taken the definition there has to be the same. -/
theorem register_kept (named : BlockType.ofValue type = .ok name) (wellFormed : d.WellFormed)
    (plain : ∀ e ∈ d.defaultProps, e.2.Plain) : (r.register type (.draft d.toDraft)).outcome =
      match r.find? name with
      | some existing => if existing.same d.renewed then (.ok (existing, r), []) else (.error (.duplicate name), [])
      | none => match smokeTest name d.renewed with
        | .ok () => (.ok (d.renewed, ⟨r.blocks ++ [(name, d.renewed)]⟩), [])
        | .error f => (.error f, []) := by
  have renews : (BlockDefinition.ofChecked name d.checked).outcome = (.ok d.renewed, []) :=
    wellFormed.renews plain
  unfold register
  rw [named, lifted_bind, draftOf, lifted_bind, wellFormed.passes, lifted_bind, passedOn_bind renews]
  cases r.find? name with
  | some existing =>
      by_cases same : existing.same d.renewed = true
      · simp only [if_pos same]
        rfl
      · simp only [if_neg same]
        rfl
  | none =>
      simp only
      cases smokeTest name d.renewed with
      | error f => rfl
      | ok _ => rfl

/-- A kept definition is the same as its renewal exactly when all of its parts were supplied. -/
theorem same_renewed (wellFormed : d.WellFormed)
    (plain : ∀ e ∈ d.defaultProps, e.2.Plain ∧ e.2.Every Value.Settled) :
    d.same d.renewed = (d.supplied == ⟨true, true, true⟩) := by
  have apart : d.defaultProps.Pairwise fun e e' => e'.1.isSameItem e.1 = false := by
    refine wellFormed.distinct.imp_of_mem fun {e e'} here there apart => ?_
    obtain ⟨k, key, -⟩ := wellFormed.keys e here
    rw [key, Bool.eq_false_iff, ne_eq, Value.isSameItem_text]
    exact apart k key
  have props : (Value.mapping d.defaults).Every Value.Settled := by
    rw [wellFormed.defaults_eq fun e member => (plain e member).1, Value.looseEntries_eq]
    refine .intro (List.pairwise_map.mpr apart) (Value.forall_children_mapping.mpr fun e member => ?_)
    obtain ⟨e, there, rfl⟩ := List.mem_map.mp member
    obtain ⟨k, key, -⟩ := wellFormed.keys e there
    refine ⟨?_, (plain e there).2.loose⟩
    rw [key]
    exact .intro trivial fun u inside => absurd inside List.not_mem_nil
  simp only [BlockDefinition.same, BlockDefinition.renewed_defaults, Value.eq_self props]
  simp only [BlockDefinition.renewed, beq_self_eq_true, Bool.and_self, Bool.true_and]

/-- A definition that is registered again under its own name is kept, and the registry is as before, when its
author had supplied all of its parts. Otherwise it is refused as another definition. -/
theorem register_again (calls : List Call) (stored : (ofCalls calls).find? name = some d)
    (plain : ∀ e ∈ d.defaultProps, e.2.Plain ∧ e.2.Every Value.Settled) :
    ((ofCalls calls).register (.text name) (.draft d.toDraft)).outcome =
      if d.supplied = ⟨true, true, true⟩ then (.ok (d, ofCalls calls), [])
      else (.error (.duplicate name), []) := by
  have sound := ofCalls_sound calls _ (mem_of_find? stored)
  rw [register_kept sound.named sound.wellFormed fun e member => (plain e member).1, stored]
  simp only [same_renewed sound.wellFormed plain, beq_iff_eq]

/-- A definition whose author left two parts of it out is refused, and one with all its parts is kept. -/
theorem register_again_least :
    ((ofCalls [.register (.text "add") (.draft .least)]).register (.text "add")
        (.draft BlockDefinition.least.toDraft)).outcome = (.error (.duplicate "add"), []) ∧
      ((ofCalls [.register (.text "add") (.draft BlockDefinition.least.toDraft)]).register (.text "add")
          (.draft BlockDefinition.least.renewed.toDraft)).outcome =
        (.ok (BlockDefinition.least.renewed,
          ofCalls [.register (.text "add") (.draft BlockDefinition.least.toDraft)]), []) := by
  have named : BlockType.ofValue (.text "add") = .ok "add" := by rfl
  have renewed : ofCalls [.register (.text "add") (.draft BlockDefinition.least.toDraft)] =
      ⟨[("add", BlockDefinition.least.renewed)]⟩ := by
    have made : (empty.register (.text "add") (.draft BlockDefinition.least.toDraft)).outcome =
        (.ok (BlockDefinition.least.renewed, ⟨[("add", BlockDefinition.least.renewed)]⟩), []) := by
      unfold register
      rw [named]
      rfl
    simp only [ofCalls, List.foldl_cons, List.foldl_nil, after, carryOut, made, Except.map]
  constructor
  · exact register_again _ (by rw [ofCalls_least named]; rfl) fun e member => absurd member List.not_mem_nil
  · exact register_again _ (by rw [renewed]; rfl) fun e member => absurd member List.not_mem_nil

/-! ### What becomes of default properties -/

/-- What a registration under a name hands out of the default properties it was given: just those where the name
was free, and some that are equal to them where it was taken. -/
def HandsOut (r : Registry) (name : String) (d : BlockDefinition) (props : Entries) : Prop :=
  match r.find? name with
  | none => d.defaults = props
  | some _ => Value.eq (.mapping d.defaults) (.mapping props) = true

theorem handsOut_of_free (free : r.find? name = none) : r.HandsOut name d d.defaults := by
  rw [HandsOut, free]

theorem handsOut_of_same {existing : BlockDefinition} (found : r.find? name = some existing)
    (same : existing.same d = true) : r.HandsOut name existing d.defaults := by
  simp only [BlockDefinition.same, Bool.and_eq_true] at same
  rw [HandsOut, found]
  exact same.1.2

/-- What a registry stores for plain default properties are those that are kept, frozen. -/
theorem defaultProps_stored {c : Draft.Checked} {props : Entries}
    (made : (BlockDefinition.ofChecked name c).outcome = (.ok d, lines)) (given : c.defaultProps = props)
    (distinct : props.Distinct) (plain : ∀ e ∈ props, e.2.Plain) :
    d.defaultProps = Value.freezeEntries props.bounded := by
  obtain ⟨copied, copies, rfl⟩ := BlockDefinition.ofChecked_outcome made
  exact Value.freezeEntries_copyProps (given ▸ copies) distinct plain

theorem plain_bounded {props : Entries} (plain : ∀ e ∈ props, e.2.Plain) : ∀ e ∈ props.bounded, e.2.Plain := by
  intro e member
  obtain ⟨e', there, -, cut⟩ := Entries.mem_bounded member
  rw [cut]
  exact (plain e' there).trimmed

/-- A definition is as it was made: plain default properties without what is cut come out of it, with lists in
place of tuples and sets in place of frozen ones. -/
theorem defaults_stored {props : Entries} (stored : d.defaultProps = Value.freezeEntries props.bounded)
    (plain : ∀ e ∈ props, e.2.Plain) : d.defaults = Value.looseEntries props.bounded := by
  have made := Value.loosenEntries_loose fun e member => (plain_bounded plain e member).handedOut
  rw [BlockDefinition.defaults, stored, made]

/-- The definition that is stored for plain default properties hands them out as they were, but for what is cut
and for tuples and frozen sets, which come out as lists and sets. Under any other name it can be registered again,
and what comes out of it there is the same. -/
theorem register_defaults {draft : Draft} {props : Entries}
    (made : (r.register type what).outcome = (.ok (d, r'), lines)) (drafted : draftOf what = .ok draft)
    (given : draft.defaultProps = .mapping props) (distinct : props.Distinct)
    (plain : ∀ e ∈ props, e.2.Plain) :
    ∃ name, type = .text name ∧ r.HandsOut name d (Value.looseEntries props.bounded) ∧
      (r.find? name = none → ∀ (other : String) (r₂ : Registry), BlockType.ofValue (.text other) = .ok other →
        (r₂.find? other = none → ∃ d₂ r₂',
          (r₂.register (.text other) (.draft d.toDraft)).outcome = (.ok (d₂, r₂'), [])) ∧
        ∀ d₂ r₂' lines₂, (r₂.register (.text other) (.draft d.toDraft)).outcome = (.ok (d₂, r₂'), lines₂) →
          r₂.HandsOut other d₂ d.defaults) := by
  obtain ⟨name, named, draft', c, drafted', accepted, kept, journaled, fromDraft, stored⟩ := register_ok made
  obtain rfl : draft = draft' := Except.ok.inj (drafted.symm.trans drafted')
  have same : c.defaultProps = props := Value.mapping.inj (accepted.defaultProps.symm.trans given)
  have props_kept := defaultProps_stored fromDraft same distinct plain
  have handed : kept.defaults = Value.looseEntries props.bounded := defaults_stored props_kept plain
  refine ⟨name, ofValue_ok named, ?_⟩
  rcases stored with ⟨existing, found, equal, rfl, -⟩ | ⟨free, tested, rfl, -⟩
  · exact ⟨handed ▸ handsOut_of_same found equal, fun free => by rw [found] at free; cases free⟩
  · have wellFormed := BlockDefinition.wellFormed_of_accepted accepted fromDraft
    have plain_kept : ∀ e ∈ d.defaultProps, e.2.Plain := by
      rw [props_kept, Value.freezeEntries_eq]
      intro e member
      obtain ⟨e, there, rfl⟩ := List.mem_map.mp member
      exact (plain_bounded plain e there).frozen
    refine ⟨handed ▸ handsOut_of_free free, fun _ other r₂ proper => ?_⟩
    have again : smokeTest other d.renewed = .ok () := smokeTest_ok_iff.mpr (smokeTest_ok_iff.mp tested)
    rw [register_kept proper wellFormed plain_kept, again]
    constructor
    · intro free₂
      rw [free₂]
      exact ⟨_, _, rfl⟩
    · intro d₂ r₂' lines₂ outcome
      cases found : r₂.find? other with
      | none =>
          rw [found] at outcome
          cases outcome
          exact handsOut_of_free found
      | some existing =>
          simp only [found] at outcome
          split at outcome
          · rename_i equal
            cases outcome
            have handed := handsOut_of_same found equal
            rwa [BlockDefinition.renewed_defaults] at handed
          · cases outcome

/-- A tuple with a list in it comes out as a list, the tuple in a set in there as it was, and what has no text for
a key does not come out at all. -/
theorem register_defaults_least :
    let nested := Value.tuple [.list [.frozenset [.tuple []]]]
    let draft := { Draft.least with defaultProps := .mapping [(.text "a", nested), (.null, .null)] }
    ∃ d r', (empty.register (.text "add") (.draft draft)).outcome =
        (.ok (d, r'), [⟨.warning, "registry", "Skipping default prop with invalid key: None"⟩]) ∧
      d.defaults = [(.text "a", .list [.list [.set [.tuple []]]])] := by
  intro nested draft
  have named : BlockType.ofValue (.text "add") = .ok "add" := by rfl
  have made : ∃ d r', (empty.register (.text "add") (.draft draft)).outcome =
      (.ok (d, r'), [⟨.warning, "registry", "Skipping default prop with invalid key: None"⟩]) := by
    unfold register
    rw [named]
    exact ⟨_, _, rfl⟩
  obtain ⟨d, r', made⟩ := made
  have distinct : Entries.Distinct [(.text "a", nested), (.null, .null)] := by simp [Entries.Distinct]
  have leaf : ∀ {v : Value}, v.children = [] → (∀ f, v ≠ .foreign f) → v.Plain :=
    fun only here => .intro here (by rw [only]; exact fun u member => absurd member List.not_mem_nil)
  have single : ∀ {u v : Value}, v.children = [u] → (∀ f, v ≠ .foreign f) → u.Plain → v.Plain :=
    fun only here inside => .intro here (by rw [only]; exact List.forall_mem_singleton.mpr inside)
  have empty : (Value.tuple []).Plain := leaf rfl (by simp)
  have within : nested.Plain := single rfl (by simp) (single rfl (by simp) (single rfl (by simp) empty))
  have null : Value.null.Plain := leaf rfl (by simp)
  have plain : ∀ e ∈ [(Value.text "a", nested), (.null, .null)], e.2.Plain :=
    List.forall_mem_cons.mpr ⟨within, List.forall_mem_singleton.mpr null⟩
  obtain ⟨name, -, handed, -⟩ := register_defaults made rfl rfl distinct plain
  exact ⟨d, r', made, handed⟩

end Registry

end BlockGraph
