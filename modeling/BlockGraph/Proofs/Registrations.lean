import BlockGraph.Proofs.Freezing
/-!
Registrations: what a registry promises of the definitions it keeps. Calls with any arguments only ever
store definitions that passed every check, as they are once their defaults are filled in, and a call that is
refused stores nothing.
-/
namespace BlockGraph

/-! ### What a kept definition is -/

/-- Port names that a definition may have. -/
structure PortNames (names : List String) : Prop where
  few : names.length ≤ 20
  named : ∀ name ∈ names, Text.isBlankText name = false
  short : ∀ name ∈ names, name.length ≤ 50
  distinct : names.Nodup

/-- What every definition in a registry is like. -/
structure BlockDefinition.WellFormed (d : BlockDefinition) : Prop where
  named : Text.isBlankText d.displayName = false
  displayName : d.displayName.length ≤ 100
  category : d.category.name ∈ ["data", "control", "math", "io", "logic"]
  inputs : PortNames d.inputs
  outputs : PortNames d.outputs
  apart : d.inputs.Disjoint d.outputs
  description : d.description.length ≤ 500
  version : d.version.length ≤ 20
  color : ∀ s ∈ d.color?, s.length ≤ 20
  icon : ∀ s ∈ d.icon?, s.length ≤ 10
  author : ∀ s ∈ d.author?, s.length ≤ 100
  keys : ∀ e ∈ d.defaultProps, ∃ k, e.1 = .text k ∧ k.length ≤ 100
  values : ∀ e ∈ d.defaultProps, e.2.fits
  distinct : Entries.Distinct d.defaultProps
  frozen : ∀ e ∈ d.defaultProps, e.2.freeze = e.2

/-- A part as it is kept: what the author gave, noted as supplied, or what stands in for it. -/
inductive Supplied.Kept {α : Type} (standIn : α) : Supplied α → α → Bool → Prop
  | given (f : α) : Kept standIn (.given f) f true
  | missing : Kept standIn .missing standIn false

/-- A definition keeps the parts of a draft for a block type. -/
structure BlockDefinition.Keeps (d : BlockDefinition) (type : String) (draft : Draft) : Prop where
  displayName : draft.displayName = .text d.displayName
  execute : draft.execute.Kept .idle d.logic d.supplied.execute
  validate : draft.validate.Kept (fun _ => .ok .null) d.check d.supplied.validate
  render : draft.render.Kept (plainRender d.displayName type) d.render d.supplied.render

theorem Category.name_mem (c : Category) : c.name ∈ ["data", "control", "math", "io", "logic"] := by
  cases c <;> decide

/-! ### Checks that a draft passed -/

/-- What is behind a guard is reached only past it. -/
theorem ok_of_guard {ε α : Type} {p : Prop} [Decidable p] {f : ε} {next : Unit → Except ε α} {a : α}
    (h : (if p then Except.error f >>= next else next ()) = .ok a) : ¬p ∧ next () = .ok a := by
  split at h
  · cases h
  · exact ⟨‹_›, h⟩

namespace Draft

variable {d : Draft} {c : Checked} {type kind name s : String} {limit : Nat} {v : Value}

/-- What the checks of a draft that passed them have found. -/
structure Accepted (d : Draft) (c : Checked) : Prop where
  displayName : d.displayName = .text c.displayName
  named : ¬Text.isBlankText c.displayName = true
  short : ¬100 < c.displayName.length
  inputs : ports "inputs" d.inputs = .ok c.inputs
  outputs : ports "outputs" d.outputs = .ok c.outputs
  defaultProps : d.defaultProps = .mapping c.defaultProps
  distinctInputs : distinct c.inputs = true
  distinctOutputs : distinct c.outputs = true
  apart : c.inputs.filter c.outputs.contains = []
  color : optionalText "color" 20 d.color = .ok c.color?
  icon : optionalText "icon" 10 d.icon = .ok c.icon?
  description : optionalText "description" 500 d.description = .ok c.description?
  version : optionalText "version" 20 d.version = .ok c.version?
  author : optionalText "author" 100 d.author = .ok c.author?
  execute : supplied "execute" d.execute = .ok c.execute?
  validate : supplied "validate" d.validate = .ok c.validate?
  render : supplied "render" d.render = .ok c.render?

theorem accepted_of_check (h : d.check type = .ok c) : d.Accepted c := by
  unfold check at h
  split at h
  · rename_i displayName named
    obtain ⟨blank, h⟩ := ok_of_guard h
    obtain ⟨long, h⟩ := ok_of_guard h
    split at h
    · beta_reduce at h
      obtain ⟨inputs, inputsRead, h⟩ := Value.bind_ok h
      obtain ⟨outputs, outputsRead, h⟩ := Value.bind_ok h
      obtain ⟨distinctInputs, h⟩ := ok_of_guard h
      obtain ⟨distinctOutputs, h⟩ := ok_of_guard h
      obtain ⟨apart, h⟩ := ok_of_guard h
      split at h
      · rename_i defaultProps mapping
        split at h
        · obtain ⟨color?, color, h⟩ := Value.bind_ok h
          obtain ⟨icon?, icon, h⟩ := Value.bind_ok h
          obtain ⟨description?, description, h⟩ := Value.bind_ok h
          obtain ⟨version?, version, h⟩ := Value.bind_ok h
          obtain ⟨author?, author, h⟩ := Value.bind_ok h
          obtain ⟨execute?, execute, h⟩ := Value.bind_ok h
          obtain ⟨validate?, validate, h⟩ := Value.bind_ok h
          obtain ⟨render?, render, h⟩ := Value.bind_ok h
          cases h
          exact {
            displayName := by
              cases shown : d.displayName <;> rw [shown] at named <;> cases named
              rfl
            named := blank
            short := long
            inputs := inputsRead
            outputs := outputsRead
            defaultProps := mapping
            distinctInputs := by simpa using distinctInputs
            distinctOutputs := by simpa using distinctOutputs
            apart := List.isEmpty_iff.mp (by simpa only [Bool.not_not_eq] using apart)
            color, icon, description, version, author, execute, validate, render }
        · cases h
      · cases h
    · cases h
  · cases h

theorem nodup_of_distinct {names : List String} (h : distinct names = true) : names.Nodup := by
  induction names with
  | nil => exact List.nodup_nil
  | cons name rest ih =>
      simp only [distinct, Bool.and_eq_true, Bool.not_eq_true', List.contains_eq_mem,
        decide_eq_false_iff_not] at h
      exact List.nodup_cons.mpr ⟨h.1, ih h.2⟩

theorem portName_ok (h : portName kind v = .ok s) : Text.isBlankText s = false ∧ s.length ≤ 50 := by
  unfold portName at h
  split at h
  · cases h
  · rename_i name found
    split at h
    · cases h
    · rename_i short
      cases h
      refine ⟨?_, Nat.not_lt.mp short⟩
      cases v <;> simp only [Value.name?] at found <;> try cases found
      split at found
      · cases found
      · rename_i notBlank
        cases found
        simpa using notBlank

theorem mem_of_mapM {α β ε : Type} {f : α → Except ε β} {xs : List α} {ys : List β}
    (h : xs.mapM f = .ok ys) : ys.length = xs.length ∧ ∀ y ∈ ys, ∃ x ∈ xs, f x = .ok y := by
  induction xs generalizing ys with
  | nil =>
      cases h
      simp
  | cons x rest ih =>
      rw [List.mapM_cons] at h
      obtain ⟨y, first, h⟩ := Value.bind_ok h
      obtain ⟨others, mapped, h⟩ := Value.bind_ok h
      cases h
      obtain ⟨length, ih⟩ := ih mapped
      refine ⟨by simp only [List.length_cons, length], ?_⟩
      rintro z (_ | ⟨_, member⟩)
      · exact ⟨x, List.mem_cons_self, first⟩
      · obtain ⟨w, mem, made⟩ := ih z member
        exact ⟨w, List.mem_cons_of_mem x mem, made⟩

theorem portNames_of_ports {names : List String} (h : ports kind v = .ok names)
    (distinct : distinct names = true) : PortNames names := by
  have read : ∃ items : List Value, items.length ≤ 20 ∧ items.mapM (portName kind) = .ok names := by
    unfold ports at h
    split at h
    · split at h
      · cases h
      · exact ⟨_, Nat.not_lt.mp ‹_›, h⟩
    · split at h
      · cases h
      · exact ⟨_, Nat.not_lt.mp ‹_›, h⟩
    · cases h
  obtain ⟨items, few, mapped⟩ := read
  obtain ⟨length, each⟩ := mem_of_mapM mapped
  have fine : ∀ name ∈ names, Text.isBlankText name = false ∧ name.length ≤ 50 := by
    intro name member
    obtain ⟨item, -, made⟩ := each name member
    exact portName_ok made
  exact ⟨length ▸ few, fun name member => (fine name member).1, fun name member => (fine name member).2,
    nodup_of_distinct distinct⟩

theorem optionalText_fits {s? : Option String} (h : optionalText name limit v = .ok s?) :
    ∀ s ∈ s?, s.length ≤ limit := by
  cases v with
  | null =>
      cases h
      simp
  | text t =>
      simp only [optionalText] at h
      split at h
      · cases h
      · rename_i short
        cases h
        simpa using Nat.not_lt.mp short
  | _ => cases h

theorem kept_of_supplied {α : Type} {part : Supplied α} {part? : Option α} (standIn : α)
    (h : supplied name part = .ok part?) : part.Kept standIn (part?.getD standIn) part?.isSome := by
  cases part with
  | missing =>
      cases h
      exact .missing
  | given f =>
      cases h
      exact .given f
  | notCallable => cases h

end Draft

/-! ### Default properties -/

namespace Value

theorem loosenList_length {items us : List Value} (h : loosenList items = .ok us) :
    us.length = items.length := by
  induction items generalizing us with
  | nil =>
      cases h
      rfl
  | cons v rest ih =>
      obtain ⟨u, first, h⟩ := bind_ok (x := v.loosen) h
      obtain ⟨us, others, made⟩ := bind_ok h
      cases made
      rw [List.length_cons, List.length_cons, ih others]

/-- A copy of what is kept of a property is no longer than what may be kept. -/
theorem fits_of_loosen_trimmed {v u : Value} (h : v.trimmed.loosen = .ok u) : u.fits := by
  cases v with
  | text s =>
      cases h
      simp only [trimmed, fits]
      split
      · rw [String.length_ofList, List.length_take]
        exact Nat.min_le_left _ _
      · exact Nat.not_lt.mp ‹_›
  | list items | tuple items =>
      simp only [trimmed, loosen] at h
      obtain ⟨us, copied, made⟩ := bind_ok h
      cases made
      simp only [fits, loosenList_length copied, List.length_take]
      exact Nat.min_le_left _ _
  | set items =>
      simp only [trimmed, loosen] at h
      obtain ⟨us, -, made⟩ := bind_ok h
      cases made
      trivial
  | frozenset items =>
      cases h
      trivial
  | mapping entries =>
      simp only [trimmed, loosen] at h
      obtain ⟨us, -, made⟩ := bind_ok h
      cases made
      trivial
  | foreign f =>
      simp only [trimmed, loosen, copyForeign] at h
      split at h
      · cases h
        trivial
      · cases h
  | _ =>
      cases h
      trivial

theorem freeze_fits {v : Value} (h : v.fits) : v.freeze.fits := by
  cases v with
  | list items | tuple items => simpa only [freeze, fits, freezeItems_eq, List.length_map] using h
  | mapping entries | set items | frozenset items => trivial
  | _ => exact h

end Value

/-- What holds of all entries, and of a key and a value, holds of all entries once they are written. -/
theorem Entries.forall_mem_write {p : Value → Prop} {q : Value → Prop} {entries : Entries}
    {key value : Value} (h : ∀ e ∈ entries, p e.1 ∧ q e.2) (hp : p key) (hq : q value) :
    ∀ e ∈ write entries key value, p e.1 ∧ q e.2 := by
  unfold write
  split
  · intro e member
    obtain ⟨old, there, rfl⟩ := List.mem_map.mp member
    split
    · exact ⟨(h old there).1, hq⟩
    · exact h old there
  · intro e member
    rcases List.mem_append.mp member with member | last
    · exact h e member
    · cases List.mem_singleton.mp last
      exact ⟨hp, hq⟩

/-- Copies of properties have short keys and hold no more than is kept of each. -/
theorem copyProps_fits {props copied : Entries} {lines : List JournalEntry}
    (h : (copyProps props).outcome = (.ok copied, lines)) :
    ∀ e ∈ copied, (∃ k, e.1 = .text k ∧ k.length ≤ 100) ∧ e.2.fits := by
  induction props using List.reverseRecOn generalizing copied lines with
  | nil =>
      cases h
      exact fun e member => absurd member List.not_mem_nil
  | append_singleton props e ih =>
      rw [copyProps_snoc] at h
      split at h
      · cases h
      · rename_i done lines₁ before
        rcases copyEntry_outcome h with ⟨k, u, -, short, made, rfl⟩ | ⟨-, rfl⟩
        · exact Entries.forall_mem_write (p := fun key => ∃ k, key = .text k ∧ k.length ≤ 100) (ih before)
            ⟨k, rfl, short⟩ (Value.fits_of_loosen_trimmed made)
        · exact ih before

/-! ### Definitions for checked drafts -/

namespace BlockDefinition

variable {d : BlockDefinition} {draft : Draft} {c : Draft.Checked} {type : String}
  {lines : List JournalEntry}

/-- The default properties of a kept definition are a copy of the draft's, all else is as it was checked. -/
theorem ofChecked_outcome (h : (ofChecked type c).outcome = (.ok d, lines)) :
    ∃ copied, (copyProps c.defaultProps).outcome = (.ok copied, lines) ∧ d = {
      displayName := c.displayName
      category := c.category
      inputs := c.inputs
      outputs := c.outputs
      defaultProps := Value.freezeEntries copied
      logic := c.execute?.getD .idle
      check := c.validate?.getD fun _ => .ok .null
      render := c.render?.getD (plainRender c.displayName type)
      version := c.version?.getD defaultVersion
      description := c.description?.getD (c.displayName ++ " block")
      color? := c.color?
      icon? := c.icon?
      author? := c.author?
      isCircular := c.isCircular
      supplied := ⟨c.execute?.isSome, c.validate?.isSome, c.render?.isSome⟩ } := by
  unfold ofChecked Journaled.outcome at h
  rw [ExceptT.run_bind, StateT.run_bind] at h
  cases copies : (copyProps c.defaultProps).outcome with
  | mk r lines₁ =>
      unfold Journaled.outcome at copies
      rw [copies] at h
      cases r with
      | error f => cases h
      | ok copied =>
          cases h
          exact ⟨copied, rfl, rfl⟩

theorem wellFormed_of_accepted (accepted : draft.Accepted c)
    (made : (ofChecked type c).outcome = (.ok d, lines)) : d.WellFormed := by
  obtain ⟨copied, copies, rfl⟩ := ofChecked_outcome made
  have short : c.displayName.length ≤ 100 := Nat.not_lt.mp accepted.short
  have props : ∀ e ∈ Value.freezeEntries copied,
      (∃ k, e.1 = .text k ∧ k.length ≤ 100) ∧ e.2.fits ∧ e.2.freeze = e.2 := by
    intro e member
    rw [Value.freezeEntries_eq] at member
    obtain ⟨old, there, rfl⟩ := List.mem_map.mp member
    obtain ⟨key, fits⟩ := copyProps_fits copies old there
    exact ⟨key, Value.freeze_fits fits, old.2.freeze_freeze⟩
  exact {
    named := Bool.eq_false_iff.mpr accepted.named
    displayName := short
    category := c.category.name_mem
    inputs := Draft.portNames_of_ports accepted.inputs accepted.distinctInputs
    outputs := Draft.portNames_of_ports accepted.outputs accepted.distinctOutputs
    apart := by
      intro name left right
      have shared : name ∈ c.inputs.filter c.outputs.contains :=
        List.mem_filter.mpr ⟨left, List.contains_iff_mem.mpr right⟩
      rw [accepted.apart] at shared
      cases shared
    -- the longest default is that of the longest name
    description := by
      cases given : c.description? with
      | none =>
          simp only [Option.getD_none, String.length_append]
          exact Nat.le_trans (Nat.add_le_add_right short _) (by decide)
      | some s => exact Draft.optionalText_fits accepted.description s given
    version := by
      cases given : c.version? with
      | none => exact (by decide : defaultVersion.length ≤ 20)
      | some s => exact Draft.optionalText_fits accepted.version s given
    color := Draft.optionalText_fits accepted.color
    icon := Draft.optionalText_fits accepted.icon
    author := Draft.optionalText_fits accepted.author
    keys := fun e member => (props e member).1
    values := fun e member => (props e member).2.1
    distinct := by
      rw [Entries.Distinct, Value.freezeEntries_eq]
      exact List.pairwise_map.mpr (copyProps_outcome copies).1
    frozen := fun e member => (props e member).2.2 }

theorem keeps_of_accepted (accepted : draft.Accepted c)
    (made : (ofChecked type c).outcome = (.ok d, lines)) : d.Keeps type draft := by
  obtain ⟨copied, -, rfl⟩ := ofChecked_outcome made
  exact {
    displayName := accepted.displayName
    execute := Draft.kept_of_supplied _ accepted.execute
    validate := Draft.kept_of_supplied _ accepted.validate
    render := Draft.kept_of_supplied _ accepted.render }

end BlockDefinition

/-! ### Calls -/

namespace Registry

/-- A call that can change a registry. -/
inductive Call where
  | register (type : Value) (what : Registrant)
  | unregister (type : Value)
  | clear (confirm : Value)

/-- The registry that a call leads to, unless the call is refused. -/
def carryOut (r : Registry) : Call → Except RegistrationFault Registry
  | .register type what => (r.register type what).outcome.1.map (·.2)
  | .unregister (.text type) => .ok (r.unregister type).2
  | .unregister _ => .error (.value (.raised .type "Block type must be a string"))
  | .clear confirm => clear confirm

/-- The registry after a call: a refused one leaves it as it was. -/
def after (r : Registry) (call : Call) : Registry :=
  match r.carryOut call with
  | .ok next => next
  | .error _ => r

/-- The registry that calls make out of an empty one. -/
def ofCalls (calls : List Call) : Registry := calls.foldl after empty

variable {r r' : Registry} {type : Value} {what : Registrant} {name : String} {d : BlockDefinition}
  {lines before : List JournalEntry} {call : Call} {calls : List Call}

theorem lifted_ok {ε α β : Type} {x : Except ε α} {f : α → Journaled ε β} {b : β}
    (h : ((liftM x : Journaled ε α) >>= f).run.run before = (.ok b, lines)) :
    ∃ a, x = .ok a ∧ (f a).run.run before = (.ok b, lines) := by
  cases x with
  | error _ => cases h
  | ok a => exact ⟨a, rfl, h⟩

theorem passedOn_ok {α β : Type} {w : Journaled Fault α} {f : α → Registering β} {b : β}
    (h : (passOn w >>= f).outcome = (.ok b, lines)) :
    ∃ a made, w.outcome = (.ok a, made) ∧ (f a).run.run made = (.ok b, lines) := by
  unfold passOn Journaled.outcome at h
  rw [ExceptT.run_bind, StateT.run_bind, ExceptT.run_mk, StateT.run_bind] at h
  cases outcome : w.outcome with
  | mk result made =>
      unfold Journaled.outcome at outcome
      rw [outcome] at h
      cases result with
      | error _ => cases h
      | ok a => exact ⟨a, made, rfl, h⟩

theorem ofValue_ok (h : BlockType.ofValue type = .ok name) : type = .text name := by
  cases type with
  | text s =>
      simp only [BlockType.ofValue] at h
      split at h
      · cases h
      · split at h
        · cases h
        · split at h
          · cases h
            rfl
          · cases h
  | _ => cases h

/-- A registry after a registration is as before, where there is such a definition, or holds a new one at its
end: one that a draft with every check passed has led to, and that answered its tests. -/
theorem register_ok (h : (r.register type what).outcome = (.ok (d, r'), lines)) :
    ∃ name, BlockType.ofValue type = .ok name ∧ ∃ draft c, draftOf what = .ok draft ∧ draft.Accepted c ∧
      ∃ kept made, (BlockDefinition.ofChecked name c).outcome = (.ok kept, made) ∧
        ((∃ existing, r.find? name = some existing ∧ existing.same kept = true ∧ d = existing ∧ r' = r) ∨
          (r.find? name = none ∧ smokeTest name kept = .ok () ∧ d = kept ∧
            r' = ⟨r.blocks ++ [(name, kept)]⟩)) := by
  unfold register at h
  obtain ⟨name, named, h⟩ := lifted_ok h
  obtain ⟨draft, drafted, h⟩ := lifted_ok h
  obtain ⟨c, checked, h⟩ := lifted_ok h
  obtain ⟨kept, made, stored, h⟩ := passedOn_ok h
  refine ⟨name, named, draft, c, drafted, Draft.accepted_of_check checked, kept, made, stored, ?_⟩
  cases found : r.find? name with
  | some existing =>
      simp only [found] at h
      split at h
      · rename_i same
        cases h
        exact .inl ⟨_, rfl, same, rfl, rfl⟩
      · cases h
  | none =>
      simp only [found] at h
      obtain ⟨_, tested, h⟩ := lifted_ok h
      cases h
      exact .inr ⟨rfl, tested, rfl, rfl⟩

/-- A kept definition has a proper name, is well formed, keeps what its author gave in one of the registrations,
and has answered its tests. -/
structure Sound (calls : List Call) (b : String × BlockDefinition) : Prop where
  named : BlockType.ofValue (.text b.1) = .ok b.1
  wellFormed : b.2.WellFormed
  tested : smokeTest b.1 b.2 = .ok ()
  keeps : ∃ what draft, .register (.text b.1) what ∈ calls ∧ draftOf what = .ok draft ∧ b.2.Keeps b.1 draft

theorem Sound.snoc {b : String × BlockDefinition} (h : Sound calls b) : Sound (calls ++ [call]) b := by
  obtain ⟨what, draft, member, rest⟩ := h.keeps
  exact ⟨h.named, h.wellFormed, h.tested, what, draft, List.mem_append_left _ member, rest⟩

/-- A call that is carried out keeps only definitions that were there, and sound new ones. -/
theorem carryOut_sound (h : r.carryOut call = .ok r') (sound : ∀ b ∈ r.blocks, Sound calls b) :
    ∀ b ∈ r'.blocks, Sound (calls ++ [call]) b := by
  cases call with
  | register type what =>
      cases outcome : (r.register type what).outcome with
      | mk result lines =>
          simp only [carryOut, outcome] at h
          cases result with
          | error _ => cases h
          | ok stored =>
              obtain ⟨stored, next⟩ := stored
              cases h
              obtain ⟨name, named, draft, c, drafted, accepted, kept, made, fromDraft, stored⟩ :=
                register_ok outcome
              obtain rfl := ofValue_ok named
              rcases stored with existing | fresh
              · obtain ⟨_, _, _, _, rfl⟩ := existing
                exact fun b member => (sound b member).snoc
              · obtain ⟨_, tested, _, rfl⟩ := fresh
                intro b member
                rcases List.mem_append.mp member with member | new
                · exact (sound b member).snoc
                · cases List.mem_singleton.mp new
                  exact ⟨named, BlockDefinition.wellFormed_of_accepted accepted fromDraft, tested, what, draft,
                    List.mem_append_right _ List.mem_cons_self, drafted,
                    BlockDefinition.keeps_of_accepted accepted fromDraft⟩
  | unregister type =>
      cases type with
      | text name =>
          cases h
          exact fun b member => (sound b (List.mem_filter.mp member).1).snoc
      | _ => cases h
  | clear confirm =>
      simp only [carryOut, clear] at h
      split at h
      · cases h
        exact fun b member => absurd member List.not_mem_nil
      · cases h

theorem ofCalls_snoc (calls : List Call) (call : Call) :
    ofCalls (calls ++ [call]) = (ofCalls calls).after call := by
  rw [ofCalls, List.foldl_append, List.foldl_cons, List.foldl_nil, ofCalls]

theorem ofCalls_sound (calls : List Call) : ∀ b ∈ (ofCalls calls).blocks, Sound calls b := by
  induction calls using List.reverseRecOn with
  | nil => exact fun b member => absurd member List.not_mem_nil
  | append_singleton calls call ih =>
      rw [ofCalls_snoc, after]
      split
      · exact carryOut_sound ‹_› ih
      · exact fun b member => (ih b member).snoc

end Registry

/-- The least that an author can write, and a preview. -/
def Draft.least : Draft where
  displayName := .text "Least"
  category := .text "data"
  inputs := .tuple []
  outputs := .tuple []
  defaultProps := .mapping []
  execute := .missing
  validate := .missing
  render := .given fun _ => .ok (.preview (.text "Least") (.text "") .null)
  version := .null
  description := .null
  color := .null
  icon := .null
  author := .null
  isCircular := .bool false

/-- What a registry keeps for it. -/
def BlockDefinition.least : BlockDefinition where
  displayName := "Least"
  category := .data
  inputs := []
  outputs := []
  defaultProps := []
  logic := .idle
  check := fun _ => .ok .null
  render := fun _ => .ok (.preview (.text "Least") (.text "") .null)
  version := "1.0.0"
  description := "Least block"
  color? := none
  icon? := none
  author? := none
  isCircular := false
  supplied := ⟨false, false, true⟩

namespace Registry

theorem register_least {s : String} (named : BlockType.ofValue (.text s) = .ok s) :
    (empty.register (.text s) (.draft .least)).outcome = (.ok (.least, ⟨[(s, .least)]⟩), []) := by
  unfold register
  rw [named]
  rfl

theorem ofCalls_least {s : String} (named : BlockType.ofValue (.text s) = .ok s) :
    ofCalls [.register (.text s) (.draft .least)] = ⟨[(s, .least)]⟩ := by
  simp only [ofCalls, List.foldl_cons, List.foldl_nil, after, carryOut, register_least named, Except.map]

theorem mem_ofCalls_least {s : String} (named : BlockType.ofValue (.text s) = .ok s) :
    (s, .least) ∈ (ofCalls [.register (.text s) (.draft .least)]).blocks := by
  rw [ofCalls_least named]
  exact List.mem_singleton_self _

end Registry

end BlockGraph
