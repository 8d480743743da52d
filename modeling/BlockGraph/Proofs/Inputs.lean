import BlockGraph.Proofs.Kept
import Mathlib.Data.List.Induction
/-!
Inputs: what an element finds under its input ports when it starts. Incoming connections write what they
deliver one after the other, and copies of the element's properties are written over it.
-/
namespace BlockGraph

namespace Value

/-- A text is one item with itself only. -/
theorem isSameItem_text {v : Value} {k : String} : v.isSameItem (.text k) = true ↔ v = .text k := by
  cases v <;> simp [isSameItem, isSameNaN, eq, sameNumber, number?]

theorem text_isSameItem (v : Value) (k : String) :
    (Value.text k).isSameItem v = v.isSameItem (.text k) := by
  cases v <;> simp [isSameItem, isSameNaN, eq, sameNumber, number?, eq_comm]

@[simp] theorem text_isSameItem_self (k : String) : (Value.text k).isSameItem (.text k) = true :=
  isSameItem_text.mpr rfl

end Value

/-! ### Entries under a text key -/

namespace Entries

variable {entries other : Entries} {k : String} {key value : Value}

theorem field?_cons (e : Value × Value) :
    field? (e :: entries) k = if e.1.isSameItem (.text k) then some e.2 else field? entries k := by
  simp only [field?, at?, List.find?_cons]
  cases e.1.isSameItem (.text k) <;> rfl

theorem field?_append : field? (entries ++ other) k = (field? entries k).or (field? other k) := by
  simp only [field?, at?, List.find?_append, Option.map_or]

theorem field?_none_iff : field? entries k = none ↔ ∀ e ∈ entries, e.1 ≠ .text k := by
  simp [field?, at?, List.find?_eq_none, Value.isSameItem_text]

theorem field?_replaced :
    field? (entries.map fun e => if e.1.isSameItem key then (e.1, value) else e) k =
      (field? entries k).map fun v => if key.isSameItem (.text k) then value else v := by
  induction entries with
  | nil => rfl
  | cons e rest ih =>
      rw [List.map_cons, field?_cons, field?_cons, ih]
      by_cases here : e.1 = .text k
      · simp [here, Value.text_isSameItem, apply_ite Prod.fst, apply_ite Prod.snd]
      · have apart : e.1.isSameItem (.text k) = false := by
          rw [Bool.eq_false_iff]
          exact mt Value.isSameItem_text.mp here
        simp [apart, apply_ite Prod.fst]

/-- A write changes what is found under its own key. -/
theorem field?_write : field? (write entries key value) k =
    if key.isSameItem (.text k) then some value else field? entries k := by
  unfold write
  split
  · rename_i has
    rw [field?_replaced]
    split
    · rename_i same
      cases found : field? entries k with
      | some v => rfl
      | none =>
          obtain ⟨e, member, at_⟩ := List.any_eq_true.mp has
          rw [Value.isSameItem_text.mp same, Value.isSameItem_text] at at_
          exact absurd at_ (field?_none_iff.mp found e member)
    · exact Option.map_id'
  · rename_i lacks
    rw [field?_append, field?_cons]
    split
    · rename_i same
      have none : field? entries k = none := by
        rw [field?_none_iff]
        intro e member here
        refine lacks (List.any_eq_true.mpr ⟨e, member, ?_⟩)
        rw [here, Value.text_isSameItem]
        exact same
      rw [none, Option.none_or]
    · exact Option.or_none

/-- Whether no text is the key of two entries. -/
def Distinct (entries : Entries) : Prop :=
  entries.Pairwise fun e e' => ∀ k, e.1 = .text k → e'.1 ≠ .text k

theorem Distinct.write (h : Distinct entries) : Distinct (write entries key value) := by
  unfold Entries.write
  split
  · refine List.pairwise_map.mpr (h.imp fun apart => ?_)
    simpa only [apply_ite Prod.fst, ite_self] using apart
  · rename_i lacks
    refine List.pairwise_append.mpr ⟨h, List.pairwise_singleton _ _, ?_⟩
    intro e member e' last k here there
    rw [List.mem_singleton.mp last] at there
    refine lacks (List.any_eq_true.mpr ⟨e, member, ?_⟩)
    rw [here, Value.text_isSameItem]
    exact Value.isSameItem_text.mpr there

/-- Entries laid over others are found before them. -/
theorem field?_overlay (distinct : Distinct other) :
    field? (overlay entries other) k = (field? other k).or (field? entries k) := by
  unfold overlay
  induction other generalizing entries with
  | nil => rfl
  | cons e rest ih =>
      obtain ⟨apart, distinct⟩ := List.pairwise_cons.mp distinct
      rw [List.foldl_cons, ih distinct, field?_write, field?_cons]
      split
      · rename_i here
        have none : field? rest k = none :=
          field?_none_iff.mpr fun e' member => apart e' member k (Value.isSameItem_text.mp here)
        rw [none, Option.none_or, Option.some_or]
      · rfl

end Entries

/-! ### Copies -/

namespace Value

mutual

/-- A value with its tuples as lists, its frozen sets as sets, and with the originals of copied values. -/
def shape : Value → Value
  | .list items | .tuple items => .list (shapes items)
  | .set items | .frozenset items => .set (shapes items)
  | .mapping entries => .mapping (entryShapes entries)
  | .foreign f => .foreign { f with copies := 0 }
  | v => v

def shapes : List Value → List Value
  | [] => []
  | v :: rest => shape v :: shapes rest

def entryShapes : List (Value × Value) → List (Value × Value)
  | [] => []
  | (k, v) :: rest => (shape k, shape v) :: entryShapes rest

end

theorem ok_bind {ε α β : Type} (a : α) (f : α → Except ε β) : (Except.ok a >>= f) = f a := rfl

theorem bind_ok {ε α β : Type} {x : Except ε α} {f : α → Except ε β} {b : β}
    (h : (x >>= f) = .ok b) : ∃ a, x = .ok a ∧ f a = .ok b := by
  cases x with
  | error _ => cases h
  | ok a => exact ⟨a, rfl, h⟩

theorem bind_ok_iff {ε α β : Type} {x : Except ε α} {f : α → Except ε β} {b : β} :
    (x >>= f) = .ok b ↔ ∃ a, x = .ok a ∧ f a = .ok b :=
  ⟨bind_ok, fun ⟨_, made, rest⟩ => by rw [made]; exact rest⟩

theorem bind_error {ε α β : Type} {x : Except ε α} {f : α → Except ε β} {fault : ε}
    (h : (x >>= f) = .error fault) : x = .error fault ∨ ∃ a, x = .ok a ∧ f a = .error fault := by
  cases x with
  | error _ =>
      cases h
      exact .inl rfl
  | ok a => exact .inr ⟨a, rfl, h⟩

theorem copyForeign_shape {f : Foreign} {u : Value} (h : copyForeign f = .ok u) :
    u.shape = (foreign f).shape := by
  unfold copyForeign at h
  split at h
  · cases h
    simp only [shape]
  · cases h

mutual

theorem copy_shape (v : Value) {u : Value} (h : v.copy = .ok u) : u.shape = v.shape := by
  cases v with
  | list items | tuple items | set items | frozenset items =>
      simp only [copy] at h
      obtain ⟨us, copied, made⟩ := bind_ok h
      cases made
      simp only [shape, copyList_shapes items copied]
  | mapping entries =>
      simp only [copy] at h
      obtain ⟨us, copied, made⟩ := bind_ok h
      cases made
      simp only [shape, copyEntries_shapes entries copied]
  | foreign f => exact copyForeign_shape (by simpa only [copy] using h)
  | _ =>
      cases h
      rfl

theorem copyList_shapes (items : List Value) {us : List Value} (h : copyList items = .ok us) :
    shapes us = shapes items := by
  cases items with
  | nil =>
      cases h
      rfl
  | cons v rest =>
      obtain ⟨u, first, h⟩ := bind_ok (x := v.copy) h
      obtain ⟨us, others, made⟩ := bind_ok h
      cases made
      simp only [shapes, copy_shape v first, copyList_shapes rest others]

theorem copyEntries_shapes (entries : List (Value × Value)) {us : List (Value × Value)}
    (h : copyEntries entries = .ok us) : entryShapes us = entryShapes entries := by
  cases entries with
  | nil =>
      cases h
      rfl
  | cons e rest =>
      obtain ⟨k, v⟩ := e
      obtain ⟨key, first, h⟩ := bind_ok (x := k.copy) h
      obtain ⟨value, second, h⟩ := bind_ok h
      obtain ⟨us, others, made⟩ := bind_ok h
      cases made
      simp only [entryShapes, copy_shape k first, copy_shape v second, copyEntries_shapes rest others]

end

mutual

/-- A copy that turns tuples into lists has the shape of the original. -/
theorem loosen_shape (v : Value) {u : Value} (h : v.loosen = .ok u) : u.shape = v.shape := by
  cases v with
  | tuple items =>
      simp only [loosen] at h
      obtain ⟨us, copied, made⟩ := bind_ok h
      cases made
      simp only [shape, loosenList_shapes items copied]
  | list items | set items =>
      simp only [loosen] at h
      obtain ⟨us, copied, made⟩ := bind_ok h
      cases made
      simp only [shape, copyList_shapes items copied]
  | frozenset items =>
      cases h
      simp only [shape]
  | mapping entries =>
      simp only [loosen] at h
      obtain ⟨us, copied, made⟩ := bind_ok h
      cases made
      simp only [shape, loosenEntries_shapes entries copied]
  | foreign f => exact copyForeign_shape (by simpa only [loosen] using h)
  | _ =>
      cases h
      rfl

theorem loosenList_shapes (items : List Value) {us : List Value} (h : loosenList items = .ok us) :
    shapes us = shapes items := by
  cases items with
  | nil =>
      cases h
      rfl
  | cons v rest =>
      obtain ⟨u, first, h⟩ := bind_ok (x := v.loosen) h
      obtain ⟨us, others, made⟩ := bind_ok h
      cases made
      simp only [shapes, loosen_shape v first, loosenList_shapes rest others]

theorem loosenEntries_shapes (entries : List (Value × Value)) {us : List (Value × Value)}
    (h : loosenEntries entries = .ok us) : entryShapes us = entryShapes entries := by
  cases entries with
  | nil =>
      cases h
      rfl
  | cons e rest =>
      obtain ⟨k, v⟩ := e
      obtain ⟨value, first, h⟩ := bind_ok (x := v.loosen) h
      obtain ⟨us, others, made⟩ := bind_ok h
      cases made
      simp only [entryShapes, loosen_shape v first, loosenEntries_shapes rest others]

end

/-- What is copied of a property: the first characters of a text, the first items of a list or a tuple. -/
def trimmed : Value → Value
  | .text s => .text (if 10000 < s.length then String.ofList (s.toList.take 10000) else s)
  | .list items | .tuple items => .tuple (items.take 1000)
  | v => v

/-- Whether a property is no longer than what is copied of it. -/
def fits : Value → Prop
  | .text s => s.length ≤ 10000
  | .list items | .tuple items => items.length ≤ 1000
  | _ => True

theorem trimmed_shape {v : Value} (fits : v.fits) : v.trimmed.shape = v.shape := by
  cases v with
  | text s => simp only [trimmed, if_neg (Nat.not_lt.mpr fits)]
  | list items | tuple items => simp only [trimmed, List.take_of_length_le fits, shape]
  | _ => rfl

end Value

namespace Entries

/-- The property that is copied under a key: of several the last one, and none under a long key. -/
def carried? (props : Entries) (k : String) : Option Value :=
  if k.length ≤ 100 then field? props.reverse k else none

theorem carried?_snoc (props : Entries) (e : Value × Value) (k : String) :
    carried? (props ++ [e]) k =
      if k.length ≤ 100 ∧ e.1.isSameItem (.text k) = true then some e.2 else carried? props k := by
  simp only [carried?, List.reverse_append, List.reverse_singleton, List.singleton_append, field?_cons,
    ite_and]
  split <;> rfl

end Entries

theorem copyEntry_text {k : String} (fits : k.length ≤ 100) (done : Entries) (v : Value) :
    copyProps.copyEntry done (.text k, v) =
      liftM v.trimmed.loosen >>= fun u => pure (Entries.write done (.text k) u) := by
  unfold copyProps.copyEntry
  simp only [fits, decide_true, if_true]
  cases v <;> rfl

theorem copyEntry_skipped {key : Value} (long : ∀ k, key = .text k → 100 < k.length) (done : Entries)
    (v : Value) : copyProps.copyEntry done (key, v) =
      liftM key.literal >>= fun shown =>
        journal .warning "registry" ("Skipping default prop with invalid key: " ++ shown) >>= fun _ =>
          pure done := by
  unfold copyProps.copyEntry
  cases key with
  | text k =>
      have long := Nat.not_le.mpr (long k rfl)
      simp only [long, decide_false, Bool.false_eq_true, if_false]
  | _ => rfl

/-- A step of copying properties: a copy of what is kept of the value is written under its key, or the
entry is left out. -/
theorem copyEntry_outcome {done done' : Entries} {e : Value × Value} {lines lines' : List JournalEntry}
    (h : (copyProps.copyEntry done e).run.run lines = (.ok done', lines')) :
    (∃ k u, e.1 = .text k ∧ k.length ≤ 100 ∧ e.2.trimmed.loosen = .ok u ∧
      done' = Entries.write done (.text k) u) ∨
    ((∀ k, e.1 = .text k → 100 < k.length) ∧ done' = done) := by
  obtain ⟨key, v⟩ := e
  by_cases keeps : ∃ k, key = .text k ∧ k.length ≤ 100
  · obtain ⟨k, rfl, fits⟩ := keeps
    left
    rw [copyEntry_text fits] at h
    refine ⟨k, ?_⟩
    cases copied : v.trimmed.loosen with
    | error f =>
        rw [copied] at h
        cases h
    | ok u =>
        rw [copied] at h
        cases h
        exact ⟨u, rfl, fits, rfl, rfl⟩
  · right
    have long : ∀ k, key = .text k → 100 < k.length := fun k same =>
      Nat.lt_of_not_le fun fits => keeps ⟨k, same, fits⟩
    rw [copyEntry_skipped long] at h
    refine ⟨long, ?_⟩
    cases shown : key.literal with
    | error f =>
        rw [shown] at h
        cases h
    | ok line =>
        rw [shown] at h
        cases h
        rfl

theorem copyProps_snoc (props : Entries) (e : Value × Value) :
    (copyProps (props ++ [e])).outcome = match (copyProps props).outcome with
      | (.error f, lines) => (.error f, lines)
      | (.ok done, lines) => (copyProps.copyEntry done e).run.run lines := by
  unfold copyProps Journaled.outcome
  simp only [List.foldlM_append, List.foldlM_cons, List.foldlM_nil, bind_pure, ExceptT.run_bind,
    StateT.run_bind]
  cases (StateT.run (ExceptT.run (List.foldlM copyProps.copyEntry [] props)) [] :
    Except Fault Entries × List JournalEntry) with
  | mk r lines => cases r <;> rfl

/-- Copies of properties hold a copy of what is kept of each, and nothing else. -/
theorem copyProps_outcome {props copied : Entries} {lines : List JournalEntry}
    (h : (copyProps props).outcome = (.ok copied, lines)) :
    copied.Distinct ∧ ∀ k, Option.Rel (fun v u => v.trimmed.loosen = .ok u) (Entries.carried? props k)
      (Entries.field? copied k) := by
  induction props using List.reverseRecOn generalizing copied lines with
  | nil =>
      cases h
      refine ⟨List.Pairwise.nil, fun k => ?_⟩
      have none : Entries.carried? [] k = none := ite_self _
      rw [none]
      exact .none
  | append_singleton props e ih =>
      rw [copyProps_snoc] at h
      split at h
      · cases h
      · rename_i done lines₁ before
        obtain ⟨distinct, ih⟩ := ih before
        rcases copyEntry_outcome h with ⟨key, u, same, fits, made, rfl⟩ | ⟨long, rfl⟩
        · refine ⟨distinct.write, fun k => ?_⟩
          rw [Entries.carried?_snoc, Entries.field?_write, same]
          by_cases here : (Value.text key).isSameItem (.text k) = true
          · cases Value.isSameItem_text.mp here
            rw [if_pos ⟨fits, here⟩, if_pos here]
            exact .some made
          · rw [if_neg fun both => here both.2, if_neg here]
            exact ih k
        · refine ⟨distinct, fun k => ?_⟩
          rw [Entries.carried?_snoc, if_neg]
          · exact ih k
          · rintro ⟨fits, here⟩
            exact Nat.not_lt.mpr fits (long k (Value.isSameItem_text.mp here))

/-! ### What connections deliver -/

/-- The input port that a connection leads to. -/
def Connection.targetPort (c : Connection) : String := (c.input?.filter (!·.isEmpty)).getD "input"

namespace Session

variable {s s' : Session} {c : Connection} {p : String} {v : Value}

/-- What a connection delivers: the value under the output port that it names, and when it names none, or
nothing is recorded there, the last entry of its source's slot. -/
def delivered? (s : Session) (c : Connection) : Option Value :=
  (s.slots.slot c.source).getLast?.map fun last =>
    (c.output?.bind (Entries.field? (s.slots.slot c.source))).getD last.2

/-- A connection that names an output port delivers what is recorded there, unless its source has recorded
values under other ports only. -/
theorem delivered?_named (named : c.output? = some p)
    (recorded : s.slots.slot c.source = [] ∨ Entries.field? (s.slots.slot c.source) p ≠ none) :
    s.delivered? c = Entries.field? (s.slots.slot c.source) p := by
  unfold delivered?
  rw [named, Option.bind_some]
  generalize s.slots.slot c.source = slot at recorded
  cases last : slot.getLast? with
  | none =>
      rw [List.getLast?_eq_none_iff.mp last]
      rfl
  | some e =>
      cases found : Entries.field? slot p with
      | some v => rfl
      | none =>
          rcases recorded with rfl | recorded
          · cases last
          · exact absurd found recorded

/-- Connections write what they deliver one after the other. -/
theorem collectInputs_eq (s : Session) (id : String) :
    s.collectInputs id = (s.graph.incoming id).foldl (fun inputs c =>
      (s.delivered? c).elim inputs (Entries.writeField inputs c.targetPort)) [] := by
  unfold collectInputs delivered?
  congr 1
  funext inputs c
  cases last : (s.slots.slot c.source).getLast? <;> simp only [last] <;> rfl

/-- Of the connections that lead to one port, the last that delivers anything counts. -/
theorem field?_collectInputs (s : Session) (id port : String) :
    Entries.field? (s.collectInputs id) port =
      ((s.graph.incoming id).filter (·.targetPort == port)).reverse.findSome? s.delivered? := by
  rw [collectInputs_eq]
  induction s.graph.incoming id using List.reverseRecOn with
  | nil => rfl
  | append_singleton connections c ih =>
      rw [List.foldl_append, List.foldl_cons, List.foldl_nil, List.filter_append, List.reverse_append,
        List.findSome?_append, ← ih]
      generalize connections.foldl _ _ = inputs
      by_cases leads : c.targetPort = port
      · cases delivers : s.delivered? c with
        | none => simp [leads, delivers]
        | some v => simp [leads, delivers, Entries.writeField, Entries.field?_write]
      · have apart : ¬(Value.text c.targetPort).isSameItem (.text port) = true := fun same =>
          leads (Value.text.inj (Value.isSameItem_text.mp same))
        cases delivers : s.delivered? c with
        | none => simp [leads]
        | some v => simp [leads, Entries.writeField, Entries.field?_write, apart]

/-- An element is given copies of its properties over what its connections deliver. -/
theorem contextOf_inputs {e : Element} {c : Context} (made : s.contextOf e = (.ok c, s')) :
    ∃ copied lines, (copyProps e.props).outcome = (.ok copied, lines) ∧
      c.inputs = Entries.overlay (s'.collectInputs e.id) copied := by
  unfold contextOf at made
  cases copies : (copyProps e.props).outcome with
  | mk props lines =>
      simp only [copies] at made
      cases props with
      | error f => cases made
      | ok copied =>
          cases made
          exact ⟨copied, lines, rfl, rfl⟩

/-- A context cannot be made when the properties cannot be copied. -/
theorem contextOf_error {e : Element} {f : Fault} (failed : s.contextOf e = (.error f, s')) :
    ∃ lines, (copyProps e.props).outcome = (.error f, lines) := by
  unfold contextOf at failed
  cases copies : (copyProps e.props).outcome with
  | mk props lines =>
      simp only [copies] at failed
      cases props with
      | error g =>
          cases failed
          exact ⟨lines, rfl⟩
      | ok copied => cases failed

/-- Under the key of a property an element finds a copy of what is kept of it, whatever connections lead
there. -/
theorem contextOf_carried {e : Element} {c : Context} {k : String} (made : s.contextOf e = (.ok c, s'))
    (carries : Entries.carried? e.props k = some v) :
    ∃ u, Entries.field? c.inputs k = some u ∧ u.shape = v.trimmed.shape := by
  obtain ⟨copied, lines, copies, inputs⟩ := contextOf_inputs made
  obtain ⟨distinct, holds⟩ := copyProps_outcome copies
  rw [inputs, Entries.field?_overlay distinct]
  have holds := holds k
  rw [carries] at holds
  generalize Entries.field? copied k = found at holds
  cases holds with
  | some loosened => exact ⟨_, Option.some_or, Value.loosen_shape _ loosened⟩

/-- Under every other key it finds what connections deliver. -/
theorem contextOf_delivered {e : Element} {c : Context} {port : String}
    (made : s.contextOf e = (.ok c, s')) (free : Entries.carried? e.props port = none) :
    Entries.field? c.inputs port =
      ((s'.graph.incoming e.id).filter (·.targetPort == port)).reverse.findSome? s'.delivered? := by
  obtain ⟨copied, lines, copies, inputs⟩ := contextOf_inputs made
  obtain ⟨distinct, holds⟩ := copyProps_outcome copies
  rw [inputs, Entries.field?_overlay distinct, field?_collectInputs]
  have holds := holds port
  rw [free] at holds
  generalize Entries.field? copied port = found at holds
  cases holds with
  | none => exact Option.none_or

end Session

end BlockGraph
