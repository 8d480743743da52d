import BlockGraph.Proofs.Rounds
/-!
Lifecycles: elements are started once each, and are over in the reverse order of their starts. The
elements under way are the stack of the traversal; that is the invariant, and at the end of a traversal
the stack is empty.
-/
namespace BlockGraph

namespace Happening

/-- The element that is started. -/
def started? : Happening → Option String
  | .started id => some id
  | _ => none

/-- The element that is over. -/
def completed? : Happening → Option String
  | .completed id => some id
  | _ => none

/-- The event by which listeners are told of a visit. -/
def visit? : Happening → Option Event
  | .started id => some (.start id)
  | .completed id => some (.complete id)
  | .traversed c => some (.traverse c)
  | _ => none

/-- Histories in which each element that is over was the last to be started of those under way. The
elements still under way are told innermost first. -/
inductive Nested : List Happening → List String → Prop
  | nothing : Nested [] []
  | start (id : String) {history : List Happening} {underway : List String} :
      Nested history underway → Nested (.started id :: history) (id :: underway)
  | complete (id : String) {history : List Happening} {underway : List String} :
      Nested history (id :: underway) → Nested (.completed id :: history) underway
  | other {h : Happening} {history : List Happening} {underway : List String} :
      h.started? = none → h.completed? = none → Nested history underway →
      Nested (h :: history) underway

/-- Every element that was started is over or under way, as often as it was started. -/
theorem Nested.perm {history : List Happening} {underway : List String} (h : Nested history underway) :
    (history.filterMap completed? ++ underway).Perm (history.filterMap started?) := by
  induction h with
  | nothing => exact .refl _
  | start id _ ih => exact List.perm_middle.trans (ih.cons id)
  | complete id _ ih => exact List.perm_middle.symm.trans ih
  | other start complete _ ih =>
      rw [List.filterMap_cons_none start, List.filterMap_cons_none complete]
      exact ih

end Happening

namespace Session

/-- The elements that were started, in order. -/
def starts (s : Session) : List String := s.history.reverse.filterMap Happening.started?

/-- The elements that are over, in order. -/
def completions (s : Session) : List String := s.history.reverse.filterMap Happening.completed?

/-- The events of visits, in order. -/
def visits (s : Session) : List Event := s.history.reverse.filterMap Happening.visit?

theorem note_starts (s : Session) (x : Happening) :
    (s.note x).starts = s.starts ++ x.started?.toList := by
  simp only [starts, note, List.reverse_cons, List.filterMap_append]
  cases x <;> rfl

theorem note_visits (s : Session) (x : Happening) :
    (s.note x).visits = s.visits ++ x.visit?.toList := by
  simp only [visits, note, List.reverse_cons, List.filterMap_append]
  cases x <;> rfl

/-- What listeners have heard of visits ends with the visits of this run that they listen to. -/
def Told (s : Session) : Prop := ∃ before, s.heardVisits = before ++
  (s.visits.filter fun e => s.options.heard.contains e.kind).map (s.listener.number, ·)

namespace Told

variable {s s' : Session}

theorem kept (h : s.Told) (k : Kept s s') : s'.Told := by
  rw [Told, visits, k.heard, k.history, k.options, k.listener]
  exact h

theorem note (h : s.Told) {x : Happening} (quiet : x.visit? = none) : (s.note x).Told := by
  obtain ⟨before, heard⟩ := h
  refine ⟨before, ?_⟩
  rw [note_visits, quiet, Option.toList_none, List.append_nil]
  exact heard

/-- A visit is told to the listener, if it listens. -/
theorem visit (h : s.Told) {x : Happening} {e : Event} (tells : x.visit? = some e) :
    ((s.note x).hears e).Told := by
  obtain ⟨before, heard⟩ := h
  have heard : s.heard.toList.filter (·.2.ofVisit) = _ := heard
  have ofVisit : e.ofVisit = true := by cases x <;> cases tells <;> rfl
  have visits : (s.note x).visits = s.visits ++ [e] := by
    rw [note_visits, tells, Option.toList_some]
  refine ⟨before, ?_⟩
  cases listens : s.options.heard.contains e.kind with
  | true =>
      have hears : (s.note x).hears e = { s.note x with heard := s.heard.push (s.listener.number, e) } :=
        if_pos listens
      rw [hears]
      show (s.heard.push (s.listener.number, e)).toList.filter (·.2.ofVisit) = before ++
        ((s.note x).visits.filter fun e => s.options.heard.contains e.kind).map (s.listener.number, ·)
      rw [visits, Array.toList_push, List.filter_append, heard, List.filter_append, List.map_append,
        List.append_assoc]
      simp only [List.filter_cons, ofVisit, listens, List.filter_nil, if_true, List.map_cons,
        List.map_nil]
  | false =>
      have hears : (s.note x).hears e = s.note x :=
        if_neg (show ¬s.options.heard.contains e.kind = true by rw [listens]; exact Bool.false_ne_true)
      rw [hears]
      show s.heard.toList.filter (·.2.ofVisit) = before ++
        ((s.note x).visits.filter fun e => s.options.heard.contains e.kind).map (s.listener.number, ·)
      rw [visits, heard, List.filter_append]
      simp only [List.filter_cons, listens, List.filter_nil, Bool.false_eq_true, if_false,
        List.append_nil]

theorem counted (h : s.Told) : s.counted.Told := by
  have counts : Told { s with steps := s.steps + 1 } := h
  exact counts.note rfl

theorem starting (h : s.Told) (id : String) : (s.starting id).Told := by
  have counts : Told { s.counted with processed := s.counted.processed ++ [id] } := h.counted
  exact counts.visit (x := .started id) rfl

theorem record (h : s.Told) (id : String) (e : Emission) : (s.record id e).Told := by
  have written : Told (s.withSlots s.run (s.slots.write id (.text e.port) e.value)) := h
  exact written.note rfl

end Told

/-- What the records of a run say of its elements, some of which are under way. -/
structure Tidy (s : Session) (underway : List String) : Prop where
  order : s.starts = s.processed
  once : s.processed.Nodup
  elements : ∀ id ∈ s.processed, ∃ e ∈ s.graph.elements, e.id = id
  nested : Happening.Nested s.history underway
  slots : ∀ id ∈ s.processed, id ∈ s.slots.ids
  owned : ∀ id ∈ s.slots.ids, id ∈ s.processed ∨ id = Slots.globalId

namespace Tidy

variable {s s' : Session} {underway : List String} {id : String}

theorem kept (h : s.Tidy underway) (k : Kept s s') : s'.Tidy underway where
  order := by rw [starts, k.history, k.processed]; exact h.order
  once := k.processed ▸ h.once
  elements := by rw [k.processed, k.graph]; exact h.elements
  nested := k.history ▸ h.nested
  slots := by
    intro id started
    rw [k.processed] at started
    exact k.slots (h.slots id started)
  owned := by
    intro id here
    rw [k.processed]
    rcases k.owned id here with old | rest
    · exact h.owned id old
    · exact rest

/-- A happening after which the same elements are under way. -/
theorem note (h : s.Tidy underway) {x : Happening} (start : x.started? = none)
    (complete : x.completed? = none) : (s.note x).Tidy underway := by
  refine { h with order := ?_, nested := .other start complete h.nested }
  rw [note_starts, start, Option.toList_none, List.append_nil]
  exact h.order

theorem hears (h : s.Tidy underway) (e : Event) : (s.hears e).Tidy underway := by
  unfold Session.hears
  split
  · exact { h with }
  · exact h

theorem counted (h : s.Tidy underway) : s.counted.Tidy underway := by
  have counts : Tidy { s with steps := s.steps + 1 } underway := { h with }
  exact counts.note rfl rfl

theorem record (h : s.Tidy underway) (started : id ∈ s.processed) (e : Emission) :
    (s.record id e).Tidy underway := by
  have written : Kept s (s.withSlots s.run (s.slots.write id (.text e.port) e.value)) :=
    .opened (Slots.ids_write _ _ _ _) fun _ => .inl started
  exact (h.kept written).note rfl rfl

theorem traversing (h : s.Tidy underway) (c : Connection) : (s.traversing c).Tidy underway :=
  (h.note (x := .traversed c.id) rfl rfl).hears _

theorem completing (h : s.Tidy (id :: underway)) : (s.completing id).Tidy underway := by
  have ceased : Tidy (s.note (.completed id)) underway := by
    refine { h with order := ?_, nested := .complete id h.nested }
    rw [note_starts]
    exact (List.append_nil _).trans h.order
  exact ceased.hears _

theorem starting (h : s.Tidy underway) (stored : 0 < s.stores.size) (starts : s.Starts id) :
    (s.starting id).Tidy (id :: underway) := by
  have processed := s.starting_processed id
  have history := s.starting_history id
  have slots := starting_slots stored id
  constructor
  case order =>
    rw [Session.starts, history, processed, ← h.order, Session.starts]
    simp only [List.reverse_cons, List.append_assoc, List.filterMap_append]
    rfl
  case once =>
    rw [processed]
    refine List.nodup_append.mpr ⟨h.once, by simp, fun a old b new => ?_⟩
    rintro rfl
    exact starts.fresh (List.mem_singleton.mp new ▸ old)
  case elements =>
    intro other started
    rw [processed] at started
    rw [starting_graph]
    rcases List.mem_append.mp started with old | new
    · exact h.elements other old
    · exact List.mem_singleton.mp new ▸ starts.element
  case nested =>
    rw [history]
    exact .start id (.other rfl rfl h.nested)
  case slots =>
    intro other started
    rw [processed] at started
    rw [slots, Slots.mem_ids_opened]
    rcases List.mem_append.mp started with old | new
    · exact .inl (h.slots other old)
    · exact .inr (List.mem_singleton.mp new)
  case owned =>
    intro other here
    rw [slots, Slots.mem_ids_opened] at here
    rw [processed]
    rcases here with old | rfl
    · exact (h.owned other old).imp_left fun started => List.mem_append_left _ started
    · exact .inl (List.mem_append_right _ (List.mem_singleton.mpr rfl))

/-- Elements under way were started. -/
theorem started (h : s.Tidy underway) (here : id ∈ underway) : id ∈ s.processed := by
  have started := h.nested.perm.subset (List.mem_append_right _ here)
  rw [← h.order, Session.starts, List.filterMap_reverse, List.mem_reverse]
  exact started

end Tidy

end Session

/-! ### The elements under way -/

namespace Traversal

/-- The elements under way, innermost first. -/
def underway (t : Traversal) : List String := t.stack.map (·.element.id)

end Traversal

/-- The elements that are under way at the end, if that is known: a traversal that fails or is
cancelled leaves them as they are. -/
def WalkEnd.underway? : WalkEnd → Option (List String)
  | .normal => some []
  | _ => none

/-- The elements under way at a stage, if they are known. -/
def Stage.underway? : Stage → Option (List String)
  | .opening => some []
  | .walking t | .awaiting t _ _ => some t.underway
  | .delaying t id => some (id :: t.underway)
  | .unwinding _ e | .closing _ _ _ e | .over e => e.underway?

/-- The invariant of runs: the records are in order, and the elements under way are those of the stage. -/
def Stage.Lifecycle (s : Session) (st : Stage) : Prop :=
  s.Told ∧ ∃ underway, s.Tidy underway ∧ ∀ known, st.underway? = some known → underway = known

namespace Traversal

variable {t : Traversal} {s s' : Session} {id : String} {m : Move} {underway : List String}

theorem walking_lifecycle (told : s.Told) (tidy : s.Tidy t.underway) :
    (Stage.walking t).Lifecycle s :=
  ⟨told, _, tidy, fun _ same => Option.some.inj same⟩

theorem fail_lifecycle (t : Traversal) (f : RunFault) (told : s.Told) (tidy : s.Tidy underway) :
    (Stage.settle (.fail f t, s)).1.Lifecycle (Stage.settle (.fail f t, s)).2 := by
  refine ⟨told.note (x := .failed f) rfl, _, tidy.note (x := .failed f) rfl rfl, fun known same => ?_⟩
  cases same

/-- An element is over, between deeds. -/
theorem completed_lifecycle {s₁ : Session} (before : Deeds s s₁) (after : Deeds (s₁.completing id) s')
    (started : s'.started = true) (told : s.Told) (tidy : s.Tidy (id :: t.underway)) :
    (Stage.walking t).Lifecycle s' := by
  have kept' := after.kept_of_started started
  have kept := before.kept_of_started
    ((s₁.completing_runsOn id).began (kept'.started.symm.trans started))
  have ceased : (s₁.completing id).Told := (told.kept kept).visit (x := .completed id) rfl
  exact walking_lifecycle (ceased.kept kept') (((tidy.kept kept).completing).kept kept')

theorem Visited.lifecycle (h : t.Visited s id m s') (stored : 0 < s.stores.size) (told : s.Told)
    (tidy : s.Tidy t.underway) :
    (Stage.settle (m, s')).1.Lifecycle (Stage.settle (m, s')).2 := by
  cases h with
  | skipped _ _ => exact walking_lifecycle told.counted tidy.counted
  | overBudget _ _ => exact fail_lifecycle t _ told.counted tidy.counted
  | unknown type _ _ => exact fail_lifecycle t _ told.counted tidy.counted
  | failed f starts kept =>
      exact fail_lifecycle t _ ((told.starting id).kept kept) ((tidy.starting stored starts).kept kept)
  | started frame starts kept element _ _ =>
      refine walking_lifecycle ((told.starting id).kept kept) ?_
      have started := (tidy.starting stored starts).kept kept
      rwa [← element] at started

theorem underway_cons {frame : Frame} {outer : List Frame} (stack : t.stack = frame :: outer) :
    t.underway = frame.element.id :: outer.map (·.element.id) := by
  rw [underway, stack, List.map_cons]

theorem Moved.lifecycle (h : t.Moved s m s') (stored : 0 < s.stores.size) (started : s'.started = true)
    (told : s.Told) (tidy : s.Tidy t.underway) :
    (Stage.settle (m, s')).1.Lifecycle (Stage.settle (m, s')).2 := by
  cases h with
  | finished stack _ =>
      refine ⟨told, _, tidy, fun known same => ?_⟩
      rw [← Option.some.inj same, underway, stack]
      rfl
  | entered id rest stack _ _ visited =>
      exact visited.lifecycle stored (told.note rfl) (tidy.note rfl rfl)
  | traversed frame outer c rest stack _ _ kept visited =>
      have told := (told.visit (x := .traversed c.id) rfl).kept kept
      have tidy := (tidy.traversing c).kept kept
      rw [underway_cons stack] at tidy
      exact visited.lifecycle (by rw [kept.size, Session.traversing_size]; exact stored) told tidy
  | cleared frame outer stack _ =>
      rw [underway_cons stack] at tidy
      exact walking_lifecycle told tidy
  | waited frame outer p stack _ _ =>
      rw [underway_cons stack] at tidy
      exact ⟨told, _, tidy, fun _ same => Option.some.inj same⟩
  | went frame outer source stack _ deeds _ =>
      have kept := deeds.kept_of_started started
      rw [underway_cons stack] at tidy
      exact walking_lifecycle (told.kept kept) (tidy.kept kept)
  | @recorded frame outer source e s₁ stack _ deeds _ =>
      have kept := deeds.kept_of_started started
      rw [underway_cons stack] at tidy
      have tidy := tidy.kept kept
      exact walking_lifecycle ((told.kept kept).record _ e)
        (tidy.record (tidy.started List.mem_cons_self) e)
  | ended frame outer stack _ before after =>
      rw [underway_cons stack] at tidy
      exact completed_lifecycle before after started told tidy
  | delayed frame outer stack _ deeds _ =>
      have kept := deeds.kept_of_started started
      rw [underway_cons stack] at tidy
      exact ⟨told.kept kept, _, tidy.kept kept, fun _ same => Option.some.inj same⟩
  | failed f t' deeds _ _ =>
      have kept := deeds.kept_of_started started
      exact fail_lifecycle t' f (told.kept kept) (tidy.kept kept)

end Traversal

theorem Stage.ending_underway {st : Stage} {e : WalkEnd} (ending : st.ending? = some e) :
    st.underway? = e.underway? := by
  cases st with
  | unwinding t e' | closing t p insists? e' | «over» e' => rw [← Option.some.inj ending]; rfl
  | _ => cases ending

theorem Session.Fresh.lifecycle {s : Session} (h : s.Fresh) : Stage.opening.Lifecycle s := by
  have tidy : s.Tidy [] := by
    constructor
    case order => rw [Session.starts, h.history, h.processed]; rfl
    case once => rw [h.processed]; exact List.nodup_nil
    case elements => rw [h.processed]; exact fun _ member => (List.not_mem_nil member).elim
    case nested => rw [h.history]; exact .nothing
    case slots => rw [h.processed]; exact fun _ member => (List.not_mem_nil member).elim
    case owned => rw [h.slots]; exact fun _ member => (List.not_mem_nil member).elim
  refine ⟨⟨s.heardVisits, ?_⟩, [], tidy, fun known same => Option.some.inj same⟩
  rw [Session.visits, h.history]
  exact (List.append_nil _).symm

theorem lifecycle_law (g : Graph) : Law g fun s st => st.Lifecycle s where
  begun fresh _ := fresh.lifecycle
  kept := by
    intro s s' st kept ⟨told, underway, tidy, known⟩
    exact ⟨told.kept kept, underway, tidy.kept kept, known⟩
  closed := by
    intro s st ⟨told, underway, tidy, known⟩
    exact ⟨told, underway, { tidy with }, known⟩
  goes := by
    intro s s' st st' stored goes started ⟨told, underway, tidy, known⟩
    have kept : Deeds s s' → s'.Told ∧ s'.Tidy underway := fun deeds =>
      have kept := deeds.kept_of_started started
      ⟨told.kept kept, tidy.kept kept⟩
    cases goes with
    | opened deeds => exact ⟨(kept deeds).1, underway, (kept deeds).2, known⟩
    | barred e deeds fails _ =>
        refine ⟨(kept deeds).1, underway, (kept deeds).2, fun ids same => ?_⟩
        cases e with
        | normal => exact absurd rfl fails
        | _ => cases same
    | moved h =>
        obtain rfl := known _ rfl
        exact h.lifecycle stored ((Stage.settle_runsOn _ _).began started) told tidy
    | answered h =>
        obtain rfl := known _ rfl
        exact h.lifecycle stored ((Stage.settle_runsOn _ _).began started) told tidy
    | worked deeds _ => exact ⟨(kept deeds).1, underway, (kept deeds).2, known⟩
    | delayed before after =>
        obtain rfl := known _ rfl
        exact Traversal.completed_lifecycle before after started told tidy
    | @torn _ _ e _ ending deeds still _ =>
        refine ⟨(kept deeds).1, underway, (kept deeds).2, fun ids same => known ids ?_⟩
        rw [Stage.ending_underway ending]
        rcases still with on | cancelled
        · rwa [Stage.ending_underway on] at same
        · rw [Stage.ending_underway cancelled] at same
          cases same
    | cancelled _ =>
        refine ⟨told, underway, tidy, fun ids same => ?_⟩
        cases same

/-! ### Every run -/

end BlockGraph
