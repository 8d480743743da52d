import BlockGraph.Proofs.Deed
/-!
What deeds keep of a run: its graph and options, the elements it has started, its count of visits and
its history. A session that does not run may also be reset, and then the run is forgotten.
-/
namespace BlockGraph

namespace Event

/-- Whether an event tells of a visit: that an element is started or over, or a connection traversed. -/
def ofVisit (e : Event) : Bool :=
  match e with
  | .start _ | .complete _ | .traverse _ => true
  | _ => false

theorem ofVisit_of_quiet {e : Event} (h : e.kind = .log ∨ e.kind = .error) : e.ofVisit = false := by
  cases e <;> simp_all [kind, ofVisit]

end Event

namespace Slots

/-- The elements that have a slot. -/
def ids (slots : Slots) : List String := slots.map (·.1)

theorem mem_ids_opened {slots : Slots} {id other : String} :
    other ∈ (slots.opened id).ids ↔ other ∈ slots.ids ∨ other = id := by
  unfold opened
  split
  · rename_i found
    obtain ⟨s, hs, same⟩ := List.any_eq_true.mp found
    have here : id ∈ slots.ids := List.mem_map.mpr ⟨s, hs, by simpa using same⟩
    constructor
    · exact .inl
    · rintro (old | rfl)
      · exact old
      · exact here
  · simp only [ids, List.map_append, List.map_cons, List.map_nil, List.mem_append, List.mem_singleton]

theorem ids_write (slots : Slots) (id : String) (key value : Value) :
    (slots.write id key value).ids = (slots.opened id).ids := by
  simp only [write, ids, List.map_map]
  congr 1
  funext s
  simp only [Function.comp_apply]
  split <;> rfl

end Slots

namespace Session

/-- What listeners were told of visits, in all runs. -/
def heardVisits (s : Session) : List (Nat × Event) := s.heard.toList.filter (·.2.ofVisit)

theorem slotsOf_last {s : Session} {run : Nat} (last : run + 1 = s.stores.size) :
    s.slotsOf run = s.slots := by
  have same : run = s.run := by simp only [Session.run]; omega
  rw [same, Session.slots]

/-- The slots after a store was replaced. -/
theorem withSlots_slots (s : Session) (run : Nat) (slots : Slots) :
    (s.withSlots run slots).slots = if run + 1 = s.stores.size then slots else s.slots := by
  by_cases last : run + 1 = s.stores.size
  · have same : s.stores.size - 1 = run := by omega
    have inside : run < s.stores.size := by omega
    simp only [Session.slots, slotsOf, Session.run, withSlots, Array.size_setIfInBounds,
      Array.getD_eq_getD_getElem?, Array.getElem?_setIfInBounds, same, if_true, last, inside,
      Option.getD_some]
  · rw [if_neg last]
    simp only [Session.slots, slotsOf, Session.run, withSlots, Array.size_setIfInBounds,
      Array.getD_eq_getD_getElem?, Array.getElem?_setIfInBounds]
    by_cases same : run = s.stores.size - 1
    · have none : s.stores.size = 0 := by omega
      simp [same, none]
    · rw [if_neg same]

end Session

/-- One session comes of another without anything happening to the run: no element is visited, and only
elements that the run has started gain a slot. -/
structure Kept (s s' : Session) : Prop where
  graph : s'.graph = s.graph
  options : s'.options = s.options
  listener : s'.listener = s.listener
  running : s'.running = s.running
  started : s'.started = s.started
  size : s'.stores.size = s.stores.size
  processed : s'.processed = s.processed
  steps : s'.steps = s.steps
  history : s'.history = s.history
  heard : s'.heardVisits = s.heardVisits
  stop : s.stopRequested = true → s'.stopRequested = true
  slots : s.slots.ids ⊆ s'.slots.ids
  owned : ∀ id ∈ s'.slots.ids, id ∈ s.slots.ids ∨ id ∈ s.processed ∨ id = Slots.globalId

/-- A session that does not run has been reset. -/
structure Forgotten (s s' : Session) : Prop where
  idle : s.running = false
  running : s'.running = false
  started : s'.started = false
  size : s.stores.size < s'.stores.size

namespace Kept

theorem refl (s : Session) : Kept s s where
  graph := rfl
  options := rfl
  listener := rfl
  running := rfl
  started := rfl
  size := rfl
  processed := rfl
  steps := rfl
  history := rfl
  heard := rfl
  stop := id
  slots := List.Subset.refl _
  owned := fun _ => .inl

theorem trans {s₁ s₂ s₃ : Session} (h : Kept s₁ s₂) (h' : Kept s₂ s₃) : Kept s₁ s₃ where
  graph := h'.graph.trans h.graph
  options := h'.options.trans h.options
  listener := h'.listener.trans h.listener
  running := h'.running.trans h.running
  started := h'.started.trans h.started
  size := h'.size.trans h.size
  processed := h'.processed.trans h.processed
  steps := h'.steps.trans h.steps
  history := h'.history.trans h.history
  heard := h'.heard.trans h.heard
  stop := h'.stop ∘ h.stop
  slots := List.Subset.trans h.slots h'.slots
  owned := by
    intro id here
    rcases h'.owned id here with mem | mem | same
    · exact h.owned id mem
    · exact .inr (.inl (h.processed ▸ mem))
    · exact .inr (.inr same)

/-- A run that is active was so before. -/
theorem active {s s' : Session} (h : Kept s s') (active : s'.active = true) : s.active = true := by
  simp only [Session.active, Bool.and_eq_true, Bool.not_eq_true'] at active ⊢
  refine ⟨h.running.symm.trans active.1, ?_⟩
  cases stop : s.stopRequested with
  | false => rfl
  | true =>
      rw [h.stop stop] at active
      cases active.2

/-- Replacing a store keeps a run when, if it is the store of that run, no slot is lost and only known
elements gain one. -/
theorem withSlots {s : Session} {run : Nat} {slots : Slots}
    (gain : run + 1 = s.stores.size → s.slots.ids ⊆ slots.ids ∧
      ∀ id ∈ slots.ids, id ∈ s.slots.ids ∨ id ∈ s.processed ∨ id = Slots.globalId) :
    Kept s (s.withSlots run slots) where
  graph := rfl
  options := rfl
  listener := rfl
  running := rfl
  started := rfl
  size := s.withSlots_size run slots
  processed := rfl
  steps := rfl
  history := rfl
  heard := rfl
  stop := id
  slots := by
    rw [Session.withSlots_slots]
    split
    · rename_i last
      exact (gain last).1
    · exact List.Subset.refl _
  owned := by
    intro id here
    rw [Session.withSlots_slots] at here
    split at here
    · rename_i last
      exact (gain last).2 id here
    · exact .inl here

theorem opened {s : Session} {run : Nat} {slots : Slots} {id : String}
    (ids : slots.ids = ((s.slotsOf run).opened id).ids)
    (known : run + 1 = s.stores.size → id ∈ s.processed ∨ id = Slots.globalId) :
    Kept s (s.withSlots run slots) := by
  refine withSlots fun last => ?_
  rw [ids, Session.slotsOf_last last]
  refine ⟨fun other here => Slots.mem_ids_opened.mpr (.inl here), fun other here => ?_⟩
  rcases Slots.mem_ids_opened.mp here with old | rfl
  · exact .inl old
  · exact .inr (known last)

end Kept

/-- A deed keeps the run, or makes a session that does not run forget it. -/
theorem Deed.kept {s s' : Session} (h : Deed s s') : Kept s s' ∨ Forgotten s s' := by
  cases h with
  | tell listener e quiet =>
      left
      refine { Kept.refl s with heard := ?_ }
      simp only [Session.heardVisits, Array.toList_push, List.filter_append, List.filter_cons,
        Event.ofVisit_of_quiet quiet, List.filter_nil, List.append_nil, Bool.false_eq_true, if_false]
  | stop => exact .inl { Kept.refl s with stop := fun _ => rfl }
  | reset idle => exact .inr ⟨idle, idle, rfl, by simp [Session.cleared]⟩
  | store run id key value known =>
      exact .inl (.opened (Slots.ids_write _ _ _ _) fun last => .inl (known.2 last))
  | storeGlobal run name value => exact .inl (.opened (Slots.ids_write _ _ _ _) fun _ => .inr rfl)
  | openGlobal run => exact .inl (.opened rfl fun _ => .inr rfl)
  | _ => exact .inl { Kept.refl s with }

theorem Deeds.kept {s s' : Session} (h : Deeds s s') : Kept s s' ∨ Forgotten s s' := by
  induction h with
  | refl => exact .inl (.refl s)
  | tail _ d ih =>
      rcases ih with kept | gone <;> rcases d.kept with kept' | gone'
      · exact .inl (kept.trans kept')
      · exact .inr ⟨kept.running ▸ gone'.idle, gone'.running, gone'.started, kept.size ▸ gone'.size⟩
      · exact .inr ⟨gone.idle, kept'.running.trans gone.running, kept'.started.trans gone.started,
          kept'.size ▸ gone.size⟩
      · exact .inr ⟨gone.idle, gone'.running, gone'.started, Nat.lt_trans gone.size gone'.size⟩

/-- A run that is under way is not forgotten. -/
theorem Deeds.kept_of_running {s s' : Session} (h : Deeds s s') (running : s.running = true) :
    Kept s s' := by
  rcases h.kept with kept | gone
  · exact kept
  · rw [gone.idle] at running
    cases running

/-- A session that is taken for a run is a new one, in which no more than lines were written. -/
theorem Session.taken_kept (s : Session) (options : Options) (listener : Listener) (bindings : Entries) :
    Kept { s.cleared with options, listener, bindings, running := true, status := .running, started := true }
      (s.taken options listener bindings) := by
  let s' := { s.cleared with options, listener, bindings, running := true, status := .running, started := true }
  have deeds : Deeds s' (s.taken options listener bindings) := (s'.report_deeds _ _ _).trans (say_deeds _ _)
  exact deeds.kept_of_running rfl

end BlockGraph
