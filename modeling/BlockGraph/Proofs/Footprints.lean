import BlockGraph.Proofs.Inputs
import BlockGraph.Proofs.Reach
import BlockGraph.Proofs.Stores
/-!
Footprints: what a traversal changes of the slots and the emissions of a run. Only the innermost element emits
and writes to its slot, and only when it has nothing left to fire. So what an element emitted last stands in its
slot until the last connection that it fired is traversed.
-/
namespace BlockGraph

/-- Whether entries hold one value under a text key, and no other. -/
structure Entries.Holds (entries : Entries) (k : String) (v : Value) : Prop where
  found : field? entries k = some v
  only : ∀ e ∈ entries, e.1 = .text k → e.2 = v

theorem Entries.write_holds (entries : Entries) (k : String) (v : Value) : Holds (write entries (.text k) v) k v := by
  refine ⟨field?_write.trans (if_pos (Value.text_isSameItem_self k)), fun e member same => ?_⟩
  unfold write at member
  split at member
  · obtain ⟨old, _, rfl⟩ := List.mem_map.mp member
    split
    · rfl
    · rename_i other
      rw [if_neg other] at same
      exact absurd (Value.isSameItem_text.mpr same) other
  · rename_i lacks
    rcases List.mem_append.mp member with old | new
    · exact absurd (List.any_eq_true.mpr ⟨e, old, Value.isSameItem_text.mpr same⟩) lacks
    · rw [List.mem_singleton.mp new]

namespace Session

variable {s s₁ s' : Session} {id owner : String}

/-- The emissions of a run with the elements that made them, latest first. -/
def emissions (s : Session) : List (String × Emission) := s.history.filterMap Happening.emitted?

/-- Whether one session comes of another without an emission of an element, or a value written to its slot. -/
structure Leaves (id : String) (s s' : Session) : Prop where
  graph : s'.graph = s.graph
  running : s'.running = s.running
  emission : s'.emissions.lookup id = s.emissions.lookup id
  slot : id ≠ Slots.globalId → s'.slots.slot id = s.slots.slot id

/-- Whether one session comes of another with emissions of one element only, and values written to its slot. -/
def ModifiesOnly (owner : String) (s s' : Session) : Prop := ∀ id, id ≠ owner → s.Leaves id s'

namespace Leaves

theorem refl (s : Session) : s.Leaves id s := ⟨rfl, rfl, rfl, fun _ => rfl⟩

theorem trans (h : s.Leaves id s₁) (h' : s₁.Leaves id s') : s.Leaves id s' :=
  ⟨h'.graph.trans h.graph, h'.running.trans h.running, h'.emission.trans h.emission,
    fun own => (h'.slot own).trans (h.slot own)⟩

theorem of_kept (kept : Kept s s') (slot : id ≠ Slots.globalId → s'.slots.slot id = s.slots.slot id) :
    s.Leaves id s' where
  graph := kept.graph
  running := kept.running
  emission := congrArg (fun history => (history.filterMap Happening.emitted?).lookup id) kept.history
  slot := slot

/-- Deeds of a run emit nothing, and leave the slots alone that they do not write to. -/
theorem of_deeds {run : Nat} (deeds : Deeds s s') (running : s.running = true)
    (confined : Confined run owner s s') (other : s.run = run → id ≠ owner) : s.Leaves id s' :=
  .of_kept (deeds.kept_of_running running) (confined.slot other)

theorem of_telling (deeds : Deeds s s') (running : s.running = true) (unwritten : s.Unwritten s') :
    s.Leaves id s' := .of_kept (deeds.kept_of_running running) fun _ => congrArg (·.slot id) unwritten.slots

end Leaves

theorem ModifiesOnly.refl (s : Session) : s.ModifiesOnly owner s := fun _ _ => .refl s

theorem ModifiesOnly.trans (h : s.ModifiesOnly owner s₁) (h' : s₁.ModifiesOnly owner s') :
    s.ModifiesOnly owner s' := fun id other => (h id other).trans (h' id other)

theorem say_leaves (line : String) (running : s.running = true) : s.Leaves id (s.say line) :=
  .of_telling (s.say_deeds line) running (say_confined line running)

theorem notify_leaves (e : Event) (running : s.running = true) : s.Leaves id (s.notify e) := by
  have told : s.Unwritten (s.notify e) := tell_confines 2 s s.options s.listener e running
  have heard : (s.hears e).running = s.running ∧ (s.hears e).history = s.history := by
    unfold hears
    split <;> exact ⟨rfl, rfl⟩
  have kept := (s.notify_deeds e).kept_of_running (heard.1.trans running)
  refine ⟨kept.graph.trans (s.hears_runsOn e).graph, told.running, ?_, fun _ => congrArg (·.slot id) told.slots⟩
  rw [emissions, kept.history, heard.2, emissions]

theorem note_leaves (s : Session) {x : Happening} (quiet : x.emitted? = none) : s.Leaves id (s.note x) := by
  refine ⟨rfl, rfl, ?_, fun _ => rfl⟩
  rw [emissions, note, List.filterMap_cons_none quiet, emissions]

theorem traversed_leaves (running : s.running = true) (c : Connection) :
    s.Leaves id ((s.note (.traversed c.id)).notify (.traverse c.id)) :=
  (note_leaves s rfl).trans (notify_leaves _ running)

theorem counted_leaves (s : Session) : s.Leaves id s.counted :=
  (⟨rfl, rfl, rfl, fun _ => rfl⟩ : s.Leaves id { s with steps := s.steps + 1 }).trans (note_leaves _ rfl)

theorem completed_leaves (running : s.running = true) (other : String) : s.Leaves id (s.completed other) := by
  have said : s.Leaves id ((s.say ("Completed element " ++ other)).note (.completed other)) :=
    (say_leaves _ running).trans (note_leaves _ rfl)
  exact said.trans (notify_leaves _ (said.running.trans running))

theorem withSlots_leaves {slots : Slots} (same : slots.slot id = s.slots.slot id) :
    s.Leaves id (s.withSlots s.run slots) := by
  refine ⟨rfl, rfl, rfl, fun _ => ?_⟩
  rw [withSlots_slots]
  split
  · exact same
  · rfl

theorem contextOf_leaves (s : Session) (e : Element) : s.Leaves id (s.contextOf e).2 := by
  have opens : s.Leaves id (s.withSlots s.run (s.slots.opened e.id)) := withSlots_leaves (Slots.slot_opened ..)
  unfold contextOf
  cases (copyProps e.props).outcome with
  | mk props lines => cases props <;> exact opens.trans ⟨rfl, rfl, rfl, fun _ => rfl⟩

/-- An emission is one of the element that makes it. -/
theorem record_modifiesOnly (s : Session) (id : String) (e : Emission) : s.ModifiesOnly id (s.record id e) := by
  intro other apart
  have writes : s.Leaves other (s.withSlots s.run (s.slots.write id (.text e.port) e.value)) :=
    withSlots_leaves ((Slots.slot_write ..).trans (if_neg apart))
  refine writes.trans ⟨rfl, rfl, ?_, fun _ => rfl⟩
  have emits : (s.record id e).emissions = (id, e) :: s.emissions := rfl
  rw [emits, List.lookup_cons, beq_false_of_ne apart]
  rfl

end Session

/-- Block logic writes to the slot of its own element only. -/
theorem Process.resume_modifiesOnly {p : Process} {s : Session} (known : p.Known s) (running : s.running = true) :
    s.ModifiesOnly p.context.elementId (p.resume s).2.2 := fun _ other =>
  .of_deeds (p.resume_deeds known) running (p.resume_confined running) fun _ => other

theorem Process.interrupt_modifiesOnly {p : Process} {s : Session} (known : p.Known s)
    (running : s.running = true) : s.ModifiesOnly p.context.elementId (p.interrupt s).2.2 := fun _ other =>
  .of_deeds (p.interrupt_deeds known) running (p.interrupt_confined running) fun _ => other

/-! ### Visits -/

namespace Traversal

variable {s : Session} {id : String}

/-- The visit of an element starts it, or comes to nothing but that it is counted. -/
theorem begin_cases (s : Session) (id : String) :
    (begin s id).2 = s.counted ∧ (∀ frame, (begin s id).1 ≠ .ok (some frame)) ∨
      ∃ e logic, begin s id = start s.counted e logic := by
  unfold begin
  simp only
  split
  · exact .inl ⟨rfl, fun _ same => by cases same⟩
  · split
    · exact .inl ⟨rfl, fun _ same => by cases same⟩
    · split
      · exact .inl ⟨rfl, fun _ same => by cases same⟩
      · split
        · exact .inl ⟨rfl, fun _ same => by cases same⟩
        · split
          · exact .inl ⟨rfl, fun _ same => by cases same⟩
          · exact .inr ⟨_, _, rfl⟩

theorem start_leaves (running : s.running = true) (e : Element) (logic : Logic) :
    s.Leaves id (start s e logic).2 := by
  have listed : s.Leaves id { s with processed := s.processed ++ [e.id] } := ⟨rfl, rfl, rfl, fun _ => rfl⟩
  have said := listed.trans (Session.say_leaves ("Executing element " ++ e.id ++ " (" ++ e.type ++ ")") running)
  have noted := said.trans (Session.note_leaves _ (x := .started e.id) rfl)
  have told := noted.trans (Session.notify_leaves (.start e.id) (noted.running.trans running))
  have made := told.trans (Session.contextOf_leaves _ e)
  unfold start
  simp only
  split <;> rename_i same <;> rw [same] at made <;> exact made

/-- A visit emits nothing, and writes to no slot. -/
theorem visit_leaves (t : Traversal) (running : s.running = true) (target : String) :
    s.Leaves id (t.visit s target).2 := by
  have begins : s.Leaves id (begin s target).2 := by
    have counted : s.Leaves id s.counted := s.counted_leaves
    rcases begin_cases s target with ⟨same, _⟩ | ⟨e, logic, same⟩
    · exact same ▸ counted
    · exact same ▸ counted.trans (start_leaves (counted.running.trans running) e logic)
  unfold visit
  split <;> rename_i same <;> rw [same] at begins <;> exact begins

end Traversal

/-! ### What connections hand on -/

/-- Whether a connection carries what its source emitted last, and that stands in its source's slot. -/
def Session.Offers (s : Session) (c : Connection) : Prop :=
  c ∈ s.graph.connections ∧ ∃ e, s.emissions.lookup c.source = some e ∧ c.carries e.port = true ∧
    (c.source ≠ Slots.globalId → Entries.Holds (s.slots.slot c.source) e.port e.value)

/-- Whether a source draws on the logic of no element but one. -/
def Source.Owned (source : Source) (id : String) : Prop :=
  ∀ p, source.process? = some p → p.context.elementId = id

/-- Whether an element under way draws on its own logic, and what it has still to fire is offered. -/
structure Frame.Fit (s : Session) (f : Frame) : Prop where
  owned : f.source.Owned f.element.id
  pending : ∀ c ∈ f.pending, c.source = f.element.id ∧ s.Offers c

/-- Whether the elements around one that is under way are others, and fit. -/
def Frame.Inside (s : Session) (f : Frame) (outer : List Frame) : Prop :=
  ∀ other ∈ outer, other.element.id ≠ f.element.id ∧ other.Fit s

/-- Whether all elements under way fit. -/
def Traversal.Fit (s : Session) (t : Traversal) : Prop := ∀ frame ∈ t.stack, frame.Fit s

/-- Whether the elements under way fit for as long as a traversal goes on, and it waits for logic of the
innermost only. -/
def Stage.Fit (s : Session) : Stage → Prop
  | .walking t | .delaying t _ => t.Fit s
  | .awaiting t a _ => t.Fit s ∧ t.underway.head? = some a.process.context.elementId
  | _ => True

section Fit

variable {s s' : Session} {frame : Frame} {outer : List Frame} {entries : List String} {p : Process}

theorem Session.Offers.leaves {c : Connection} (h : s.Offers c) (l : s.Leaves c.source s') : s'.Offers c := by
  obtain ⟨member, e, last, carries, holds⟩ := h
  exact ⟨l.graph.symm ▸ member, e, l.emission.trans last, carries, fun own => l.slot own ▸ holds own⟩

/-- What an emission fires is offered. -/
theorem Session.record_offers (stored : 0 < s.stores.size) (id : String) (e : Emission) :
    ∀ c ∈ s.fired id e, c.source = id ∧ (s.record id e).Offers c := by
  intro c fires
  obtain ⟨outgoing, carries⟩ := List.mem_filter.mp fires
  obtain ⟨member, source⟩ := List.mem_filter.mp outgoing
  have source : c.source = id := beq_iff_eq.mp source
  refine ⟨source, member, e, ?_, carries, fun _ => ?_⟩
  · rw [source]
    exact List.lookup_cons_self
  · have slots : (s.record id e).slots = s.slots.write id (.text e.port) e.value := by
      have last : s.run + 1 = s.stores.size := Nat.sub_add_cancel stored
      exact (s.withSlots_slots s.run _).trans (if_pos last)
    rw [slots, Slots.slot_write, if_pos source]
    exact Entries.write_holds _ _ _

theorem Frame.Fit.leaves (h : frame.Fit s) (l : s.Leaves frame.element.id s') : frame.Fit s' := by
  refine ⟨h.owned, fun c here => ?_⟩
  obtain ⟨source, offers⟩ := h.pending c here
  exact ⟨source, offers.leaves (source.symm ▸ l)⟩

theorem Traversal.Fit.leaves {t : Traversal} (h : t.Fit s) (l : ∀ id, s.Leaves id s') : t.Fit s' :=
  fun frame member => (h frame member).leaves (l _)

namespace Frame.Inside

theorem modifiesOnly (h : frame.Inside s outer) (m : s.ModifiesOnly frame.element.id s') : frame.Inside s' outer :=
  fun other member => ⟨(h other member).1, (h other member).2.leaves (m _ (h other member).1)⟩

theorem fit (h : frame.Inside s outer) {frame' : Frame} (here : frame'.Fit s) :
    Traversal.Fit s ⟨entries, frame' :: outer⟩ := by
  intro other member
  rcases List.mem_cons.mp member with rfl | outside
  · exact here
  · exact (h other outside).2

theorem drop (h : frame.Inside s outer) : Traversal.Fit s ⟨entries, outer⟩ := fun other member =>
  (h other member).2

end Frame.Inside

/-- An element with nothing left to fire fits when it draws on its own logic. -/
theorem Frame.Fit.of_owned (owned : frame.source.Owned frame.element.id) (rest : frame.pending = []) :
    frame.Fit s := by
  refine ⟨owned, fun c here => ?_⟩
  rw [rest] at here
  cases here

theorem Source.Owned.of_process {source : Source} {id : String} (drawn : source.process? = some p)
    (own : p.context.elementId = id) : source.Owned id := by
  intro q same
  cases drawn.symm.trans same
  exact own

theorem Source.Owned.of_none {source : Source} (drawn : source.process? = none) (id : String) : source.Owned id := by
  intro q same
  cases drawn.symm.trans same

namespace Traversal

/-- An element that is started draws on its own logic, and has nothing to fire. -/
theorem begin_fit {id : String} (made : begin s id = (.ok (some frame), s')) : frame.Fit s' := by
  rcases begin_cases s id with ⟨_, none⟩ | ⟨e, logic, same⟩
  · exact absurd (congrArg Prod.fst made) (none frame)
  · rw [same] at made
    unfold start at made
    simp only at made
    split at made
    · cases made
    · rename_i c s₁ context
      cases made
      exact .of_owned (.of_process (Source.ofLogic_process c logic) (Session.contextOf_context context).2) rfl

theorem Fit.visit {t : Traversal} (h : t.Fit s) (running : s.running = true) (target : String) :
    (Stage.settle (t.visit s target)).1.Fit (Stage.settle (t.visit s target)).2 := by
  have left : t.Fit (t.visit s target).2 := h.leaves fun _ => t.visit_leaves running target
  unfold Traversal.visit at left ⊢
  split <;> rename_i begun <;> rw [begun] at left
  · exact trivial
  · exact left
  · intro other member
    rcases List.mem_cons.mp member with rfl | old
    · exact begin_fit begun
    · exact left other old

theorem accept_fit (inside : frame.Inside s outer) (owned : frame.source.Owned frame.element.id)
    (stored : 0 < s.stores.size) (item : Value) :
    (Stage.settle (accept ⟨entries, frame :: outer⟩ s item)).1.Fit
      (Stage.settle (accept ⟨entries, frame :: outer⟩ s item)).2 := by
  unfold accept
  simp only
  cases Emission.ofItem item with
  | error f => exact trivial
  | ok e =>
      have recorded := inside.modifiesOnly (s.record_modifiesOnly frame.element.id e)
      exact recorded.fit ⟨owned, Session.record_offers stored _ e⟩

theorem complete_fit {t : Traversal} (h : t.Fit s) (running : s.running = true) (id : String) :
    (Stage.settle (complete t s id)).1.Fit (Stage.settle (complete t s id)).2 := by
  unfold complete
  split
  · exact h.leaves fun _ => s.completed_leaves running id
  · exact h

theorem endWith_fit (inside : frame.Inside s outer) (running : s.running = true) (e : Ending) :
    (Stage.settle (endWith ⟨entries, frame :: outer⟩ s e)).1.Fit
      (Stage.settle (endWith ⟨entries, frame :: outer⟩ s e)).2 := by
  have outside : Traversal.Fit s ⟨entries, outer⟩ := inside.drop
  have ceased := complete_fit outside running frame.element.id
  unfold endWith
  simp only
  cases e with
  | fault f => exact trivial
  | normal => exact ceased
  | closed => exact ceased
  | interrupted => exact ceased

theorem answer_fit {source : Source} (inside : frame.Inside s outer) (rest : frame.pending = [])
    (owned : source.Owned frame.element.id) (stored : 0 < s.stores.size) (running : s.running = true) (pause : Pause) :
    (Stage.settle (answer ⟨entries, frame :: outer⟩ s pause source)).1.Fit
      (Stage.settle (answer ⟨entries, frame :: outer⟩ s pause source)).2 := by
  have there : Frame.Inside s { frame with source } outer := inside
  unfold answer
  cases pause with
  | item v => exact accept_fit there owned stored v
  | sleep length insists => exact there.fit (.of_owned owned rest)
  | ended e => exact endWith_fit there running e

theorem gather_fit (inside : frame.Inside s outer) (rest : frame.pending = []) (known : p.Known s)
    (own : p.context.elementId = frame.element.id) (running : s.running = true) (collected : List Value) :
    (Stage.settle (gather ⟨entries, frame :: outer⟩ s frame p collected)).1.Fit
      (Stage.settle (gather ⟨entries, frame :: outer⟩ s frame p collected)).2 := by
  have resumed := inside.modifiesOnly (own ▸ p.resume_modifiesOnly known running)
  have context := (congrArg Context.elementId (p.resume_context s)).trans own
  unfold gather
  split <;> rename_i same <;> rw [same] at resumed context
  · exact resumed.fit (.of_owned (.of_process rfl context) rest)
  · exact trivial
  · exact resumed.fit (.of_owned (.of_none rfl _) rest)
  · exact resumed.fit (.of_owned (.of_process rfl context) rest)

theorem advance_fit (inside : frame.Inside s outer) (fit : frame.Fit s) (rest : frame.pending = [])
    (known : frame.source.Known s) (stored : 0 < s.stores.size) (running : s.running = true) :
    (Stage.settle (advance ⟨entries, frame :: outer⟩ s frame)).1.Fit
      (Stage.settle (advance ⟨entries, frame :: outer⟩ s frame)).2 := by
  unfold advance
  cases drawn : frame.source with
  | gathering p collected =>
      have here : frame.source.process? = some p := by rw [drawn]; rfl
      exact gather_fit inside rest (known p here) (fit.owned p here) running collected
  | items values =>
      cases values with
      | nil => exact endWith_fit inside running .normal
      | cons v values =>
          have there : Frame.Inside s { frame with source := .items values } outer := inside
          exact accept_fit there (.of_none rfl _) stored v
  | sequence p =>
      have here : frame.source.process? = some p := by rw [drawn]; rfl
      have own := fit.owned p here
      have resumed := inside.modifiesOnly (own ▸ p.resume_modifiesOnly (known p here) running)
      have context := (congrArg Context.elementId (p.resume_context s)).trans own
      have retains := (p.resume_deeds (known p here)).retains
      have still := (p.resume_confined running).running.trans running
      simp only
      split <;> rename_i same <;> rw [same] at resumed context retains still
      · exact resumed.fit (.of_owned (.of_process rfl context) rest)
      · exact answer_fit resumed rest (.of_process rfl context) (Nat.lt_of_lt_of_le stored retains.size) still _
  | stream p =>
      have here : frame.source.process? = some p := by rw [drawn]; rfl
      exact ⟨inside.fit (.of_owned (.of_none rfl _) rest), congrArg some (fit.owned p here).symm⟩
  | deferred p =>
      have here : frame.source.process? = some p := by rw [drawn]; rfl
      exact ⟨inside.fit (.of_owned (.of_none rfl _) rest), congrArg some (fit.owned p here).symm⟩
  | busy => exact endWith_fit inside running .normal

theorem Fit.inside (h : Traversal.Fit s ⟨entries, frame :: outer⟩)
    (distinct : Traversal.underway ⟨entries, frame :: outer⟩ |>.Nodup) : frame.Inside s outer := by
  intro other member
  refine ⟨fun same => ?_, h other (List.mem_cons_of_mem _ member)⟩
  exact (List.nodup_cons.mp distinct).1 (List.mem_map.mpr ⟨other, member, same⟩)

/-- A step leaves the elements under way fit. -/
theorem step_fit {t : Traversal} (h : t.Fit s) (distinct : t.underway.Nodup) (known : t.Known s)
    (stored : 0 < s.stores.size) (running : s.running = true) :
    (Stage.settle (t.step s)).1.Fit (Stage.settle (t.step s)).2 := by
  obtain ⟨entries, stack⟩ := t
  unfold step
  cases stack with
  | nil =>
      simp only
      split
      · exact trivial
      · rename_i id rest
        split
        · have bare : Traversal.Fit (s.note (.entered id)) ⟨rest, []⟩ := fun _ member =>
            (List.not_mem_nil member).elim
          exact bare.visit running id
        · exact trivial
  | cons frame outer =>
      have inside := h.inside distinct
      have here := h frame List.mem_cons_self
      simp only
      split
      · rename_i rest
        exact advance_fit inside here rest (known frame List.mem_cons_self) stored running
      · rename_i c rest pending
        split
        · have told : ∀ id, s.Leaves id ((s.note (.traversed c.id)).notify (.traverse c.id)) := fun _ =>
            Session.traversed_leaves running c
          have fewer : Frame.Fit s { frame with pending := rest } :=
            ⟨here.owned, fun c' member => here.pending c' (pending ▸ List.mem_cons_of_mem _ member)⟩
          exact Fit.visit (Fit.leaves (inside.fit fewer) told) ((told c.target).running.trans running) _
        · exact inside.fit (.of_owned here.owned rfl)

end Traversal

namespace Stage

variable {t : Traversal} {a a' : Attempt} {given? given'? : Option Bool} {st st' : Stage}

/-- Logic that is waited for goes on. -/
theorem Fit.worked (h : (awaiting t a given?).Fit s) (sound : (awaiting t a given?).Sound s)
    (distinct : t.underway.Nodup) (m : s.ModifiesOnly a.process.context.elementId s')
    (same : a'.process.context = a.process.context) : (awaiting t a' given'?).Fit s' := by
  obtain ⟨_, _, frame, outer, stack, rest⟩ := sound
  obtain ⟨entries, frames⟩ := t
  cases stack
  obtain ⟨fit, own⟩ := h
  have own : frame.element.id = a.process.context.elementId := Option.some.inj own
  have inside := (fit.inside distinct).modifiesOnly (own.symm ▸ m)
  refine ⟨inside.fit (.of_owned (fit frame List.mem_cons_self).owned rest), ?_⟩
  rw [same, ← own]
  rfl

theorem took_fit (h : (awaiting t a given?).Fit s) (sound : (awaiting t a given?).Sound s)
    (distinct : t.underway.Nodup) (stored : 0 < s.stores.size) (running : s.running = true) (outOfTime : Bool)
    (y : Yield) : (took t a outOfTime y s).1.Fit (took t a outOfTime y s).2 := by
  obtain ⟨_, _, frame, outer, stack, rest⟩ := sound
  obtain ⟨entries, frames⟩ := t
  cases stack
  obtain ⟨fit, own⟩ := h
  have owned : (World.sourceOf a).Owned frame.element.id := by
    have own : frame.element.id = a.process.context.elementId := Option.some.inj own
    unfold World.sourceOf
    split
    · exact .of_none rfl _
    · exact .of_process rfl own.symm
  have inside : Frame.Inside s { frame with source := World.sourceOf a } outer := fit.inside distinct
  unfold took
  simp only
  split
  · exact inside.fit (.of_owned owned rest)
  · split <;> exact trivial
  · exact Traversal.answer_fit inside rest owned stored running _

/-- The next stage fits when the stage before it does. -/
theorem next_fit (h : st.Fit s) (next : st.next s = some (st', s')) (sound : st.Sound s)
    (distinct : ∀ ids, st.underway? = some ids → ids.Nodup) (stored : 0 < s.stores.size) (running : s.running = true) :
    st'.Fit s' := by
  have shut : ∀ t e r, (closed t e r).1.Fit (closed t e r).2 := by
    rintro t e ⟨pause, p, s⟩
    unfold closed
    split <;> exact trivial
  have came : ∀ r : Stage × Session, r.1.Fit r.2 → some r = some (st', s') → st'.Fit s' := by
    rintro r fit same
    cases same
    exact fit
  cases st with
  | opening =>
      simp only [Stage.next] at next
      split at next <;> cases next
      · exact fun _ member => (List.not_mem_nil member).elim
      · exact trivial
  | walking t =>
      exact came _ (Traversal.step_fit h (distinct _ rfl) sound.1 stored running) next
  | awaiting t a given? =>
      have distinct := distinct _ rfl
      simp only [Stage.next] at next
      split at next
      · exact came _ (took_fit h sound distinct stored running _ _) next
      · cases next
        refine h.worked sound distinct (a.process.resume_modifiesOnly sound.2.1 running) ?_
        rw [Attempt.paused_process, Process.resume_context]
  | delaying t id =>
      cases next
      exact Traversal.Fit.leaves h fun _ => s.completed_leaves running id
  | unwinding t e =>
      simp only [Stage.next] at next
      split at next
      · cases next
        exact trivial
      · split at next
        · exact came _ (shut _ _ _) next
        · exact came _ (shut _ _ _) next
        · cases next
          exact trivial
  | closing t p insists? e => exact came _ (shut _ _ _) next
  | «over» e => cases next

theorem cut_fit (h : st.Fit s) (cut : Cut st s st' s') (sound : st.Sound s)
    (distinct : ∀ ids, st.underway? = some ids → ids.Nodup) (running : s.running = true) : st'.Fit s' := by
  cases cut with
  | giveUp => exact h
  | drop => exact h
  | insist => exact h
  | interrupt t a given? =>
      refine h.worked sound (distinct _ rfl) (a.process.interrupt_modifiesOnly sound.2.1 running) ?_
      rw [Attempt.paused_process, Process.interrupt_context]
  | interruptClosing t p e =>
      unfold closed
      split <;> exact trivial
  | _ => exact trivial

end Stage

end Fit

end BlockGraph
