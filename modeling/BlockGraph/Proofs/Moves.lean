import BlockGraph.Proofs.Kept
import BlockGraph.Run.Traversal
/-!
The moves of a traversal: what a visit, an item, the end of an element, and one step can come to, told
by what they change of the run. Later statements are about these cases and never open the functions.
-/
namespace BlockGraph

namespace Session

/-- A session that has counted a visit. -/
def counted (s : Session) : Session := { s with steps := s.steps + 1 }.note (.attempted s.active)

/-- A session in which an element has just started, with an empty slot. -/
def starting (s : Session) (id : String) : Session :=
  let s := ({ s.counted with processed := s.counted.processed ++ [id] }.note (.started id)).hears (.start id)
  s.withSlots s.run (s.slots.opened id)

/-- A session in which a connection has just been traversed. -/
def traversing (s : Session) (c : Connection) : Session :=
  (s.note (.traversed c.id)).hears (.traverse c.id)

/-- A session in which an element is just over. -/
def completing (s : Session) (id : String) : Session := (s.note (.completed id)).hears (.complete id)

/-- Whether a visit of an element starts it. -/
structure Starts (s : Session) (id : String) : Prop where
  active : s.active = true
  budget : ((s.steps + 1 : Nat) : Int) ≤ s.options.maxSteps
  fresh : id ∉ s.processed
  element : ∃ e ∈ s.graph.elements, e.id = id

end Session

namespace Kept

variable {s s' : Session}

theorem note (h : Kept s s') (x : Happening) : Kept (s.note x) (s'.note x) :=
  { h with history := congrArg (x :: ·) h.history }

theorem hears (h : Kept s s') (e : Event) : Kept (s.hears e) (s'.hears e) := by
  by_cases listens : s.options.heard.contains e.kind = true
  · have listens' : s'.options.heard.contains e.kind = true := by rw [h.options]; exact listens
    have same : s'.heard.toList.filter (·.2.ofVisit) = s.heard.toList.filter (·.2.ofVisit) := h.heard
    rw [Session.hears, Session.hears, if_pos listens, if_pos listens']
    refine { h with heard := ?_ }
    simp only [Session.heardVisits, Array.toList_push, List.filter_append, same, h.listener]
  · have listens' : ¬s'.options.heard.contains e.kind = true := by rw [h.options]; exact listens
    rw [Session.hears, Session.hears, if_neg listens, if_neg listens']
    exact h

theorem open_slot (h : Kept s s') (id : String) :
    Kept (s.withSlots s.run (s.slots.opened id)) (s'.withSlots s'.run (s'.slots.opened id)) := by
  have ids : ∀ (s : Session) other, other ∈ (s.withSlots s.run (s.slots.opened id)).slots.ids →
      other ∈ s.slots.ids ∨ s.run + 1 = s.stores.size ∧ other = id := by
    intro s other here
    rw [Session.withSlots_slots] at here
    split at here
    · rename_i last
      exact (Slots.mem_ids_opened.mp here).imp_right fun same => ⟨last, same⟩
    · exact .inl here
  have run : s'.run = s.run := by rw [Session.run, Session.run, h.size]
  refine { h with size := ?_, slots := ?_, owned := ?_ }
  · simp only [Session.withSlots_size, h.size]
  · intro other here
    rw [Session.withSlots_slots, run, h.size]
    rcases ids s other here with old | ⟨last, rfl⟩
    · split
      · exact Slots.mem_ids_opened.mpr (.inl (h.slots old))
      · exact h.slots old
    · rw [if_pos last]
      exact Slots.mem_ids_opened.mpr (.inr rfl)
  · intro other here
    rcases ids s' other here with old | ⟨last, rfl⟩
    · rcases h.owned other old with here | rest
      · left
        rw [Session.withSlots_slots]
        split
        · exact Slots.mem_ids_opened.mpr (.inl here)
        · exact here
      · exact .inr rest
    · left
      rw [run, h.size] at last
      rw [Session.withSlots_slots, if_pos last]
      exact Slots.mem_ids_opened.mpr (.inr rfl)

end Kept

/-! ### What logic is known -/

namespace Source

/-- The logic that a source draws on. -/
def process? : Source → Option Process
  | .gathering p _ | .sequence p | .stream p | .deferred p => some p
  | .items _ | .busy => none

def Known (source : Source) (s : Session) : Prop := ∀ p, source.process? = some p → p.Known s

/-- A source that draws on no logic is known to every session. -/
theorem Known.of_none {source : Source} (h : source.process? = none) (s : Session) : source.Known s := by
  intro p drawn
  rw [h] at drawn
  cases drawn

theorem ofLogic_process (c : Context) (logic : Logic) :
    (ofLogic c logic).process? = some ⟨c, .fresh logic⟩ := by
  unfold ofLogic
  cases logic.form <;> rfl

end Source

namespace Session

/-- Whether a session has all stores that another one has, and knows all logic that it knows. -/
structure Retains (s s' : Session) : Prop where
  size : s.stores.size ≤ s'.stores.size
  knows : ∀ {run id}, s.Knows run id → s'.Knows run id

theorem Retains.trans {s₁ s₂ s₃ : Session} (h : s₁.Retains s₂) (h' : s₂.Retains s₃) :
    s₁.Retains s₃ := ⟨Nat.le_trans h.size h'.size, fun known => h'.knows (h.knows known)⟩

end Session

theorem Kept.retains {s s' : Session} (h : Kept s s') : s.Retains s' :=
  ⟨Nat.le_of_eq h.size.symm, fun known =>
    ⟨h.size ▸ known.1, fun last => h.processed ▸ known.2 (h.size ▸ last)⟩⟩

/-- No logic of an earlier run is taken for logic of a later one. -/
theorem Session.Retains.of_lt {s s' : Session} (size : s.stores.size < s'.stores.size) :
    s.Retains s' :=
  ⟨Nat.le_of_lt size, fun known =>
    ⟨Nat.lt_trans known.1 size, fun last => absurd known.1 (by omega)⟩⟩

theorem Deeds.retains {s s' : Session} (h : Deeds s s') : s.Retains s' := by
  rcases h.kept with kept | gone
  · exact kept.retains
  · exact .of_lt gone.size

namespace Session

variable {s : Session}

@[simp] theorem hears_size (e : Event) : (s.hears e).stores.size = s.stores.size := by
  unfold hears; split <;> rfl

@[simp] theorem hears_processed (e : Event) : (s.hears e).processed = s.processed := by
  unfold hears; split <;> rfl

theorem traversing_size (c : Connection) : (s.traversing c).stores.size = s.stores.size := hears_size _

theorem traversing_steps (c : Connection) : (s.traversing c).steps = s.steps := by
  unfold traversing hears
  split <;> rfl

theorem traversing_options (c : Connection) : (s.traversing c).options = s.options := by
  unfold traversing hears
  split <;> rfl

theorem starting_size (id : String) : (s.starting id).stores.size = s.stores.size := by
  simp only [starting, withSlots_size, hears_size, note, counted]

theorem starting_processed (id : String) : (s.starting id).processed = s.processed ++ [id] := by
  simp only [starting, withSlots_processed, hears_processed, note, counted]

theorem starting_history (id : String) :
    (s.starting id).history = .started id :: .attempted s.active :: s.history := by
  unfold starting hears
  split <;> rfl

theorem starting_steps (id : String) : (s.starting id).steps = s.steps + 1 := by
  unfold starting hears
  split <;> rfl

theorem starting_options (id : String) : (s.starting id).options = s.options := by
  unfold starting hears
  split <;> rfl

theorem starting_graph (id : String) : (s.starting id).graph = s.graph := by
  unfold starting hears
  split <;> rfl

theorem starting_slots (stored : 0 < s.stores.size) (id : String) :
    (s.starting id).slots = s.slots.opened id := by
  let s₁ := ({ s.counted with processed := s.counted.processed ++ [id] }.note (.started id)).hears
    (.start id)
  have stores : s₁.stores = s.stores := by
    show (hears _ _).stores = _
    unfold hears
    split <;> rfl
  have slots : s₁.slots = s.slots := by
    rw [Session.slots, Session.slots, slotsOf, slotsOf, Session.run, Session.run, stores]
  have last : s₁.run + 1 = s₁.stores.size := by
    rw [Session.run, stores]
    omega
  show (s₁.withSlots s₁.run (s₁.slots.opened id)).slots = _
  rw [withSlots_slots, if_pos last, slots]

theorem starting_retains (id : String) : s.Retains (s.starting id) := by
  have size : (s.starting id).stores.size = s.stores.size := starting_size id
  refine ⟨Nat.le_of_eq size.symm, fun known => ⟨size ▸ known.1, fun last => ?_⟩⟩
  rw [starting_processed]
  exact List.mem_append_left _ (known.2 (size ▸ last))

end Session

/-! ### Visits -/

namespace Traversal

/-- What the visit of an element comes to. -/
inductive Visited (t : Traversal) (s : Session) (id : String) : Move → Session → Prop
  | skipped : s.active = false ∨ id ∈ s.processed ∨ s.graph.element? id = none →
      (s.active = true → ((s.steps + 1 : Nat) : Int) ≤ s.options.maxSteps) →
      Visited t s id (.go t) s.counted
  | overBudget : s.active = true → s.options.maxSteps < ((s.steps + 1 : Nat) : Int) →
      Visited t s id (.fail (.budget ((s.steps + 1 : Nat) : Int) s.options.maxSteps) t) s.counted
  | unknown (type : String) : s.active = true → ((s.steps + 1 : Nat) : Int) ≤ s.options.maxSteps →
      Visited t s id (.fail (.typeGone id type) t) s.counted
  | failed (f : Fault) {s' : Session} : s.Starts id → Kept (s.starting id) s' →
      Visited t s id (.fail (.value f) t) s'
  | started (frame : Frame) {s' : Session} : s.Starts id → Kept (s.starting id) s' →
      frame.element.id = id → frame.pending = [] → frame.source.Known s' →
      Visited t s id (.go { t with stack := frame :: t.stack }) s'

end Traversal

namespace Graph

theorem element?_some {g : Graph} {id : String} {e : Element} (h : g.element? id = some e) :
    e ∈ g.elements ∧ e.id = id :=
  ⟨List.mem_of_find?_eq_some h, by simpa using List.find?_some h⟩

end Graph

namespace Session

variable {s : Session}

theorem contextOf_kept (e : Element) :
    Kept (s.withSlots s.run (s.slots.opened e.id)) (s.contextOf e).2 := by
  unfold contextOf
  cases (copyProps e.props).outcome with
  | mk props lines =>
      cases props with
      | error f => exact { Kept.refl _ with }
      | ok props => exact { Kept.refl _ with }

theorem contextOf_context {e : Element} {c : Context} {s' : Session}
    (h : s.contextOf e = (.ok c, s')) : c.run = s.run ∧ c.elementId = e.id := by
  unfold contextOf at h
  cases outcome : (copyProps e.props).outcome with
  | mk props lines =>
      simp only [outcome] at h
      cases props with
      | error f => cases h
      | ok props =>
          cases h
          exact ⟨s.withSlots_run _ _, rfl⟩

/-- The log line, the event and the slot of an element that starts come to no more than its start. -/
theorem starting_kept (line : String) (running : s.running = true) (id : String) :
    let visited := { s.counted with processed := s.counted.processed ++ [id] }
    let told := ((visited.say line).note (.started id)).notify (.start id)
    Kept (s.starting id) (told.withSlots told.run (told.slots.opened id)) := by
  intro visited told
  have said : Kept visited (visited.say line) := (visited.say_deeds line).kept_of_running running
  have heard := (said.note (.started id)).hears (.start id)
  have rest : Kept (((visited.say line).note (.started id)).hears (.start id)) told := by
    refine (notify_deeds _ _).kept_of_running ?_
    rw [heard.running]
    unfold hears
    split <;> exact running
  exact (heard.trans rest).open_slot id

end Session

namespace Traversal

section Begin

variable {s : Session} {id : String}

theorem begin_inactive (off : s.active = false) : begin s id = (.ok none, s.counted) :=
  if_pos (by show (!s.active) = true; rw [off]; rfl)

theorem begin_overBudget (on : s.active = true)
    (beyond : s.options.maxSteps < ((s.steps + 1 : Nat) : Int)) :
    begin s id = (.error (.budget ((s.steps + 1 : Nat) : Int) s.options.maxSteps), s.counted) :=
  (if_neg (by show ¬(!s.active) = true; rw [on]; exact Bool.false_ne_true)).trans (if_pos beyond)

theorem begin_seen (on : s.active = true) (within : ((s.steps + 1 : Nat) : Int) ≤ s.options.maxSteps)
    (seen : id ∈ s.processed) : begin s id = (.ok none, s.counted) :=
  ((if_neg (by show ¬(!s.active) = true; rw [on]; exact Bool.false_ne_true)).trans
    (if_neg (Int.not_lt.mpr within))).trans (if_pos (List.contains_iff_mem.mpr seen))

theorem begin_fresh (on : s.active = true) (within : ((s.steps + 1 : Nat) : Int) ≤ s.options.maxSteps)
    (fresh : id ∉ s.processed) :
    begin s id = match s.graph.element? id with
      | none => (.ok none, s.counted)
      | some e => match s.registry.find? e.type with
        | none => (.error (.typeGone id e.type), s.counted)
        | some d => start s.counted e d.logic :=
  ((if_neg (by show ¬(!s.active) = true; rw [on]; exact Bool.false_ne_true)).trans
    (if_neg (Int.not_lt.mpr within))).trans (if_neg (mt List.contains_iff_mem.mp fresh))

end Begin

/-- Starting an element comes to a frame whose logic is known, or to a fault of its properties. -/
theorem start_kept {s : Session} (stored : 0 < s.stores.size) (running : s.running = true) (e : Element)
    (logic : Logic) :
    Kept (s.starting e.id) (start s.counted e logic).2 ∧
      match (start s.counted e logic).1 with
      | .error f => ∃ cause, f = .value cause
      | .ok none => False
      | .ok (some frame) => frame.element = e ∧ frame.pending = [] ∧
        frame.source.Known (start s.counted e logic).2 := by
  have told := Session.starting_kept ("Executing element " ++ e.id ++ " (" ++ e.type ++ ")")
    running e.id
  unfold start
  simp only at told ⊢
  generalize (({ s.counted with processed := s.counted.processed ++ [e.id] }.say
    ("Executing element " ++ e.id ++ " (" ++ e.type ++ ")")).note (.started e.id)).notify (.start e.id) =
    s₁ at told ⊢
  have opened := told.trans (Session.contextOf_kept e)
  cases made : s₁.contextOf e with
  | mk r s₂ =>
      rw [made] at opened
      cases r with
      | error f => exact ⟨opened, f, rfl⟩
      | ok c =>
          refine ⟨opened, rfl, rfl, fun p drawn => ?_⟩
          rw [Source.ofLogic_process] at drawn
          cases drawn
          obtain ⟨run, id⟩ := Session.contextOf_context made
          have size₁ : s₁.stores.size = s.stores.size := by
            rw [← Session.withSlots_size, told.size, Session.starting_size]
          have size₂ : s₂.stores.size = s.stores.size := by rw [opened.size, Session.starting_size]
          show s₂.Knows c.run c.elementId
          rw [run, id]
          refine ⟨by rw [Session.run, size₁, size₂]; omega, fun _ => ?_⟩
          rw [opened.processed, Session.starting_processed]
          exact List.mem_append_right _ (List.mem_singleton.mpr rfl)

theorem visit_visited (t : Traversal) {s : Session} (stored : 0 < s.stores.size) (id : String) :
    Visited t s id (visit t s id).1 (visit t s id).2 := by
  unfold visit
  cases on : s.active with
  | false =>
      rw [begin_inactive on]
      refine .skipped (.inl on) fun active => ?_
      rw [on] at active
      cases active
  | true =>
      have running : s.running = true := by
        simp only [Session.active, Bool.and_eq_true] at on
        exact on.1
      by_cases beyond : s.options.maxSteps < ((s.steps + 1 : Nat) : Int)
      · rw [begin_overBudget on beyond]
        exact .overBudget on beyond
      have within := Int.not_lt.mp beyond
      by_cases seen : id ∈ s.processed
      · rw [begin_seen on within seen]
        exact .skipped (.inr (.inl seen)) fun _ => within
      rw [begin_fresh on within seen]
      cases found : s.graph.element? id with
      | none => exact .skipped (.inr (.inr found)) fun _ => within
      | some e =>
          obtain ⟨member, rfl⟩ := Graph.element?_some found
          have starts : s.Starts e.id := ⟨on, within, seen, e, member, rfl⟩
          cases type : s.registry.find? e.type with
          | none =>
              simp only [type]
              exact .unknown e.type on within
          | some d =>
              have kept := start_kept stored running e d.logic
              simp only [type]
              cases begun : start s.counted e d.logic with
              | mk r s' =>
                  rw [begun] at kept
                  cases r with
                  | error f =>
                      obtain ⟨kept, cause, same⟩ := kept
                      rw [same]
                      exact .failed cause starts kept
                  | ok frame? =>
                      cases frame? with
                      | none => exact kept.2.elim
                      | some frame =>
                          obtain ⟨kept, same, pending, known⟩ := kept
                          exact .started frame starts kept (congrArg Element.id same) pending known

/-! ### Steps -/

/-- Whether all logic on the stack is known. -/
def Known (t : Traversal) (s : Session) : Prop := ∀ frame ∈ t.stack, frame.source.Known s

/-- What a step, or an answer of logic that was waited for, comes to. -/
inductive Moved (t : Traversal) (s : Session) : Move → Session → Prop
  | finished : t.stack = [] → t.entries = [] ∨ s.active = false → Moved t s .finished s
  | entered (id : String) (rest : List String) {m : Move} {s' : Session} :
      t.stack = [] → t.entries = id :: rest → s.active = true →
      Visited { t with entries := rest } (s.note (.entered id)) id m s' → Moved t s m s'
  | traversed (frame : Frame) (outer : List Frame) (c : Connection) (rest : List Connection)
      {s₁ s' : Session} {m : Move} :
      t.stack = frame :: outer → frame.pending = c :: rest → s.active = true →
      Kept (s.traversing c) s₁ →
      Visited { t with stack := { frame with pending := rest } :: outer } s₁ c.target m s' →
      Moved t s m s'
  | cleared (frame : Frame) (outer : List Frame) : t.stack = frame :: outer → s.active = false →
      Moved t s (.go { t with stack := { frame with pending := [] } :: outer }) s
  | waited (frame : Frame) (outer : List Frame) (p : Process) :
      t.stack = frame :: outer → frame.pending = [] → frame.source.process? = some p →
      Moved t s (.wait p { t with stack := { frame with source := .busy } :: outer }) s
  | went (frame : Frame) (outer : List Frame) (source : Source) {s' : Session} :
      t.stack = frame :: outer → frame.pending = [] → Deeds s s' → source.Known s' →
      Moved t s (.go { t with stack := { frame with source } :: outer }) s'
  | recorded (frame : Frame) (outer : List Frame) (source : Source) (e : Emission) {s' : Session} :
      t.stack = frame :: outer → frame.pending = [] → Deeds s s' → source.Known s' →
      Moved t s
        (.go { t with
          stack := { frame with source, pending := s'.fired frame.element.id e } :: outer })
        (s'.record frame.element.id e)
  | ended (frame : Frame) (outer : List Frame) {s₁ s' : Session} :
      t.stack = frame :: outer → frame.pending = [] → Deeds s s₁ →
      Deeds (s₁.completing frame.element.id) s' → Moved t s (.go { t with stack := outer }) s'
  | delayed (frame : Frame) (outer : List Frame) {s' : Session} :
      t.stack = frame :: outer → frame.pending = [] → Deeds s s' → s'.active = true →
      Moved t s (.delay frame.element.id { t with stack := outer }) s'
  | failed (f : RunFault) (t' : Traversal) {s' : Session} :
      Deeds s s' → (∀ steps limit, f ≠ .budget steps limit) →
      (∀ frame ∈ t'.stack, frame ∈ t.stack ∨ frame.source.Known s') → Moved t s (.fail f t') s'

/-- A failure of block logic, which is logged. -/
theorem failed_moved {t t' : Traversal} {s s₁ s' : Session} {f : RunFault} (before : Deeds s s₁)
    (logged : Deeds s₁ s') (block : ∀ steps limit, f ≠ .budget steps limit)
    (known : ∀ frame ∈ t'.stack, frame ∈ t.stack ∨ frame.source.Known s₁) :
    Moved t s (.fail f t') s' :=
  .failed f t' (before.trans logged) block fun frame member =>
    (known frame member).imp_right fun known p drawn => (known p drawn).deeds logged

theorem blockFailed_deeds (s : Session) (e : Element) (cause : Fault) :
    Deeds s (s.blockFailed e cause).2 := s.say_deeds _

theorem blockTimedOut_deeds (s : Session) (e : Element) : Deeds s (s.blockTimedOut e).2 :=
  s.say_deeds _

section Resting

variable {t : Traversal} {s s₁ : Session} {frame : Frame} {outer : List Frame}

theorem withSource_stack (h : t.stack = frame :: outer) (source : Source) :
    t.withSource source = { t with stack := { frame with source } :: outer } := by
  unfold withSource
  rw [h]

theorem withSource_known {source : Source} (h : t.stack = frame :: outer)
    (known : source.Known s₁) : ∀ other ∈ (t.withSource source).stack,
      other ∈ t.stack ∨ other.source.Known s₁ := by
  rw [withSource_stack h, h]
  intro other member
  rcases List.mem_cons.mp member with rfl | rest
  · exact .inr known
  · exact .inl (List.mem_cons_of_mem _ rest)

theorem accept_moved {source : Source} (h : t.stack = frame :: outer) (rest : frame.pending = [])
    (before : Deeds s s₁) (known : source.Known s₁) (item : Value) :
    Moved t s (accept (t.withSource source) s₁ item).1 (accept (t.withSource source) s₁ item).2 := by
  have kept := withSource_known h known
  rw [withSource_stack h] at kept ⊢
  unfold accept
  simp only
  cases Emission.ofItem item with
  | error f => exact failed_moved before (blockFailed_deeds _ _ _) (fun _ _ => nofun) kept
  | ok e => exact .recorded frame outer source e h rest before known

theorem complete_moved (h : t.stack = frame :: outer) (rest : frame.pending = [])
    (before : Deeds s s₁) :
    Moved t s (complete { t with stack := outer } s₁ frame.element.id).1
      (complete { t with stack := outer } s₁ frame.element.id).2 := by
  unfold complete
  split
  · exact .ended frame outer h rest (before.trans (s₁.say_deeds _)) (Session.notify_deeds _ _)
  · rename_i waits
    have waits : s₁.options.stepDelay.isZero = false ∧ s₁.active = true := by simpa using waits
    exact .delayed frame outer h rest before waits.2

theorem endWith_moved {source : Source} (h : t.stack = frame :: outer) (rest : frame.pending = [])
    (before : Deeds s s₁) (known : source.Known s₁) (e : Ending) :
    Moved t s (endWith (t.withSource source) s₁ e).1 (endWith (t.withSource source) s₁ e).2 := by
  have kept := withSource_known h known
  have ceased := complete_moved h rest before
  rw [withSource_stack h] at kept ⊢
  unfold endWith
  cases e with
  | fault f =>
      simp only
      split
      · exact failed_moved before (blockTimedOut_deeds _ _) (fun _ _ => nofun) kept
      · exact failed_moved before (blockFailed_deeds _ _ _) (fun _ _ => nofun) kept
  | normal => exact ceased
  | closed => exact ceased
  | interrupted => exact ceased

theorem answer_moved {source : Source} (h : t.stack = frame :: outer) (rest : frame.pending = [])
    (before : Deeds s s₁) (known : source.Known s₁) (pause : Pause) :
    Moved t s (answer t s₁ pause source).1 (answer t s₁ pause source).2 := by
  unfold answer
  cases pause with
  | item v => exact accept_moved h rest before known v
  | sleep length insists =>
      simp only [withSource_stack h]
      exact .went frame outer source h rest before known
  | ended e => exact endWith_moved h rest before known e

theorem gather_moved (h : t.stack = frame :: outer) (rest : frame.pending = []) {p : Process}
    (known : p.Known s) (collected : List Value) :
    Moved t s (gather t s frame p collected).1 (gather t s frame p collected).2 := by
  have resumed := p.resume_deeds known
  have context := p.resume_context s
  unfold gather
  simp only [withSource_stack h, h, List.drop_succ_cons, List.drop_zero]
  split <;> rename_i same <;> rw [same] at resumed context
  · refine .went frame outer _ h rest resumed fun q drawn => ?_
    cases drawn
    exact known.of_context context |>.deeds resumed
  · refine failed_moved resumed (blockFailed_deeds _ _ _) (fun _ _ => nofun) fun other member => ?_
    exact .inl (h ▸ List.mem_cons_of_mem _ member)
  · exact .went frame outer _ h rest resumed nofun
  · refine .went frame outer _ h rest resumed fun q drawn => ?_
    cases drawn
    exact known.of_context context |>.deeds resumed

theorem advance_moved (h : t.stack = frame :: outer) (rest : frame.pending = [])
    (known : frame.source.Known s) :
    Moved t s (advance t s frame).1 (advance t s frame).2 := by
  -- Without a change of its source, the innermost element is the one that the source is put back into.
  have same : t = t.withSource frame.source := by rw [withSource_stack h, ← h]
  unfold advance
  cases drawn : frame.source with
  | gathering p collected =>
      exact gather_moved h rest (known p (by rw [drawn]; rfl)) collected
  | items values =>
      rw [drawn] at same known
      cases values with
      | nil =>
          simp only
          rw [same]
          exact same ▸ endWith_moved h rest .refl known .normal
      | cons v values =>
          have quiet : (Source.items values).Known s := .of_none rfl s
          exact accept_moved h rest .refl quiet v
  | sequence p =>
      have known : p.Known s := known p (by rw [drawn]; rfl)
      have resumed := p.resume_deeds known
      have context := p.resume_context s
      simp only
      split <;> rename_i result <;> rw [result] at resumed context
      · rw [withSource_stack h]
        refine .went frame outer _ h rest resumed fun q drawn => ?_
        cases drawn
        exact known.of_context context |>.deeds resumed
      · refine answer_moved h rest resumed (fun q drawn => ?_) _
        cases drawn
        exact known.of_context context |>.deeds resumed
  | stream p =>
      simp only [withSource_stack h]
      exact .waited frame outer p h rest (by rw [drawn]; rfl)
  | deferred p =>
      simp only [withSource_stack h]
      exact .waited frame outer p h rest (by rw [drawn]; rfl)
  | busy =>
      rw [drawn] at same known
      simp only
      rw [same]
      exact same ▸ endWith_moved h rest .refl known .normal

end Resting

/-- What one step comes to. -/
theorem step_moved {t : Traversal} {s : Session} (stored : 0 < s.stores.size) (known : t.Known s) :
    Moved t s (t.step s).1 (t.step s).2 := by
  obtain ⟨entries, stack⟩ := t
  unfold step
  cases stack with
  | nil =>
      cases entries with
      | nil => exact .finished rfl (.inl rfl)
      | cons id rest =>
          cases on : s.active with
          | false =>
              simp only
              exact .finished rfl (.inr on)
          | true =>
              have stored : 0 < (s.note (.entered id)).stores.size := stored
              simp only [if_true]
              exact .entered id rest rfl rfl on (visit_visited _ stored id)
  | cons frame outer =>
      simp only
      cases pending : frame.pending with
      | nil => exact advance_moved rfl pending (known frame List.mem_cons_self)
      | cons c rest =>
          cases on : s.active with
          | false =>
              simp only [Bool.false_eq_true, if_false]
              exact .cleared frame outer rfl on
          | true =>
              have running : (s.traversing c).running = true := by
                simp only [Session.active, Bool.and_eq_true] at on
                unfold Session.traversing Session.hears
                split <;> exact on.1
              have kept := (Session.notify_deeds (s.note (.traversed c.id))
                (.traverse c.id)).kept_of_running running
              simp only [if_true]
              refine .traversed frame outer c rest rfl pending on kept (visit_visited _ ?_ _)
              rw [kept.size, Session.hears_size]
              exact stored

end Traversal

end BlockGraph
