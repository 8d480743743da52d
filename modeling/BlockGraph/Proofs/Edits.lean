import BlockGraph.Proofs.HabitTurns
import BlockGraph.Proofs.Stores
/-!
Edits: who writes what into the slots of a run. An element stores under a key of its own, any logic sets
run-wide variables, and a traversal records what the innermost element emits. Nothing else that a step of a
world does changes what a slot holds.
-/
namespace BlockGraph

/-- A change of what a slot holds. -/
inductive Edit where
  | stored (run : Nat) (element : String) (key value : Value)
  | shared (run : Nat) (name value : Value)
  | recorded (run : Nat) (element : String) (e : Emission)

namespace Edit

/-- The run whose slots it changes. -/
def run : Edit → Nat
  | stored run .. | shared run .. | recorded run .. => run

/-- The slot that it changes. -/
def slot : Edit → String
  | stored _ element .. | recorded _ element _ => element
  | shared .. => Slots.globalId

/-- The entry that it writes. -/
def entry : Edit → Value × Value
  | stored _ _ key value => (key, value)
  | shared _ name value => (name, value)
  | recorded _ _ e => (.text e.port, e.value)

/-- Whether it sets a run-wide variable. -/
def isShared : Edit → Bool
  | shared .. => true
  | _ => false

/-- What edits make of the entries of a slot. -/
def replay (edits : List Edit) (run : Nat) (id : String) (entries : Entries) : Entries :=
  edits.foldl (fun entries e =>
    if e.run = run ∧ e.slot = id then Entries.write entries e.entry.1 e.entry.2 else entries) entries

theorem replay_append (edits more : List Edit) (run : Nat) (id : String) (entries : Entries) :
    replay (edits ++ more) run id entries = replay more run id (replay edits run id entries) :=
  List.foldl_append

/-- Edits of other slots may be left out. -/
theorem replay_filter (keeps : Edit → Bool) {edits : List Edit} {run : Nat} {id : String}
    (kept : ∀ e ∈ edits, e.slot = id → keeps e = true) (entries : Entries) :
    replay (edits.filter keeps) run id entries = replay edits run id entries := by
  induction edits generalizing entries with
  | nil => rfl
  | cons e rest ih =>
      have ih := ih fun other member => kept other (List.mem_cons_of_mem _ member)
      rw [List.filter_cons]
      split
      · exact ih _
      · rename_i dropped
        have apart : ¬(e.run = run ∧ e.slot = id) := fun both => dropped (kept e List.mem_cons_self both.2)
        rw [ih, replay, replay, List.foldl_cons, if_neg apart]

end Edit

/-- The call by which a step asks for something to be written, in the context of its logic. -/
def Step.edit? (c : Context) : Step → Option Edit
  | .store key value => some (.stored c.run c.elementId key value)
  | .storeInput key name => (c.input name .null).toOption.map (.stored c.run c.elementId key)
  | .storeGlobal name value => some (.shared c.run name value)
  | _ => none

theorem Step.edit?_slot {c : Context} {step : Step} {e : Edit} (asks : step.edit? c = some e) :
    e.slot = c.elementId ∨ e.isShared = true := by
  cases step with
  | store key value =>
      cases asks
      exact .inl rfl
  | storeInput key name =>
      obtain ⟨value, _, rfl⟩ := Option.map_eq_some_iff.mp asks
      exact .inl rfl
  | storeGlobal name value =>
      cases asks
      exact .inr rfl
  | _ => cases asks

/-- Whether logic under way still has a call among its steps. -/
def Process.Calls (p : Process) (s : Session) (e : Edit) : Prop :=
  ∃ step ∈ p.ahead s, step.edit? p.context = some e

namespace World

variable {α : Type}

/-- Whether an edit is for a task to make: its logic, or that of the innermost element of its traversal, has
the call among its steps, or that element may emit. -/
inductive Makes (w : World α) (task : Nat) : Edit → Prop
  | attempt {a : Attempt} {e : Edit} : w.work? task = some (.attempt a) → a.process.Calls w.session e →
      Makes w task e
  | logic {k : Walk} {frame : Frame} {p : Process} {e : Edit} : w.work? task = some (.walk k) → k.Live →
      frame ∈ k.traversal.stack.head? → p ∈ frame.source.process? → p.Calls w.session e → Makes w task e
  | closing {k : Walk} {p : Process} {insists? : Option Span} {how : WalkEnd} {e : Edit} :
      w.work? task = some (.walk k) → k.mode = .closing p insists? how → p.Calls w.session e → Makes w task e
  | recorded {k : Walk} {frame : Frame} (run : Nat) (e : Emission) : w.work? task = some (.walk k) → k.Live →
      frame ∈ k.traversal.stack.head? → Makes w task (.recorded run frame.element.id e)

end World

/-! ### Sessions that come of edits -/

namespace Session

variable {s s' : Session}

theorem slotsOf_withSlots (s : Session) (run : Nat) (slots : Slots) (other : Nat) :
    (s.withSlots run slots).slotsOf other =
      if run = other ∧ run < s.stores.size then slots else s.slotsOf other := by
  simp only [slotsOf, withSlots, Array.getD_eq_getD_getElem?, Array.getElem?_setIfInBounds]
  by_cases same : run = other
  · subst same
    by_cases inside : run < s.stores.size
    · simp only [if_true, inside, and_self, Option.getD_some]
    · simp only [if_true, inside, and_false, if_false, Array.getElem?_eq_none (Nat.not_lt.mp inside)]
  · simp only [same, false_and, if_false]

/-- The slots of earlier runs stay with their logic when a session is reset. -/
theorem slotsOf_cleared (s : Session) (run : Nat) : s.cleared.slotsOf run = s.slotsOf run := by
  simp only [slotsOf, cleared, Array.getD_eq_getD_getElem?, Array.getElem?_push]
  split
  · rename_i last
    rw [last, Array.getElem?_eq_none (Nat.le_refl _)]
    rfl
  · rfl

/-- Whether the slots of a session come of those of another by edits that pass a test. -/
def Edited (A : Edit → Prop) (s s' : Session) : Prop :=
  ∃ edits, (∀ e ∈ edits, A e) ∧
    ∀ run id, (s'.slotsOf run).slot id = Edit.replay edits run id ((s.slotsOf run).slot id)

namespace Edited

variable {A : Edit → Prop}

theorem of_slots (same : ∀ run id, (s'.slotsOf run).slot id = (s.slotsOf run).slot id) : Edited A s s' :=
  ⟨[], nofun, same⟩

theorem of_stores (same : s'.stores = s.stores) : Edited A s s' :=
  of_slots fun run id => by rw [slotsOf, same]; rfl

theorem refl (s : Session) : Edited A s s := of_stores rfl

theorem trans {s₁ s₂ s₃ : Session} (h : Edited A s₁ s₂) (h' : Edited A s₂ s₃) : Edited A s₁ s₃ := by
  obtain ⟨edits, made, comes⟩ := h
  obtain ⟨more, made', comes'⟩ := h'
  refine ⟨edits ++ more, fun e member => ?_, fun run id => ?_⟩
  · exact (List.mem_append.mp member).elim (made e) (made' e)
  · rw [comes', comes, Edit.replay_append]

theorem cleared (s : Session) : Edited A s s.cleared := of_slots fun run id => by rw [slotsOf_cleared]

/-- Writing an entry is an edit, unless there is no such run. -/
theorem write {e : Edit} (allowed : A e) (s : Session) : Edited A s
    (s.withSlots e.run ((s.slotsOf e.run).write e.slot e.entry.1 e.entry.2)) := by
  by_cases inside : e.run < s.stores.size
  · refine ⟨[e], fun other member => List.mem_singleton.mp member ▸ allowed, fun run id => ?_⟩
    rw [slotsOf_withSlots]
    by_cases here : e.run = run
    · subst here
      simp only [inside, and_self, if_true, Slots.slot_write, Edit.replay, List.foldl_cons, List.foldl_nil,
        true_and, eq_comm]
    · simp only [here, false_and, if_false, Edit.replay, List.foldl_cons, List.foldl_nil]
  · refine of_slots fun run id => ?_
    rw [slotsOf_withSlots, if_neg fun both => inside both.2]

/-- Opening a slot is no edit. -/
theorem opened (s : Session) (run : Nat) (id : String) :
    Edited A s (s.withSlots run ((s.slotsOf run).opened id)) := by
  refine of_slots fun other id => ?_
  rw [slotsOf_withSlots]
  split
  · rename_i here
    rw [← here.1, Slots.slot_opened]
  · rfl

theorem habit (A : Edit → Prop) : Habit (Edited A) where
  refl := refl
  trans := trans
  reported _ _ := of_stores rfl
  stopped _ _ _ := of_stores rfl
  told _ _ _ := of_stores rfl
  reset s _ := cleared s
  logged _ _ _ := of_stores rfl
  heard _ _ _ _ := of_stores rfl
  noted _ _ := of_stores rfl
  altered _ _ _ := of_stores rfl

/-- Slots change by nothing but edits. -/
theorem lifelong (A : Edit → Prop) : Lifelong (Edited A) where
  toHabit := habit A
  counted _ _ := of_stores rfl
  joined _ _ _ := of_stores rfl
  opened s id := opened s s.run id
  refused _ _ _ := of_stores rfl
  spoiled s _ _ _ := (cleared s).trans (of_stores rfl)
  taken s options listener bindings _ := by
    let free := { s.cleared with
      options, listener, bindings, running := true, status := .running, started := true }
    have begun : Edited A s free := (cleared s).trans (of_stores rfl)
    exact (begun.trans (of_stores rfl)).trans ((habit A).toReacts.say (of_stores rfl))
  marked _ _ _ _ _ _ := of_stores rfl
  closed _ := of_stores rfl

/-- Logic makes the edits that it calls for. -/
theorem stores {p : Process} (calls : ∀ e, p.Calls s e → A e) : p.Stores (Edited A) s := by
  intro step ahead writes s'
  have allowed : ∀ e, step.edit? p.context = some e → A e := fun e same => calls e ⟨step, ahead, same⟩
  have puts : ∀ key value, A (.stored p.context.run p.context.elementId key value) →
      Edited A s' (Step.withSlots p.context s' ((s'.slotsOf p.context.run).store p.context.elementId key value)).2 := by
    intro key value made
    unfold Slots.store
    cases key.name? with
    | none => exact refl s'
    | some _ => exact write made s'
  cases step with
  | store key value => exact puts key value (allowed _ rfl)
  | storeInput key name =>
      rw [Step.take]
      cases input : p.context.input name .null with
      | error f => exact refl s'
      | ok value => exact puts key value (allowed _ (by simp only [Step.edit?, input]; rfl))
  | storeGlobal name value =>
      have made := allowed _ rfl
      simp only [Step.take, Slots.storeGlobal]
      unfold Value.asKey
      cases name.unhashableKind? with
      | some kind => exact opened s' p.context.run Slots.globalId
      | none => exact write made s'
  | _ => cases writes

/-- A traversal makes the edits of the innermost element. -/
theorem writes {t : Traversal} (records : ∀ frame ∈ t.stack.head?, ∀ run e, A (.recorded run frame.element.id e))
    (calls : ∀ frame ∈ t.stack.head?, ∀ p ∈ frame.source.process?, ∀ e, p.Calls s e → A e) :
    t.Writes (Edited A) s where
  records frame here s e := trans (write (records frame here s.run e) s) (of_stores rfl)
  stores frame here p drawn := stores (calls frame here p drawn)

end Edited

end Session

/-! ### Steps -/

namespace World

variable {α : Type} {w w' : World α}

/-- A task in its turn makes no edits but those that are for it to make. -/
theorem work_writes {task : Nat} {x : Work α} (here : w.work? task = some x) :
    x.Writes (Session.Edited (w.Makes task)) w.session := by
  cases x with
  | attempt a => exact Session.Edited.stores fun e calls => .attempt here calls
  | walk k =>
      intro live
      exact ⟨Session.Edited.writes (fun frame inner run e => .recorded run e here live inner)
        fun frame inner p drawn e calls => .logic here live inner drawn calls,
        fun p insists? how closing => Session.Edited.stores fun e calls => .closing here closing calls⟩
  | _ => exact trivial

end World

/-- Whether a command leaves alone what the slots of all runs hold. -/
def Command.LeavesSlots {α : Type} : Command α → Prop
  | .act f => ∀ s run, (f s).2.slotsOf run = s.slotsOf run
  | _ => True

theorem Command.LeavesSlots.respects {α : Type} {x : Command α} (h : x.LeavesSlots) (A : Edit → Prop) :
    x.Respects (Session.Edited A) := by
  cases x with
  | act f => exact fun s => .of_slots fun run id => congrArg (·.slot id) (h s run)
  | _ => exact trivial

namespace World

variable {α : Type} {w w' : World α}

/-- In a step, the slots of all runs change by edits that are for one task to make. -/
theorem step_edits (calls : w.Calls Command.LeavesSlots) (step : w.step = some w') :
    ∃ task, Session.Edited (w.Makes task) w.session w'.session := by
  rcases step_cases step with quiet | ⟨w₁, task, quiet, tasks, rfl⟩
  · exact ⟨0, .of_stores (congrArg Session.stores quiet.session)⟩
  · cases found : w₁.tasks[task]? with
    | none =>
        unfold World.turn
        simp only [found]
        exact ⟨0, .of_stores (congrArg Session.stores quiet.session)⟩
    | some t =>
        have turning := quiet.trans (w₁.atTurn_quiet task)
        have here : w.work? task = some t.work := by
          rw [work?, ← tasks, found]
          rfl
        rw [turn_eq found]
        have writes : t.work.Writes (Session.Edited (w.Makes task)) (w₁.atTurn task).session :=
          turning.session ▸ work_writes here
        have acts : ∀ k, t.work = .caller k → ∀ y ∈ k.commands, y.Respects (Session.Edited (w.Makes task)) :=
          fun k same y member => (calls task k (same ▸ here) y member).respects _
        exact ⟨task, turning.session ▸ (Session.Edited.lifelong _).works ((turning.work task).trans here)
          writes acts (t.cancelled || t.standing == .interrupted)⟩

end World

end BlockGraph
