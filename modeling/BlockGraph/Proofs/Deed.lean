import BlockGraph.Run.Process
import Mathlib.Logic.Relation
/-!
Deeds: the small changes that log lines, listeners, callers and block logic make to a session. None of
them visits an element, so whatever survives each deed survives all that goes on beside a traversal.
-/
namespace BlockGraph

namespace Session

/-- Whether logic that writes to a store for an element belongs to an earlier run, or to an element that
this one has started. -/
def Knows (s : Session) (run : Nat) (id : String) : Prop :=
  run < s.stores.size ∧ (run + 1 = s.stores.size → id ∈ s.processed)

end Session

/-- One small change. -/
inductive Deed (s : Session) : Session → Prop
  | log (line : String) : Deed s { s with log := s.log.push line }
  | tell (listener : Nat) (e : Event) : e.kind = .log ∨ e.kind = .error →
      Deed s { s with heard := s.heard.push (listener, e) }
  | report (lines : Array JournalEntry) : Deed s { s with journal := lines }
  | stop : Deed s { s with stopRequested := true }
  | reset : s.running = false → Deed s s.cleared
  | registry (r : Registry) : Deed s { s with registry := r }
  | draw (d : Draws) : Deed s { s with draws := d }
  | store (run : Nat) (id : String) (key value : Value) : s.Knows run id →
      Deed s (s.withSlots run ((s.slotsOf run).write id key value))
  | storeGlobal (run : Nat) (name value : Value) :
      Deed s (s.withSlots run ((s.slotsOf run).write Slots.globalId name value))
  | openGlobal (run : Nat) : Deed s (s.withSlots run ((s.slotsOf run).opened Slots.globalId))

abbrev Deeds : Session → Session → Prop := Relation.ReflTransGen Deed

namespace Deeds

/-- What every deed keeps, any number of deeds keeps. -/
theorem induct {P : Session → Prop} (step : ∀ {s s'}, Deed s s' → P s → P s') {s s' : Session}
    (h : Deeds s s') (hs : P s) : P s' := by
  induction h with
  | refl => exact hs
  | tail _ d ih => exact step d ih

end Deeds

namespace Session

@[simp] theorem withSlots_size (s : Session) (run : Nat) (slots : Slots) :
    (s.withSlots run slots).stores.size = s.stores.size := Array.size_setIfInBounds

@[simp] theorem withSlots_run (s : Session) (run : Nat) (slots : Slots) :
    (s.withSlots run slots).run = s.run := by
  simp only [Session.run, withSlots_size]

@[simp] theorem withSlots_processed (s : Session) (run : Nat) (slots : Slots) :
    (s.withSlots run slots).processed = s.processed := rfl

/-! ### Telling -/

/-- The reactions of a listener, given what a stop comes to. -/
theorem react_deeds {stop : Session → Session} (stops : ∀ s, Deeds s (stop s)) (e : Event)
    (reactions : List Reaction) (s : Session) : Deeds s (react stop e s reactions) := by
  induction reactions generalizing s with
  | nil => rw [react]
  | cons r rest ih =>
      cases r with
      | stop => rw [react]; exact (stops s).trans (ih _)
      | reset =>
          rw [react]
          cases h : s.reset? with
          | none => exact .single (.report _)
          | some s' =>
              simp only [reset?] at h
              split at h
              · cases h
              · rename_i idle
                cases h
                exact (Relation.ReflTransGen.single (.reset (by simpa using idle))).trans (ih _)
      | «raise» f => rw [react]; exact .single (.report _)

/-- Whether a way to tell a listener of lines and errors comes to deeds. -/
def Discreet (tell : Telling) : Prop :=
  ∀ s options listener e, e.kind = .log ∨ e.kind = .error → Deeds s (tell s options listener e)

theorem Discreet.logBy {tell : Telling} (h : Discreet tell) (s : Session) (line : String) :
    Deeds s (logBy tell s line) :=
  (Relation.ReflTransGen.single (.log line)).trans (h _ _ _ _ (.inl rfl))

theorem Discreet.stopBy {tell : Telling} (h : Discreet tell) (s : Session) :
    Deeds s (stopBy tell s) := by
  unfold Session.stopBy
  split
  · exact (Relation.ReflTransGen.single .stop).trans (h.logBy _ _)
  · exact .refl

theorem tell_discreet (depth : Nat) : Discreet (tell depth) := by
  induction depth with
  | zero =>
      intro s options listener e _
      rw [tell]
  | succ depth ih =>
      intro s options listener e quiet
      rw [tell]
      split
      · exact (Relation.ReflTransGen.single (.tell _ _ quiet)).trans (react_deeds ih.stopBy _ _ _)
      · exact .refl

theorem say_deeds (s : Session) (line : String) : Deeds s (s.say line) := (tell_discreet 2).logBy s line

/-- What is found out about a graph before it is run. -/
def findings (g : Graph) : List String :=
  (if g.cycles.isEmpty then [] else
    ("Warning: Found " ++ g.cycles.length.repr ++ " cycles in the execution graph") ::
      g.cycles.zipIdx.map fun (cycle, i) => "Cycle " ++ (i + 1).repr ++ ": " ++ " -> ".intercalate cycle) ++
  if g.orphans.isEmpty then [] else
    ["Found " ++ g.orphans.length.repr ++ " unconnected element(s): " ++ ", ".intercalate g.orphans]

theorem diagnose_eq (s : Session) : s.diagnose = (findings s.graph).foldl say s := by
  unfold diagnose findings
  simp only
  generalize s.graph.cycles = cycles
  generalize s.graph.orphans = orphans
  cases cycles <;> cases orphans <;> simp [List.foldl_map]

/-- What a session keeps when it says what was found out, it keeps when it is diagnosed. -/
theorem diagnose_induct {P : Session → Prop} {s : Session}
    (said : ∀ t, ∀ line ∈ findings s.graph, P t → P (t.say line)) (h : P s) : P s.diagnose := by
  rw [diagnose_eq]
  generalize findings s.graph = lines at said
  induction lines generalizing s with
  | nil => exact h
  | cons line rest ih =>
      have first := said s line List.mem_cons_self h
      exact ih first fun t line member => said t line (List.mem_cons_of_mem _ member)

theorem diagnose_deeds (s : Session) : Deeds s s.diagnose :=
  diagnose_induct (fun s line _ before => before.trans (s.say_deeds line)) .refl

theorem stop_deeds (s : Session) : Deeds s s.stop := (tell_discreet 2).stopBy s

theorem report_deeds (s : Session) (severity : Severity) (source message : String) :
    Deeds s (s.report severity source message) := .single (.report _)

/-- A session in which a listener has heard an event, if it listens to such events. -/
def hears (s : Session) (e : Event) : Session :=
  if s.options.heard.contains e.kind then
    { s with heard := s.heard.push (s.listener.number, e) }
  else s

/-- An event is heard first; what the listener does then are deeds. -/
theorem notify_deeds (s : Session) (e : Event) : Deeds (s.hears e) (s.notify e) := by
  rw [notify, tell, hears]
  split
  · exact react_deeds (tell_discreet 1).stopBy _ _ _
  · exact .refl

end Session

/-! ### Knowing -/

/-- Deeds forget nobody: an element that this run has started stays one, unless the run becomes an
earlier one. -/
theorem Deed.knows {s s' : Session} (h : Deed s s') {run : Nat} {id : String}
    (known : s.Knows run id) : s'.Knows run id := by
  cases h with
  | reset _ =>
      simp only [Session.Knows, Session.cleared, Array.size_push]
      exact ⟨Nat.lt_succ_of_lt known.1, fun same => absurd known.1 (by omega)⟩
  | store _ _ _ _ _ | storeGlobal _ _ _ | openGlobal _ =>
      simpa only [Session.Knows, Session.withSlots_size, Session.withSlots_processed] using known
  | _ => exact known

theorem Deeds.knows {s s' : Session} (h : Deeds s s') {run : Nat} {id : String}
    (known : s.Knows run id) : s'.Knows run id :=
  Deeds.induct (P := fun s => s.Knows run id) (fun d => d.knows) h known

/-! ### Block logic -/

namespace Step

variable {c : Context} {s : Session}

theorem sayThen_deeds {next : Session → Taken × Session} (line : Except Fault String)
    (then_ : ∀ s, s.Knows c.run c.elementId → Deeds s (next s).2) (known : s.Knows c.run c.elementId) :
    Deeds s (sayThen c s line next).2 := by
  cases line with
  | error f => exact .refl
  | ok line =>
      have said := s.say_deeds ("[" ++ c.elementId ++ "] " ++ line)
      exact said.trans (then_ _ (said.knows known))

theorem turnsOver_deeds (done : Nat) (known : s.Knows c.run c.elementId) :
    Deeds s (turnsOver c s done).2 := sayThen_deeds _ (fun _ _ => .refl) known

theorem turned_deeds (done : Nat) (limit : Number) (condition : Value)
    (known : s.Knows c.run c.elementId) : Deeds s (turned c s done limit condition).2 := by
  unfold turned
  split
  · exact sayThen_deeds _ (fun _ known => turnsOver_deeds done known) known
  · split
    · exact sayThen_deeds _ (fun _ _ => .refl) known
    · exact turnsOver_deeds done known

theorem store_deeds (key value : Value) (known : s.Knows c.run c.elementId) :
    Deeds s (withSlots c s ((s.slotsOf c.run).store c.elementId key value)).2 := by
  unfold Slots.store
  cases key.name? with
  | none => exact .refl
  | some _ => exact .single (.store _ _ _ _ known)

theorem storeGlobal_deeds (name value : Value) :
    Deeds s (s.withSlots c.run ((s.slotsOf c.run).storeGlobal name value).2) := by
  unfold Slots.storeGlobal
  cases name.asKey with
  | error f => exact .single (.openGlobal _)
  | ok name => exact .single (.storeGlobal _ _ _)

/-- What a step changes is made of deeds. -/
theorem take_deeds (step : Step) (known : s.Knows c.run c.elementId) : Deeds s (step.take c s).2 := by
  cases step with
  | store key value => exact store_deeds key value known
  | storeInput key name =>
      rw [take]
      cases c.input name .null with
      | error f => exact .refl
      | ok value => exact store_deeds key value known
  | storeGlobal name value => exact storeGlobal_deeds name value
  | log message =>
      rw [take]
      cases c.line message with
      | error f => exact .refl
      | ok line => exact s.say_deeds line
  | stop => exact s.stop_deeds
  | unregister type =>
      cases type with
      | text type => exact .single (.registry _)
      | _ => exact .refl
  | announce message => exact s.report_deeds _ _ _
  | useDraw => exact .single (.draw _)
  | count next limit =>
      rw [take, counted]
      split
      · exact sayThen_deeds _ (fun _ _ => .refl) known
      · exact .refl
  | turns done limit condition => exact turned_deeds done limit condition known
  | _ => exact .refl

end Step

namespace Cursor

variable {c : Context} {s : Session}

theorem advance_deeds (steps : List Step) (known : s.Knows c.run c.elementId) :
    Deeds s (advance c steps s).2.2 := by
  induction steps generalizing s with
  | nil => exact .refl
  | cons step rest ih =>
      have taken := step.take_deeds known
      rw [advance]
      split <;> rename_i same <;> rw [same] at taken
      · exact taken.trans (ih (taken.knows known))
      all_goals exact taken

theorem close_deeds (steps : List Step) (pending : Ending) (known : s.Knows c.run c.elementId) :
    Deeds s (close c steps pending s).2.2 := by
  have advanced := advance_deeds steps known
  rw [close]
  split <;> rename_i same <;> rwa [same] at advanced

theorem resume_deeds (cursor : Cursor) (known : s.Knows c.run c.elementId) :
    Deeds s (resume c cursor s).2.2 := by
  rw [resume]
  split
  · exact close_deeds _ _ known
  · have advanced := advance_deeds cursor.steps known
    split <;> rename_i same <;> rw [same] at advanced
    · exact advanced.trans (close_deeds _ _ (advanced.knows known))
    · exact advanced

theorem breakOff_deeds (cursor : Cursor) (e : Ending) (known : s.Knows c.run c.elementId) :
    Deeds s (breakOff c cursor e s).2.2 := by
  rw [breakOff]
  split
  · exact .refl
  · exact close_deeds _ _ known

end Cursor

namespace Process

/-- Whether the logic under way is known to a session. -/
def Known (p : Process) (s : Session) : Prop := s.Knows p.context.run p.context.elementId

theorem Known.of_context {p q : Process} {s : Session} (known : p.Known s)
    (same : q.context = p.context) : q.Known s := by
  unfold Known
  rw [same]
  exact known

theorem Known.deeds {p : Process} {s s' : Session} (known : p.Known s) (h : Deeds s s') : p.Known s' :=
  h.knows known

variable {p : Process} {s : Session}

@[simp] theorem resume_context (p : Process) (s : Session) : (p.resume s).2.1.context = p.context := by
  unfold resume; split <;> rfl

@[simp] theorem close_context (p : Process) (s : Session) : (p.close s).2.1.context = p.context := by
  unfold close; split <;> rfl

@[simp] theorem interrupt_context (p : Process) (s : Session) : (p.interrupt s).2.1.context = p.context := by
  unfold interrupt; split <;> rfl

theorem resume_deeds (known : p.Known s) : Deeds s (p.resume s).2.2 := by
  unfold resume
  split
  · exact Cursor.resume_deeds _ known
  · exact Cursor.resume_deeds _ known
  · exact .refl

theorem close_deeds (known : p.Known s) : Deeds s (p.close s).2.2 := by
  unfold close
  split
  · exact Cursor.breakOff_deeds _ _ known
  · exact .refl

theorem interrupt_deeds (known : p.Known s) : Deeds s (p.interrupt s).2.2 := by
  unfold interrupt
  split
  · exact Cursor.breakOff_deeds _ _ known
  · exact .refl

end Process

end BlockGraph
