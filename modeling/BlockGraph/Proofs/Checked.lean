import BlockGraph.Proofs.Gate
import BlockGraph.Proofs.Rounds
import BlockGraph.Report
/-!
Checked programs: what a report finds nothing wrong with, beside what the gate of a run lets through. The
report asks all that the gate asks, and about the keys of properties besides.
-/
namespace BlockGraph

/-- Whether a value may be the key of a property. -/
def Value.NamesProperty (v : Value) : Prop := ∃ key, v = .text key ∧ key.length ≤ 100

/-- Whether all properties of an element stand under keys that may be theirs. -/
def Element.WellKeyed (e : Element) : Prop := ∀ x ∈ e.props, x.1.NamesProperty

/-! ### One element -/

namespace Registry

/-- An entry leaves a report without errors when it had none and the key is a proper one. -/
theorem entryReport_clean (report : PropsReport) (e : Value × Value) :
    (∃ report', entryReport report e = .ok report' ∧ report'.errors = []) ↔
      report.errors = [] ∧ e.1.NamesProperty := by
  obtain ⟨key, v⟩ := e
  have wrong : ∀ message, report.errors ++ [Value.text message] ≠ [] := by simp
  cases key with
  | text key =>
      by_cases long : 100 < key.length
      · have complains : entryReport report (.text key, v) =
            .ok { report with errors := report.errors ++ [.text ("Invalid property key: " ++ key)] } := by
          simp only [entryReport, long, if_true]
          rfl
        rw [complains]
        refine ⟨fun ⟨_, same, clean⟩ => ?_, fun ⟨_, _, same, short⟩ => ?_⟩
        · cases same
          exact absurd clean (wrong _)
        · cases same
          omega
      · have passes : ∃ warnings, entryReport report (.text key, v) = .ok { report with warnings } := by
          simp only [entryReport, long, if_false]
          split
          · split <;> exact ⟨_, rfl⟩
          · split <;> exact ⟨_, rfl⟩
          · split <;> exact ⟨_, rfl⟩
          · exact ⟨_, rfl⟩
        obtain ⟨warnings, passes⟩ := passes
        rw [passes]
        refine ⟨fun ⟨_, same, clean⟩ => ?_, fun ⟨clean, _⟩ => ⟨_, rfl, clean⟩⟩
        cases same
        exact ⟨clean, key, rfl, Nat.not_lt.mp long⟩
  | _ =>
      refine ⟨fun ⟨report', complains, clean⟩ => ?_, fun ⟨_, _, same, _⟩ => by cases same⟩
      unfold entryReport at complains
      simp only [bind, Except.bind] at complains
      split at complains
      · cases complains
      · cases complains
        exact absurd clean (wrong _)

theorem entryReports_clean (props : Entries) (report : PropsReport) :
    (∃ report', props.foldlM entryReport report = .ok report' ∧ report'.errors = []) ↔
      report.errors = [] ∧ ∀ x ∈ props, x.1.NamesProperty := by
  induction props generalizing report with
  | nil => exact ⟨fun ⟨_, same, clean⟩ => by cases same; exact ⟨clean, nofun⟩, fun h => ⟨_, rfl, h.1⟩⟩
  | cons x rest ih =>
      have first := entryReport_clean report x
      have unfolds : (x :: rest).foldlM entryReport report =
          (entryReport report x).bind fun report => rest.foldlM entryReport report := rfl
      rw [unfolds, List.forall_mem_cons]
      constructor
      · rintro ⟨report', folds, clean⟩
        cases step : entryReport report x with
        | error f =>
            rw [step] at folds
            cases folds
        | ok report₁ =>
            rw [step] at folds
            obtain ⟨clean₁, keys⟩ := (ih report₁).mp ⟨report', folds, clean⟩
            obtain ⟨clean, key⟩ := first.mp ⟨report₁, step, clean₁⟩
            exact ⟨clean, key, keys⟩
      · rintro ⟨clean, key, keys⟩
        obtain ⟨report₁, step, clean₁⟩ := first.mpr ⟨clean, key⟩
        rw [step]
        exact (ih report₁).mpr ⟨clean₁, keys⟩

/-- A check of properties finds no error in exactly the elements that are admitted and well keyed. -/
theorem checkProps_clean (r : Registry) (e : Element) :
    (∃ report, r.checkProps (.text e.type) e.props = .ok report ∧ report.errors = []) ↔
      r.Admits e ∧ e.WellKeyed := by
  unfold checkProps Element.WellKeyed Admits
  cases found : r.find? e.type with
  | none =>
      simp only [found]
      refine ⟨fun ⟨report, told, clean⟩ => ?_, fun ⟨⟨_, _, here, _⟩, _⟩ => by cases here⟩
      cases told
      cases clean
  | some d =>
      simp only [found, entryReports_clean]
      refine and_congr_left fun _ => ?_
      cases asked : d.check e.props with
      | error f => simp [asked]
      | ok answer => cases complains : answer.isTrue <;> simp [asked, complains]

end Registry

/-! ### The elements of a graph -/

/-- Nothing is found only where there is nothing to find. -/
theorem mapM_nil_iff {β γ ε : Type} {f : β → Except ε γ} {xs : List β} {ys : List γ}
    (h : xs.mapM f = .ok ys) : ys = [] ↔ xs = [] := by
  cases xs with
  | nil =>
      cases h
      exact ⟨fun _ => rfl, fun _ => rfl⟩
  | cons x rest =>
      rw [List.mapM_cons] at h
      simp only [bind, Except.bind] at h
      split at h
      · cases h
      · split at h
        · cases h
        · cases h
          exact ⟨nofun, nofun⟩

namespace ProgramReport

theorem elementFindings_clean (registry : Registry) (e : Element) :
    (∃ found, elementFindings registry e = .ok found ∧ found.1 = []) ↔
      registry.Admits e ∧ e.WellKeyed := by
  rw [← Registry.checkProps_clean]
  unfold elementFindings
  simp only [bind, Except.bind]
  cases checked : registry.checkProps (.text e.type) e.props with
  | error f => simp
  | ok report =>
      simp only [Except.ok.injEq, exists_eq_left']
      constructor
      · rintro ⟨found, told, clean⟩
        split at told
        · cases told
        · rename_i errors mapped
          cases told
          exact (mapM_nil_iff mapped).mp clean
      · intro clean
        rw [clean]
        exact ⟨_, rfl, rfl⟩

/-- A report on a graph has no errors when no element has any. -/
theorem findings_clean (registry : Registry) (elements : List Element) :
    (∃ findings, elements.mapM (elementFindings registry) = .ok findings ∧
      findings.flatMap (·.1) = []) ↔ ∀ e ∈ elements, registry.Admits e ∧ e.WellKeyed := by
  induction elements with
  | nil => exact ⟨fun _ => nofun, fun _ => ⟨[], rfl, rfl⟩⟩
  | cons e rest ih =>
      rw [List.forall_mem_cons, ← ih, ← elementFindings_clean, List.mapM_cons]
      simp only [bind, Except.bind]
      constructor
      · rintro ⟨findings, mapped, clean⟩
        split at mapped
        · cases mapped
        · rename_i first found
          split at mapped
          · cases mapped
          · rename_i others mapped'
            cases mapped
            rw [List.flatMap_cons, List.append_eq_nil_iff] at clean
            exact ⟨⟨first, found, clean.1⟩, others, mapped', clean.2⟩
      · rintro ⟨⟨first, found, none⟩, others, mapped, clean⟩
        refine ⟨first :: others, ?_, ?_⟩
        · rw [found, mapped]
          rfl
        · rw [List.flatMap_cons, none, clean]
          rfl

/-- A graph about which a report says nothing wrong. -/
theorem ofGraph_clean (g : Graph) (registry : Registry) :
    (∃ report, ofGraph g registry = .ok report ∧ report.errors = []) ↔
      ∀ e ∈ g.elements, registry.Admits e ∧ e.WellKeyed := by
  rw [← findings_clean]
  unfold ofGraph
  simp only [bind, Except.bind]
  cases g.elements.mapM (elementFindings registry) with
  | error f =>
      constructor
      · rintro ⟨_, told, _⟩
        cases told
      · rintro ⟨_, told, _⟩
        cases told
  | ok findings =>
      refine ⟨fun ⟨report, told, clean⟩ => ?_, fun ⟨_, told, clean⟩ => ?_⟩
      · cases told
        exact ⟨findings, rfl, clean⟩
      · cases told
        exact ⟨_, rfl, clean⟩

end ProgramReport

/-- Whether every run of a graph with a registry passes its gate. -/
def Graph.Passes (g : Graph) (registry : Registry) : Prop :=
  ∀ s : Session, s.graph = g → s.registry = registry → ∃ entries, s.opening.1 = .ok entries

theorem Graph.passes_iff (g : Graph) (registry : Registry) :
    g.Passes registry ↔ ∀ e ∈ g.elements, registry.Admits e := by
  constructor
  · intro passes
    exact (Session.ofGraph g registry []).opening_gate.1.mp (passes _ rfl rfl)
  · rintro admits s rfl rfl
    exact s.opening_gate.1.mpr admits

namespace ProgramReport

/-- The report on what a graph could be built of, or could not. -/
def ofBuilt (built : Except GraphFault Graph) (registry : Registry) : Except Fault ProgramReport :=
  match built with
  | .error (.value f) => .error f
  | .error f => .ok (ofFault f)
  | .ok g => ofGraph g registry

theorem ofBuilt_clean (built : Except GraphFault Graph) (registry : Registry) :
    (∃ report, ofBuilt built registry = .ok report ∧ report.errors = []) ↔
      ∃ g, built = .ok g ∧ g.Passes registry ∧ ∀ e ∈ g.elements, e.WellKeyed := by
  cases built with
  | error f =>
      refine ⟨fun ⟨report, told, clean⟩ => ?_, fun ⟨_, same, _⟩ => by cases same⟩
      cases f <;> cases told <;> cases clean
  | ok g =>
      have same : ofBuilt (.ok g) registry = ofGraph g registry := rfl
      rw [same, ofGraph_clean]
      simp only [Except.ok.injEq, exists_eq_left', Graph.passes_iff]
      exact ⟨fun h => ⟨fun e member => (h e member).1, fun e member => (h e member).2⟩,
        fun h e member => ⟨h.1 e member, h.2 e member⟩⟩

end ProgramReport

/-- A report finds no error in a program exactly when a graph can be built of it, the runs of that graph
pass their gate, and its properties stand under texts of at most a hundred characters. The gate does not
ask for the last. -/
theorem report_clean (registry : Registry) :
    (∀ elements connections,
      (∃ report, ProgramReport.ofValues elements connections registry = .ok report ∧ report.errors = []) ↔
        ∃ g, Graph.ofValues elements connections = .ok g ∧ g.Passes registry ∧
          ∀ e ∈ g.elements, e.WellKeyed) ∧
    ∀ p, (∃ report, ProgramReport.ofProgram p registry = .ok report ∧ report.errors = []) ↔
      ∃ g, Graph.ofProgram p = .ok g ∧ g.Passes registry ∧ ∀ e ∈ g.elements, e.WellKeyed :=
  ⟨fun elements connections => ProgramReport.ofBuilt_clean (Graph.ofValues elements connections) registry,
    fun p => ProgramReport.ofBuilt_clean (Graph.ofProgram p) registry⟩

/-! ### A key that is too long -/

/-- An element whose only property has a long name. -/
def Element.longKeyed : Element :=
  ⟨"first", "one", .int 0, .int 0, [(.text (String.ofList (List.replicate 101 'k')), .int 1)]⟩

/-- A program of that element. -/
def Program.longKeyed : Program := ⟨[.longKeyed], []⟩

theorem Program.longKeyed_reported :
    ((ProgramReport.ofProgram .longKeyed ⟨[("one", .one)]⟩).toOption.map (·.errors.length)) = some 1 := by
  decide +kernel

/-- The report finds an error in a program whose runs pass their gate: the two do not agree on what blocks
a run. -/
theorem report_stricter : ∃ g report, Graph.ofProgram .longKeyed = .ok g ∧ g.Passes ⟨[("one", .one)]⟩ ∧
    ProgramReport.ofProgram .longKeyed ⟨[("one", .one)]⟩ = .ok report ∧ report.errors ≠ [] := by
  have passes : Graph.Passes ⟨[.longKeyed], []⟩ ⟨[("one", .one)]⟩ := by
    rw [Graph.passes_iff]
    intro e member
    rw [List.mem_singleton.mp member]
    exact ⟨.one, .null, rfl, rfl, rfl⟩
  obtain ⟨report, told, errors⟩ := Option.map_eq_some_iff.mp Program.longKeyed_reported
  refine ⟨_, report, rfl, passes, ?_, fun clean => ?_⟩
  · cases reported : ProgramReport.ofProgram .longKeyed ⟨[("one", .one)]⟩ with
    | error f =>
        rw [reported] at told
        cases told
    | ok report' =>
        rw [reported] at told
        cases told
        rfl
  · rw [clean] at errors
    cases errors

end BlockGraph
