import BlockGraph.Proofs.Checked
import BlockGraph.Proofs.Documents
/-!
Construction: what becomes of elements and connections that a document gives. A graph is built of them, or construction
says what is wrong with them, or an element entry fails it: a place that is no mapping, or properties nested too deep.
What is checked is reported in the first two cases, and fails as construction does in the third.
-/
namespace BlockGraph

/-! ### Ways to end -/

section

variable {ε α β γ : Type} {value : Fault → ε} {good : α → Prop} {good' : β → Prop} {fails fails' : Fault → Prop}

/-- How a computation may end that refuses what it is given with a fault of its own, where `value` passes on the faults
of values. -/
inductive Ends (value : Fault → ε) (good : α → Prop) (fails : Fault → Prop) : Except ε α → Prop
  | done (a : α) (h : good a) : Ends value good fails (.ok a)
  | refused (fault : ε) (told : ∀ f, fault ≠ value f := by simp) : Ends value good fails (.error fault)
  | failed (f : Fault) (h : fails f) : Ends value good fails (.error (value f))

theorem Ends.imp {x : Except ε α} (h : Ends value good fails x) (weaker : ∀ f, fails f → fails' f) :
    Ends value good fails' x := by
  cases h with
  | done a h => exact .done a h
  | refused fault told => exact .refused fault told
  | failed f h => exact .failed f (weaker f h)

theorem Ends.bind {x : Except ε α} {next : α → Except ε β} (h : Ends value good fails x)
    (goes : ∀ a, good a → Ends value good' fails (next a)) : Ends value good' fails (x >>= next) := by
  cases h with
  | done a h => exact goes a h
  | refused fault told => exact .refused fault told
  | failed f h => exact .failed f h

/-- A row fails as the first of its entries does that is not gone through. -/
theorem mapM_ends {make : γ → Except ε β} {fails : γ → Fault → Prop} {xs : List γ}
    (each : ∀ x ∈ xs, Ends value good' (fails x) (make x)) :
    Ends value (fun ys => ∀ y ∈ ys, good' y) (fun f => ∃ before x after ys, xs = before ++ x :: after ∧
      before.mapM make = .ok ys ∧ fails x f) (xs.mapM make) := by
  induction xs with
  | nil => exact .done [] nofun
  | cons x rest ih =>
      obtain ⟨first, others⟩ := List.forall_mem_cons.mp each
      rw [List.mapM_cons]
      cases made : make x with
      | error fault =>
          rw [made] at first
          cases first with
          | refused fault told => exact .refused fault told
          | failed f h => exact .failed f ⟨[], x, rest, [], rfl, rfl, h⟩
      | ok y =>
          rw [made] at first
          cases first with
          | done y holds =>
              refine ((ih others).imp ?_).bind fun ys rest => .done _ (List.forall_mem_cons.mpr ⟨holds, rest⟩)
              rintro f ⟨before, x', after, ys, rfl, read, h⟩
              refine ⟨x :: before, x', after, y :: ys, rfl, ?_, h⟩
              rw [List.mapM_cons, made, read]
              rfl

end

/-! ### Elements -/

namespace Value

variable {entries : Entries} {v w : Value}

theorem IsJson.field (h : (mapping entries).IsJson) (key : String) : (Entries.field entries key).IsJson := by
  rw [Entries.field]
  cases found : Entries.field? entries key with
  | none => exact .intro trivial fun _ member => absurd member List.not_mem_nil
  | some v => exact h.inside _ (mem_children_mapping (mem_of_field? found)).2

theorem IsJson.orEmpty (h : v.IsJson) : v.orEmpty.IsJson := by
  unfold Value.orEmpty
  split
  · exact h
  · exact .ofEntries nofun

theorem eq_of_orEmpty (h : v.orEmpty = w) (other : w.isMapping = false) : v.isTrue = true ∧ v = w := by
  unfold Value.orEmpty at h
  split at h
  · exact ⟨‹_›, h⟩
  · cases h
    cases other

end Value

namespace Element

variable {v id type x y props : Value}

/-- Whether all properties of an element stand under texts. -/
def Keyed (e : Element) : Prop := ∀ x ∈ e.props, ∃ key, x.1 = .text key

/-- How an entry fails construction, otherwise than by describing no element. -/
inductive Fails (v : Value) : Fault → Prop
  /-- Coordinates are looked for in a place that is no mapping. -/
  | misplaced {entries : Entries} (entry : v = .mapping entries)
      (given : (Entries.field entries "position").isTrue = true)
      (wrong : (Entries.field entries "position").isMapping = false) :
      Fails v (.noAttribute (Entries.field entries "position").kindName "get")
  | tooDeep (h : TooDeep v) : Fails v (.tooDeep .copying)

theorem ofParts_ends (given : props.IsJson) : Ends .value Keyed
    (fun f => f = .tooDeep .copying ∧ ∃ entries, props = .mapping entries ∧ Value.copyLevels < props.depth)
    (ofParts id type x y props) := by
  unfold ofParts
  split
  · split
    · split
      · split
        · split
          · rename_i entries
            rw [given.plain.copyEntries]
            simp only
            split
            · exact .done _ given.here
            · rename_i refused
              simp only [checkDepth, Value.within] at refused
              split at refused
              · cases refused
                exact .failed _ ⟨rfl, entries, rfl, ‹_›⟩
              · cases refused
          · exact .refused _
        · exact .refused _
      · exact .refused _
    · exact .refused _
  · exact .refused _

theorem ofValue_ends (json : v.IsJson) : Ends .value Keyed (Fails v) (ofValue v) := by
  cases v with
  | mapping entries =>
      unfold ofValue
      simp only
      cases place : (Entries.field entries "position").orEmpty with
      | mapping position =>
          refine (ofParts_ends (json.field "props").orEmpty).imp ?_
          rintro f ⟨rfl, given, same, deep⟩
          exact .tooDeep (tooDeep_of_orEmpty same (same ▸ deep))
      | _ =>
          obtain ⟨given, same⟩ := Value.eq_of_orEmpty place rfl
          have fails := Fails.misplaced rfl given (by rw [same]; rfl)
          rw [same] at fails
          exact .failed _ fails
  | _ => exact .refused _

end Element

/-! ### Graphs -/

namespace Graph

variable {e : Value × Value}

/-- An entry of elements fails as its value does. -/
theorem elementOf_ends (key : ∃ k, e.1 = .text k) (json : e.2.IsJson) :
    Ends .value Element.Keyed (Element.Fails e.2) (elementOf e) := by
  obtain ⟨k, text⟩ := key
  have read := Element.ofValue_ends json
  unfold elementOf
  rw [text]
  generalize Element.ofValue e.2 = outcome at read
  cases read with
  | done x keyed =>
      simp only
      split
      · exact .done x keyed
      · exact Ends.refused (GraphFault.elementKey (Text.quoted k) x.id) fun _ => nofun
  | refused cause told =>
      cases cause with
      | value f => exact absurd rfl (told f)
      | _ => exact .refused _
  | failed f h =>
      have kind : f.kind ≠ .value := by cases h <;> nofun
      simp only [kind, if_false]
      exact .failed f h

theorem connectionOf_ends (key : ∃ k, e.1 = .text k) :
    Ends .value (fun _ => True) (fun _ => False) (connectionOf e) := by
  obtain ⟨k, text⟩ := key
  unfold connectionOf
  rw [text]
  cases Connection.ofValue e.2 with
  | error cause => exact .refused _
  | ok c =>
      simp only
      split
      · exact .done c trivial
      · exact Ends.refused (GraphFault.connectionKey (Text.quoted k) c.id) fun _ => nofun

theorem checkEndpoints_ends (g : Graph) : Ends .value (fun _ => True) (fun _ => False) g.checkEndpoints := by
  cases checked : g.checkEndpoints with
  | ok u => exact .done u trivial
  | error fault =>
      refine .refused fault fun f same => ?_
      obtain ⟨before, c, after, -, -, refused⟩ := forM_error.mp checked
      split at refused
      · cases refused
        cases same
      · split at refused
        · cases refused
          cases same
        · cases refused

/-- How the elements of a document fail construction: the first entry that is not read fails. -/
def Fails (elements : Entries) (f : Fault) : Prop := ∃ before e after read,
  elements = before ++ e :: after ∧ before.mapM elementOf = .ok read ∧ Element.Fails e.2 f

theorem ofValues_ends {elements connections : Entries} (json : (Value.mapping elements).IsJson)
    (json' : (Value.mapping connections).IsJson) :
    Ends .value (fun g => ∀ x ∈ g.elements, x.Keyed) (Fails elements)
      (ofValues (.mapping elements) (.mapping connections)) := by
  have element : ∀ e ∈ elements, Ends .value Element.Keyed (Element.Fails e.2) (elementOf e) := fun e member =>
    elementOf_ends (json.here e member) (json.inside _ (Value.mem_children_mapping member).2)
  have connection : ∀ e ∈ connections, Ends .value (fun _ => True) (fun _ => False) (connectionOf e) :=
    fun e member => connectionOf_ends (json'.here e member)
  refine (mapM_ends element).bind fun xs keyed => ?_
  refine ((mapM_ends connection).imp ?_).bind fun cs _ => ?_
  · rintro f ⟨_, _, _, _, _, _, h⟩
    exact h.elim
  · exact ((checkEndpoints_ends ⟨xs, cs⟩).imp fun f h => h.elim).bind fun _ _ => .done (⟨xs, cs⟩ : Graph) keyed

end Graph

/-! ### Reports -/

namespace Registry

variable {r : Registry} {report : PropsReport} {props : Entries}

/-- Whether all that the blocks of a registry say against properties has a text. -/
def Speaks (r : Registry) : Prop := ∀ type d props v, r.find? type = some d → d.check props = .ok v →
  v.isTrue = true → ∃ s, v.plainText = .ok s

/-- Whether what was found of properties can be told. -/
def Told (report : PropsReport) : Prop := ∀ m ∈ report.errors, ∃ s, m.plainText = .ok s

theorem entryReport_told (told : Told report) (key : String) (v : Value) :
    ∃ next, entryReport report (.text key, v) = .ok next ∧ Told next := by
  simp only [entryReport]
  split
  · refine ⟨_, rfl, fun m member => ?_⟩
    rcases List.mem_append.mp member with old | new
    · exact told m old
    · exact ⟨_, by rw [List.mem_singleton.mp new, Value.plainText]⟩
  · split
    · split <;> exact ⟨_, rfl, told⟩
    · split <;> exact ⟨_, rfl, told⟩
    · split <;> exact ⟨_, rfl, told⟩
    · exact ⟨_, rfl, told⟩

theorem entryReports_told (keys : ∀ x ∈ props, ∃ key, x.1 = .text key) (told : Told report) :
    ∃ last, props.foldlM entryReport report = .ok last ∧ Told last := by
  induction props generalizing report with
  | nil => exact ⟨report, rfl, told⟩
  | cons x rest ih =>
      obtain ⟨⟨key, text⟩, keys⟩ := List.forall_mem_cons.mp keys
      obtain ⟨next, first, told⟩ := entryReport_told told key x.2
      rw [← text] at first
      rw [List.foldlM_cons, first]
      exact ih keys told

theorem checkProps_told (speaks : r.Speaks) (type : String) (keys : ∀ x ∈ props, ∃ key, x.1 = .text key) :
    ∃ report, r.checkProps (.text type) props = .ok report ∧ Told report := by
  unfold checkProps
  cases found : r.find? type with
  | none =>
      simp only [found]
      exact ⟨_, rfl, List.forall_mem_singleton.mpr ⟨_, rfl⟩⟩
  | some d =>
      simp only [found]
      refine entryReports_told keys ?_
      cases asked : d.check props with
      | error f => exact List.forall_mem_singleton.mpr ⟨_, rfl⟩
      | ok v =>
          intro m member
          by_cases complains : v.isTrue = true
          · simp only [complains, if_true, List.mem_singleton] at member
            exact member ▸ speaks type d props v found asked complains
          · simp only [complains] at member
            exact absurd member List.not_mem_nil

end Registry

theorem mapM_total {β γ ε : Type} {f : β → Except ε γ} {xs : List β} (each : ∀ x ∈ xs, ∃ y, f x = .ok y) :
    ∃ ys, xs.mapM f = .ok ys := by
  induction xs with
  | nil => exact ⟨[], rfl⟩
  | cons x rest ih =>
      obtain ⟨⟨y, first⟩, others⟩ := List.forall_mem_cons.mp each
      obtain ⟨ys, mapped⟩ := ih others
      exact ⟨y :: ys, by rw [List.mapM_cons, first, mapped]; rfl⟩

namespace ProgramReport

variable {registry : Registry} {g : Graph} {elements connections : Entries}

theorem elementFindings_told (speaks : registry.Speaks) {x : Element} (keyed : x.Keyed) :
    ∃ found, elementFindings registry x = .ok found := by
  obtain ⟨report, checked, told⟩ := registry.checkProps_told speaks x.type keyed
  have lines : ∀ m ∈ report.errors, ∃ line : String,
      (do return x.id ++ ": " ++ (← m.plainText)) = (.ok line : Except Fault String) := by
    intro m member
    obtain ⟨s, text⟩ := told m member
    exact ⟨_, by rw [text]; rfl⟩
  obtain ⟨errors, mapped⟩ := mapM_total lines
  refine ⟨(errors, report.warnings.map (x.id ++ ": " ++ ·)), ?_⟩
  rw [elementFindings, checked]
  show Except.bind (List.mapM _ report.errors) _ = _
  rw [mapped]
  rfl

theorem ofGraph_told (speaks : registry.Speaks) (keyed : ∀ x ∈ g.elements, x.Keyed) :
    ∃ report, ofGraph g registry = .ok report := by
  obtain ⟨findings, mapped⟩ := mapM_total fun x member => elementFindings_told speaks (keyed x member)
  unfold ofGraph
  rw [mapped]
  exact ⟨_, rfl⟩

/-- A graph is built of what a document gives, and then checked; or construction says what is wrong, and that is what
is reported; or an entry of elements fails, and construction and check both fail with it. -/
theorem ofValues_cases (json : (Value.mapping elements).IsJson) (json' : (Value.mapping connections).IsJson)
    (registry : Registry) :
    (∃ g, Graph.ofValues (.mapping elements) (.mapping connections) = .ok g ∧
      ofValues (.mapping elements) (.mapping connections) registry = ofGraph g registry ∧
      (registry.Speaks → ∃ report, ofGraph g registry = .ok report)) ∨
    (∃ fault, (∀ f, fault ≠ .value f) ∧
      Graph.ofValues (.mapping elements) (.mapping connections) = .error fault ∧
      ofValues (.mapping elements) (.mapping connections) registry = .ok (ofFault fault)) ∨
    ∃ f, Graph.Fails elements f ∧ Graph.ofValues (.mapping elements) (.mapping connections) = .error (.value f) ∧
      ofValues (.mapping elements) (.mapping connections) registry = .error f := by
  have ends := Graph.ofValues_ends json json'
  unfold ofValues
  generalize Graph.ofValues (.mapping elements) (.mapping connections) = outcome at ends
  cases ends with
  | done g keyed => exact .inl ⟨g, rfl, rfl, fun speaks => ofGraph_told speaks keyed⟩
  | refused fault told =>
      refine .inr (.inl ⟨fault, told, rfl, ?_⟩)
      cases fault with
      | value f => exact absurd rfl (told f)
      | _ => rfl
  | failed f h => exact .inr (.inr ⟨f, h, rfl, rfl⟩)

/-- Elements of which one has a list for its place. -/
def misplaced : Entries :=
  [(.text "A", .mapping [(.text "id", .text "A"), (.text "type", .text "comment"), (.text "position", .list [.int 1])])]

theorem misplaced_json : (Value.mapping misplaced).IsJson := by
  have place : (Value.list [.int 1]).IsJson := .ofItems (List.forall_mem_singleton.mpr (.intro trivial nofun))
  refine .ofEntries (List.forall_mem_singleton.mpr ⟨⟨"A", rfl⟩, .ofEntries ?_⟩)
  simp [Value.IsJson.ofText, place]

theorem ofValues_cases_misplaced :
    (∃ g, Graph.ofValues (.mapping misplaced) (.mapping []) = .ok g ∧
      ofValues (.mapping misplaced) (.mapping []) .empty = ofGraph g .empty ∧
      (Registry.empty.Speaks → ∃ report, ofGraph g .empty = .ok report)) ∨
    (∃ fault, (∀ f, fault ≠ .value f) ∧
      Graph.ofValues (.mapping misplaced) (.mapping []) = .error fault ∧
      ofValues (.mapping misplaced) (.mapping []) .empty = .ok (ofFault fault)) ∨
    ∃ f, Graph.Fails misplaced f ∧ Graph.ofValues (.mapping misplaced) (.mapping []) = .error (.value f) ∧
      ofValues (.mapping misplaced) (.mapping []) .empty = .error f :=
  ofValues_cases misplaced_json (.ofEntries fun _ member => absurd member List.not_mem_nil) .empty

/-- A list for a place makes neither a graph nor a report. -/
theorem misplaced_unreported : (Value.mapping misplaced).IsJson ∧
    Graph.ofValues (.mapping misplaced) (.mapping []) = .error (.value (.noAttribute "list" "get")) ∧
    ∀ registry, ofValues (.mapping misplaced) (.mapping []) registry = .error (.noAttribute "list" "get") :=
  ⟨misplaced_json, rfl, fun _ => rfl⟩

end ProgramReport

end BlockGraph
