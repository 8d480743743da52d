import BlockGraph.Block.Definition
/-!
Registries: block types by name, in the order in which they were registered.
-/
namespace BlockGraph

/-- A catalogue of block types. -/
structure Registry where
  blocks : List (String × BlockDefinition)

/-- What may be handed to a registry as a definition. -/
inductive Registrant where
  | fields (fs : Draft.Fields)
  | draft (d : Draft)
  | other

/-- What a check of properties found: complaints, which need not be texts, and warnings. -/
structure PropsReport where
  errors : List Value
  warnings : List String

namespace Registry

def empty : Registry := ⟨[]⟩

def find? (r : Registry) (type : String) : Option BlockDefinition :=
  r.blocks.lookup type

/-- What a registry finds under a name it holds. -/
theorem mem_of_find? {r : Registry} {name : String} {d : BlockDefinition} (found : r.find? name = some d) :
    (name, d) ∈ r.blocks := by
  obtain ⟨blocks⟩ := r
  change blocks.lookup name = some d at found
  induction blocks with
  | nil => cases found
  | cons b rest ih =>
      obtain ⟨other, stored⟩ := b
      rw [List.lookup_cons] at found
      split at found
      · rename_i same
        cases found
        rw [beq_iff_eq.mp same]
        exact List.mem_cons_self
      · exact List.mem_cons_of_mem _ (ih found)

def has (r : Registry) (type : String) : Bool := (r.find? type).isSome

def types (r : Registry) : List String := r.blocks.map (·.1)

abbrev Registering := Journaled RegistrationFault

/-- Faults of the values themselves are passed on as they are. -/
def passOn {α : Type} (w : Journaled Fault α) : Registering α :=
  ExceptT.mk do
    match ← w.run with
    | .ok a => return .ok a
    | .error f => return .error (.value f)

/-- The draft in what was handed over. -/
def draftOf : Registrant → Except RegistrationFault Draft
  | .draft d => .ok d
  | .other => .error .notADefinition
  | .fields fs => match Draft.ofFields fs with
    | .ok d => .ok d
    | .error (.unknown names) => .error (.unknownFields names)
    | .error (.missing names) => .error (.missingFields names)
    | .error (.key f) => .error (.value f)

/-- A new definition has to draw its default properties, and to answer about them. -/
def smokeTest (type : String) (d : BlockDefinition) : Except RegistrationFault Unit := do
  match d.preview d.defaults with
  | .error cause => .error (.renderTest type cause)
  | .ok _ => match d.check d.defaults with
    | .error cause => .error (.validateTest type cause)
    | .ok .null | .ok (.text _) => .ok ()
    | .ok _ => .error (.validateResult type)

/-- Registers a definition and gives the one stored: registering an equal one again changes nothing,
a different one under the same name is refused. -/
def register (r : Registry) (type : Value) (what : Registrant) :
    Registering (BlockDefinition × Registry) := do
  let name ← liftM (BlockType.ofValue type)
  let draft ← liftM (draftOf what)
  let checked ← liftM (draft.check name)
  let d ← passOn (BlockDefinition.ofChecked name checked)
  match r.find? name with
  | some existing =>
    if existing.same d then return (existing, r) else throw (.duplicate name)
  | none =>
    liftM (smokeTest name d)
    return (d, ⟨r.blocks ++ [(name, d)]⟩)

/-- A registry without a type, and whether it was there. -/
def unregister (r : Registry) (type : String) : Bool × Registry :=
  (r.has type, ⟨r.blocks.filter (·.1 != type)⟩)

/-- An empty registry, if that is confirmed. -/
def clear (confirm : Value) : Except RegistrationFault Registry :=
  match confirm with
  | .bool true => .ok empty
  | _ => .error .clearUnconfirmed

def byCategory (r : Registry) (category : Value) :
    Except RegistrationFault (List (String × BlockDefinition)) :=
  match Category.ofValue? category with
  | some c => .ok (r.blocks.filter (·.2.category == c))
  | none => .error .unknownCategory

/-- How many types of a category there are. -/
def countOf (r : Registry) (c : Category) : Nat :=
  (r.blocks.filter (·.2.category == c)).length

/-- An average with two decimals; nothing has the average zero. -/
def average (total count : Nat) : Value :=
  if count = 0 then .int 0
  else
    match Double.ofRatio false total count with
    | .finite _ code _ =>
      .float (Double.ofRatio false
        (roundHalfEven (Double.unitsOfCode code * 100) Double.unitsPerOne) 100)
    | x => .float x

/-- Counts per category, and the average number of ports. -/
def stats (r : Registry) : Entries :=
  let total := r.blocks.length
  let sum := fun (ports : BlockDefinition → List String) =>
    r.blocks.foldl (fun n b => n + (ports b.2).length) 0
  [(.text "total_blocks", .int total),
   (.text "category_counts",
     .mapping (Category.all.map fun c => (.text c.name, .int (r.countOf c)))),
   (.text "average_inputs", average (sum (·.inputs)) total),
   (.text "average_outputs", average (sum (·.outputs)) total)]

/-- What is said about one entry of checked properties. -/
def entryReport (report : PropsReport) (e : Value × Value) : Except Fault PropsReport := do
  match e.1 with
  | .text key =>
    if 100 < key.length then
      return { report with errors := report.errors ++ [.text ("Invalid property key: " ++ key)] }
    else match e.2 with
      | .text s =>
        if 100000 < s.length then
          return { report with
            warnings := report.warnings ++ ["Property " ++ key ++ " has very large string value"] }
        else return report
      | .list items | .tuple items =>
        if 10000 < items.length then
          return { report with
            warnings := report.warnings ++ ["Property " ++ key ++ " has very large array"] }
        else return report
      | _ => return report
  | key =>
    let shown ← key.plainText
    return { report with errors := report.errors ++ [.text ("Invalid property key: " ++ shown)] }

/-- Checks properties against a block type without running anything. -/
def checkProps (r : Registry) (type : Value) (props : Entries) : Except Fault PropsReport := do
  let found := match type with
    | .text s => r.find? s
    | _ => none
  match found with
  | none =>
    let shown ← type.plainText
    return ⟨[.text ("Block type \"" ++ shown ++ "\" is not registered")], []⟩
  | some d =>
    let errors := match d.check props with
      | .error f => [.text ("Validation error: " ++ f.message)]
      | .ok v => if v.isTrue then [v] else []
    let missing := d.defaultProps.filter fun e => !Entries.hasKey props e.1
    let warnings := missing.filterMap fun e =>
      e.1.text?.map ("Missing optional property: " ++ ·)
    props.foldlM entryReport ⟨errors, warnings⟩

end Registry

namespace PropsReport

def isValid (r : PropsReport) : Bool := r.errors.isEmpty

def toValue (r : PropsReport) : Value :=
  .mapping [(.text "is_valid", .bool r.isValid), (.text "errors", .list r.errors),
    (.text "warnings", .list (r.warnings.map .text))]

end PropsReport

/-- A definition as a mapping of everything but its functions. -/
def BlockDefinition.describe (d : BlockDefinition) : Entries :=
  let optional := fun (s? : Option String) => s?.elim Value.null .text
  [(.text "display_name", .text d.displayName), (.text "category", .text d.category.name),
   (.text "inputs", .list (d.inputs.map .text)), (.text "outputs", .list (d.outputs.map .text)),
   (.text "default_props", .mapping d.defaults), (.text "version", .text d.version),
   (.text "description", .text d.description), (.text "color", optional d.color?),
   (.text "icon", optional d.icon?), (.text "author", optional d.author?),
   (.text "is_circular", .bool d.isCircular),
   (.text "supplied", .list (d.supplied.names.map .text))]

end BlockGraph
