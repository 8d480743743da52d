import BlockGraph.Block.Definition
import BlockGraph.Value.Coerce
/-!
How the standard blocks are written: a plan reads what the block sees and lists the steps it takes.
-/
namespace BlockGraph

/-- A plan: what is seen at the start, and the steps listed so far. A fault ends it. -/
abbrev Plan := ReaderT Sight (ExceptT Fault (StateM (Array Step)))

namespace Plan

/-- The steps of a plan; a fault is raised after the steps listed before it. -/
def steps (p : Plan Unit) (sight : Sight) : List Step :=
  match (p.run sight).run.run #[] with
  | (.ok _, planned) => planned.toList
  | (.error f, planned) => planned.toList ++ [.raise f]

def step (s : Step) : Plan Unit := modify (·.push s)

/-- The outcome of a computation that may fault. -/
def of {α : Type} : Except Fault α → Plan α
  | .ok a => pure a
  | .error f => throw f

/-- An input, or null. -/
def input (name : String) : Plan Value := do
  return Entries.field (← read).context.inputs name

/-- An input, or a default when it is missing or null. -/
def inputOr (name : String) (default : Value) : Plan Value := do
  let v ← input name
  return if v.isNull then default else v

/-- An input as a number; null stands for the default. -/
def number (name : String) (default : Int) : Plan Number := do
  return (← input name).toNumber (.int default)

/-- The text of a value as blocks show it. -/
def text (v : Value) : Plan String := of v.toText

def json (v : Value) : Plan String := of v.toJson

def numberText (n : Number) : Plan String := of (Value.numberText n)

/-- An entry of the element's own slot, or null. -/
def stored (key : String) : Plan Value := do
  return Entries.field (← read).slot key

def say (message : String) : Plan Unit := step (.log (.text message))

def store (key : String) (value : Value) : Plan Unit := step (.store (.text key) value)

def emit (port : String) (value : Value) : Plan Unit := step (.emit (.text port) value)

end Plan

/-- A block of the standard library. -/
structure StandardBlock where
  type : String
  displayName : String
  category : Category
  inputs : List String := []
  outputs : List String := []
  defaults : List (String × Value) := []
  description : String
  render : RenderFn
  form : Form := .stream
  plan : Plan Unit

namespace StandardBlock

def props (b : StandardBlock) : Entries := b.defaults.map fun (key, v) => (.text key, v)

def logic (b : StandardBlock) : Logic := .planned b.form b.plan.steps

/-- The block as its author wrote it. -/
def draft (b : StandardBlock) : Draft where
  displayName := .text b.displayName
  category := .text b.category.name
  inputs := .list (b.inputs.map .text)
  outputs := .list (b.outputs.map .text)
  defaultProps := .mapping b.props
  execute := .given b.logic
  validate := .missing
  render := .given b.render
  version := .null
  description := .text b.description
  color := .null
  icon := .null
  author := .null
  isCircular := .bool false

/-- The block as a registry keeps it. -/
def definition (b : StandardBlock) : BlockDefinition where
  displayName := b.displayName
  category := b.category
  inputs := b.inputs
  outputs := b.outputs
  defaultProps := Value.freezeEntries b.props
  logic := b.logic
  check := fun _ => .ok .null
  render := b.render
  version := BlockDefinition.defaultVersion
  description := b.description
  color? := none
  icon? := none
  author? := none
  isCircular := false
  supplied := ⟨true, false, true⟩

end StandardBlock

namespace Rendered

/-- A preview of a label and a content. -/
def plain (label content : String) : Except Fault Rendered :=
  .ok (.preview (.text label) (.text content) .null)

/-- A preview whose content is the text of a value. -/
def showing (label : String) (v : Value) : Except Fault Rendered := do
  return .preview (.text label) (.text (← v.toText)) .null

end Rendered

namespace Value

/-- The first value when it counts as true, else the second. -/
def orElse (v default : Value) : Value := if v.isTrue then v else default

end Value

namespace Entries

/-- The value under a text key, or a default when the key is missing. -/
def fieldOr (entries : Entries) (key : String) (default : Value) : Value :=
  (field? entries key).getD default

end Entries

end BlockGraph
