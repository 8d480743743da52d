import BlockGraph.Value.Copy
import BlockGraph.Value.Depth
import BlockGraph.Value.Equality
/-!
Elements: the nodes of a graph, each an instance of a block type with properties of its own.
-/
namespace BlockGraph

/-- A node. Its place is layout only. The properties are a copy, so that later edits of the document
do not reach a run. -/
structure Element where
  id : String
  type : String
  x : Number
  y : Number
  props : Entries

/-- Why a value describes no element. -/
inductive ElementFault where
  | notAMapping
  | blankId
  | blankType (id : String)
  | badPlace (id : String)
  | badProps (id : String)
  | value (f : Fault)

namespace ElementFault

def message : ElementFault → String
  | notAMapping => "Element data must be a mapping"
  | blankId => "Element id must be a non-empty string"
  | blankType id => "Element type must be a non-empty string for element " ++ id
  | badPlace id => "Element coordinates must be numbers for element " ++ id
  | badProps id => "Element props must be a mapping for element " ++ id
  | value f => f.message

def kind : ElementFault → FaultKind
  | value f => f.kind
  | _ => .value

end ElementFault

namespace Value

/-- A number other than a truth value. -/
def plainNumber? : Value → Option Number
  | int n => some (.int n)
  | float x => some (.float x)
  | _ => none

/-- The value itself when it counts as true, else an empty mapping. -/
def orEmpty (v : Value) : Value := if v.isTrue then v else .mapping []

end Value

namespace Element

/-- An element whose properties are not nested too deep to be copied. -/
def checkDepth (e : Element) : Except Fault Unit :=
  (Value.mapping e.props).within Value.copyLevels .copying

/-- An element from its parts, checked in order. The properties are copied last. -/
def ofParts (id type x y props : Value) : Except ElementFault Element := do
  let some id := id.name? | .error .blankId
  let some type := type.name? | .error (.blankType id)
  let some x := x.plainNumber? | .error (.badPlace id)
  let some y := y.plainNumber? | .error (.badPlace id)
  match props with
  | .mapping entries =>
    match Value.copyEntries entries with
    | .ok props =>
      let e : Element := { id, type, x, y, props }
      match e.checkDepth with
      | .ok () => return e
      | .error f => .error (.value f)
    | .error f => .error (.value f)
  | _ => .error (.badProps id)

/-- Reads an element. Coordinates missing from it are looked for in its position. -/
def ofValue (data : Value) : Except ElementFault Element :=
  match data with
  | .mapping entries => do
    let position := (Entries.field entries "position").orEmpty
    let coordinate := fun (key : String) => (do
      let fallback ← match position with
        | .mapping p => pure ((Entries.field? p key).getD (.float Double.zero))
        | v => .error (.value (.noAttribute v.kindName "get"))
      return (Entries.field? entries key).getD fallback : Except ElementFault Value)
    let x ← coordinate "x"
    let y ← coordinate "y"
    ofParts (Entries.field entries "id") (Entries.field entries "type") x y
      (Entries.field entries "props").orEmpty
  | _ => .error .notAMapping

/-- An element as a mapping. -/
def toEntries (e : Element) : Entries :=
  [(.text "id", .text e.id), (.text "type", .text e.type), (.text "x", .ofNumber e.x),
   (.text "y", .ofNumber e.y), (.text "props", .mapping e.props)]

def toValue (e : Element) : Value := .mapping e.toEntries

end Element

end BlockGraph
