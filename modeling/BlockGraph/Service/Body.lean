import BlockGraph.Json.Reader
import BlockGraph.Run.Options
/-!
Bodies of requests: JSON documents of a given shape. All that is wrong with a document is reported
together, in the order of the parts of the shape.
-/
namespace BlockGraph.Service

/-- Why a body is refused. -/
inductive BodyFault where
  | complaints (cs : List Complaint)
  | unreadable

/-- Reads a part of a body that stands at a place. -/
abbrev Decoder (α : Type) := List PlaceStep → Value → Except (List Complaint) α

namespace Decoder

/-- The entries of a mapping; `problem` tells what else there is. -/
def entries (problem : Problem) : Decoder Entries := fun place v =>
  match v with
  | .mapping es => .ok es
  | v => .error [⟨place, problem, v⟩]

/-- A field of a mapping, or a default when it is left out. -/
def fieldOr {α : Type} (name : String) (default : α) (decode : Decoder α) (place : List PlaceStep)
    (es : Entries) : Except (List Complaint) α :=
  match Entries.field? es name with
  | some v => decode (place ++ [.field name]) v
  | none => .ok default

/-- A field that has to be there. -/
def required {α : Type} (name : String) (decode : Decoder α) (place : List PlaceStep) (es : Entries) :
    Except (List Complaint) α :=
  match Entries.field? es name with
  | some v => decode (place ++ [.field name]) v
  | none => .error [⟨place ++ [.field name], .missing, .mapping es⟩]

/-- Two parts, with the complaints about both. -/
def both {α β : Type} (a : Except (List Complaint) α) (b : Except (List Complaint) β) :
    Except (List Complaint) (α × β) :=
  match a, b with
  | .ok a, .ok b => .ok (a, b)
  | .error cs, .ok _ => .error cs
  | .ok _, .error cs => .error cs
  | .error cs, .error ds => .error (cs ++ ds)

/-- How places name the two shapes a listing may have. -/
def listShape : String := "list[dict[str,any]]"
def mappingShape : String := "dict[str,dict[str,any]]"

/-- Complaints about parts that should be mappings. -/
def notMappings (parts : List (List PlaceStep × Value)) : List Complaint :=
  parts.filterMap fun (place, v) => if v.isMapping then none else some ⟨place, .notDictionary, v⟩

/-- Mappings in a list or keyed by name. When neither shape fits, the complaints of both count. -/
def listing : Decoder Value := fun place v =>
  let inList := place ++ [.field listShape]
  let inMapping := place ++ [.field mappingShape]
  let ofList := match v with
    | .list items => notMappings (items.mapIdx fun i v => (inList ++ [.item i], v))
    | v => [⟨inList, .notList, v⟩]
  let ofMapping := match v with
    | .mapping es =>
      notMappings (es.map fun (key, v) => (inMapping ++ [.field (key.text?.getD "")], v))
    | v => [⟨inMapping, .notDictionary, v⟩]
  if ofList.isEmpty || ofMapping.isEmpty then .ok v else .error (ofList ++ ofMapping)

/-- A program document with both of its listings. -/
def program : Decoder Value := fun place v => do
  let es ← entries .notObject place v
  let (elements, connections) ←
    both (fieldOr "elements" (.list []) listing place es)
      (fieldOr "connections" (.list []) listing place es)
  return .mapping [(.text "elements", elements), (.text "connections", connections)]

/-- An option that may be null, which counts as left out. -/
def option (name : String) (reader : Value → Except Problem Value) :
    List PlaceStep → Entries → Except (List Complaint) Options.Given :=
  fieldOr name [] fun place v => match v with
    | .null => .ok []
    | v => match reader v with
      | .ok read => .ok [(.text name, .value read)]
      | .error problem => .error [⟨place, problem, v⟩]

/-- The options of a run; what is no option is ignored. -/
def options : Decoder Options.Given := fun place v => do
  let es ← entries .notObject place v
  let number := fun v => (Lenient.double v).map Value.float
  let parts := [
    option "max_execution_time" number, option "max_steps" fun v => (Lenient.int v).map .int,
    option "step_delay" number, option "block_timeout" number,
    option "enable_cycle_detection" fun v => (Lenient.bool v).map .bool]
  parts.foldl (fun done part => (both done (part place es)).map fun (a, b) => a ++ b) (.ok [])

end Decoder

/-- What is asked for when a program is to be run. -/
structure RunBody where
  program : Value
  options : Options.Given
  bindings : Entries

namespace Decoder

def run : Decoder RunBody := fun place v => do
  let es ← entries .notObject place v
  let (program, options, bindings) ←
    both (required "program" program place es)
      (both (fieldOr "options" [] options place es)
        (fieldOr "variables" [] (entries .notDictionary) place es))
  return ⟨program, options, bindings⟩

/-- The properties to be checked. -/
def props : Decoder Entries := fun place v => do
  fieldOr "props" [] (entries .notDictionary) place (← entries .notObject place v)

/-- Reads a whole body. A body that is empty is missing; a text may start with a byte order mark. -/
def body {α : Type} (decode : Decoder α) (text : String) : Except BodyFault α :=
  let place := [PlaceStep.field "body"]
  let text := match text.toList with
    | '\uFEFF' :: rest => String.ofList rest
    | _ => text
  if text.isEmpty then .error (.complaints [⟨place, .missing, .null⟩])
  else match Json.depthFault? text, Json.read text with
    | some _, _ | none, .error (.fault _) => .error .unreadable
    | none, .error (.malformed problem at_) =>
      .error (.complaints [⟨place ++ [.item at_.offset], .notJson problem.message, .mapping []⟩])
    | none, .ok v => match decode place v with
      | .ok a => .ok a
      | .error cs => .error (.complaints cs)

end Decoder

end BlockGraph.Service
