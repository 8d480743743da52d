import BlockGraph.Graph.Connection
import BlockGraph.Json.Reader
import BlockGraph.Json.Writer
import BlockGraph.Text.Utf8
/-!
Program documents: elements and connections in document order, read from values or JSON text and
written back.
-/
namespace BlockGraph

structure Program where
  elements : List Element
  connections : List Connection

/-- Why a value describes no program. -/
inductive ProgramFault where
  | notAnObject
  | noArray (key : String)
  | element (place : String) (cause : ElementFault)
  | duplicateElement (id : String)
  | connection (place : String) (cause : ConnectionFault)
  | duplicateConnection (id : String)
  | value (f : Fault)

namespace ProgramFault

def message : ProgramFault → String
  | notAnObject => "Program must be an object"
  | noArray key => "Program must contain a " ++ key ++ " array"
  | element place cause => "Invalid element at " ++ place ++ ": " ++ cause.message
  | duplicateElement id => "Duplicate element id: " ++ id
  | connection place cause => "Invalid connection at " ++ place ++ ": " ++ cause.message
  | duplicateConnection id => "Duplicate connection id: " ++ id
  | value f => f.message

def kind : ProgramFault → FaultKind
  | value f => f.kind
  | _ => .value

end ProgramFault

namespace Program

/-- Entries of a document, either listed or keyed by id. Each comes with the words that name its
place. -/
def entriesUnder (document : Entries) (key : String) :
    Except ProgramFault (List (Except Fault String × Value)) :=
  match (Entries.field? document key).getD (.list []) with
  | .mapping entries => .ok (entries.map fun e => ((e.1.literal).map (key ++ " " ++ ·), e.2))
  | .list items =>
    .ok (items.mapIdx fun i v => (.ok (key ++ "[" ++ i.repr ++ "]"), v))
  | _ => .error (.noArray key)

def place (label : Except Fault String) : Except ProgramFault String :=
  match label with
  | .ok s => .ok s
  | .error f => .error (.value f)

/-- Adds one element. A fault of what the entry holds is reported with its place, any other as it is. -/
def addElement (p : Program) (e : Except Fault String × Value) : Except ProgramFault Program := do
  let label ← place e.1
  match Element.ofValue e.2 with
  | .error cause =>
    match cause.kind, cause with
    | .type, .value f | .recursion, .value f => .error (.value f)
    | _, cause => .error (.element label cause)
  | .ok element =>
    if p.elements.any (·.id == element.id) then .error (.duplicateElement element.id)
    else return { p with elements := p.elements ++ [element] }

def addConnection (p : Program) (e : Except Fault String × Value) : Except ProgramFault Program := do
  let label ← place e.1
  match Connection.ofValue e.2 with
  | .error cause => .error (.connection label cause)
  | .ok connection =>
    if p.connections.any (·.id == connection.id) then .error (.duplicateConnection connection.id)
    else return { p with connections := p.connections ++ [connection] }

/-- Reads a program document. -/
def ofValue (document : Value) : Except ProgramFault Program :=
  match document with
  | .mapping entries => do
    let elements ← entriesUnder entries "elements"
    let p ← elements.foldlM addElement ⟨[], []⟩
    let connections ← entriesUnder entries "connections"
    connections.foldlM addConnection p
  | _ => .error .notAnObject

def toValue (p : Program) : Value :=
  .mapping [(.text "elements", .list (p.elements.map Element.toValue)),
    (.text "connections", .list (p.connections.map Connection.toValue))]

/-- The block types used, each once, in order of first use. -/
def blockTypes (p : Program) : List String :=
  p.elements.foldl (fun types e => if types.contains e.type then types else types ++ [e.type]) []

/-- Why a file holds no program. -/
inductive LoadFault where
  | missing (path : String)
  | notText (cause : Text.ByteFault)
  | notJson (path : String) (cause : Json.ReadFault)
  | program (cause : ProgramFault)

def LoadFault.message : LoadFault → String
  | .missing path => "[Errno 2] No such file or directory: " ++ Text.quoted path
  | .notText cause => cause.message
  | .notJson path cause =>
    match cause with
    | .fault f => f.message
    | _ => "Invalid JSON in " ++ path ++ ": " ++ cause.message
  | .program cause => cause.message

/-- The kind of fault that a file without a program gives. -/
def LoadFault.kind : LoadFault → FaultKind
  | .notJson _ (.fault f) => f.kind
  | .program cause => cause.kind
  | _ => .value

/-- Whether the file is refused for what it holds. Other faults are those of the library itself. -/
def LoadFault.isRefusal (f : LoadFault) : Bool := f.kind = .value

/-- The program in a JSON text; `path` names the text in messages, and lines may end in any way. -/
def ofText (path text : String) : Except LoadFault Program :=
  match Json.read (String.ofList (Text.unifiedBreaks text.toList)) with
  | .error cause => .error (.notJson path cause)
  | .ok document => match ofValue document with
    | .ok p => .ok p
    | .error cause => .error (.program cause)

/-- The program in a file, whose contents may fail to be text and may be nested too deep. -/
def ofFile (path : String) (contents : Except Text.ByteFault String) : Except LoadFault Program :=
  match contents with
  | .error cause => .error (.notText cause)
  | .ok text => match Json.depthFault? text with
    | some f => .error (.notJson path (.fault f))
    | none => ofText path text

/-- What saving puts into a file that was emptied before, and the fault that stopped it, if any. -/
def saved (p : Program) : Option Fault × String :=
  Json.written .indented Json.refuse p.toValue

/-- Saving over a file: it is emptied, then the document is written piece by piece. -/
def save (p : Program) : Json.Writer Unit := do
  set ""
  Json.write .indented Json.refuse 0 p.toValue

end Program

end BlockGraph
