import BlockGraph.Report
import BlockGraph.Run.Snapshot
import BlockGraph.Run.World
import BlockGraph.Service.Answer
import BlockGraph.Service.Body
import BlockGraph.Service.Endpoint
/-!
The service: one registry, and how requests about it are answered.
-/
namespace BlockGraph.Service

/-- What a service keeps between requests; `clock` stands for its readings of the clock. -/
structure Site where
  registry : Registry
  draws : Draws
  journal : List JournalEntry
  clock : Value

namespace Site

/-- A service that starts to serve a registry. -/
def ofRegistry (registry : Registry) (draws : List Double) (clock : Value) : Site where
  registry
  draws := ⟨draws, 0⟩
  journal :=
    [⟨.info, "server", "API serving " ++ registry.blocks.length.repr ++ " block types"⟩]
  clock

end Site

/-- Why there is no plain answer: a rejection, or a fault that nothing answers. -/
inductive Failure where
  | rejected (r : Rejection)
  | fault (f : Fault)

/-- The work on a request. -/
abbrev Work := ExceptT Failure (StateM Site)

def reject {α : Type} (status : Nat) (detail : String) : Work α :=
  throw (.rejected (.ofText status detail))

def ofExcept {α : Type} : Except Fault α → Work α
  | .ok a => pure a
  | .error f => throw (.fault f)

/-- The body of a request, read as a decoder says. -/
def readBody {α : Type} (decode : Decoder α) (text : String) : Work α :=
  match decode.body text with
  | .ok a => pure a
  | .error .unreadable => reject 400 "There was an error parsing the body"
  | .error (.complaints cs) =>
    throw (.rejected ⟨422, published (.list (cs.map (·.toValue)))⟩)

/-- A block type with the preview of its default properties. A preview that fails is reported to the
operator and left out. -/
def describe (type : String) (d : BlockDefinition) : Work Value := do
  let preview ← match d.preview d.defaults with
    | .ok p => pure (.mapping p.toEntries)
    | .error f => do
      let entry := JournalEntry.mk .warning "routes"
        ("Render preview failed for " ++ type ++ ": " ++ f.message)
      modify fun s => { s with journal := s.journal ++ [entry] }
      pure .null
  let texts := fun (xs : List String) => Value.list (xs.map .text)
  let optional := fun (s? : Option String) => s?.elim Value.null .text
  let props ← ofExcept (Value.plain Value.plainDepth (.mapping d.defaults))
  return .mapping [
    (.text "type", .text type), (.text "display_name", .text d.displayName),
    (.text "category", .text d.category.name), (.text "inputs", texts d.inputs),
    (.text "outputs", texts d.outputs), (.text "default_props", props),
    (.text "description", .text d.description), (.text "version", .text d.version),
    (.text "color", optional d.color?), (.text "icon", optional d.icon?),
    (.text "author", optional d.author?), (.text "is_circular", .bool d.isCircular),
    (.text "capabilities", texts d.supplied.names), (.text "preview", preview)]

/-- The program in a document. -/
def programOf (document : Value) : Work Program :=
  match Program.ofValue document with
  | .ok p => return p
  | .error (.value f) => if f.kind = .value then reject 400 f.message else throw (.fault f)
  | .error f => reject 400 f.message

/-- The graph of a program. -/
def graphOf (p : Program) : Work Graph :=
  match Graph.ofProgram p with
  | .ok g => pure g
  | .error (.value f) => throw (.fault f)
  | .error f => reject 400 f.message

/-- The detail of a failed run: what failed, and the state it left behind. -/
def failureDetail (f : RunFault) (state : Value) : Value :=
  .mapping [(.text "error", .text f.name), (.text "message", .text f.message),
    (.text "element_id", f.element?.elim .null .text), (.text "state", state)]

/-- Runs a program once. -/
def runProgram (b : RunBody) : Work Value := do
  let p ← programOf b.program
  let options ← match Options.ofGiven b.options with
    | .ok o => pure o
    | .error f => reject 400 ("Invalid options: " ++ f.message)
  let graph ← graphOf p
  let site ← get
  let session := { Session.ofGraph graph site.registry [] with draws := site.draws }
  let request : Request := ⟨.ok options, .mapping b.bindings, Listener.silent⟩
  let (replies, final) := World.play session [(.execute request : Command Unit)]
  set { site with
    registry := final.registry, draws := final.draws, journal := site.journal ++ final.journal.toList }
  let (ended, failure?) := match replies with
    | [.executed ⟨.failed f, ended, _, _⟩] => (ended, some f)
    | [.executed e] => (e.session, none)
    | _ => (final, none)
  match failure? with
  | some (.value f) => throw (.fault f)
  | some f =>
    let state ← ofExcept (ended.toValue site.clock)
    throw (.rejected ⟨failureStatus f, failureDetail f state⟩)
  | none =>
    let state ← ofExcept (ended.toValue site.clock)
    return .mapping [(.text "state", state), (.text "stats", ended.stats site.clock)]

/-- A request; the path may have percent escapes. -/
structure Call where
  method : String
  path : String
  query : String
  body : String

/-- What an endpoint says to a request. -/
def Endpoint.content (e : Endpoint) (call : Call) : Work Value := do
  let registry := (← get).registry
  match e with
  | root => return .mapping [(.text "service", .text "Blockflow"), (.text "version", .text "0.1.0"),
      (.text "status", .text "running")]
  | health => return .mapping [(.text "status", .text "healthy"),
      (.text "block_types", .int registry.blocks.length)]
  | blocks =>
    let listed ← match queryValue? call.query "category" with
      | none => pure registry.blocks
      | some category => match registry.byCategory (.text category) with
        | .ok found => pure found
        | .error f => reject 400 f.message
    let shown ← listed.mapM fun (type, d) => describe type d
    return .mapping [(.text "blocks", .list shown)]
  | stats => return .mapping registry.stats
  | block type => match registry.find? type with
    | some d => describe type d
    | none => reject 404 ("Block type \"" ++ type ++ "\" is not registered")
  | propsCheck type =>
    let props ← readBody Decoder.props call.body
    return (← ofExcept (registry.checkProps (.text type) props)).toValue
  | programCheck =>
    let p ← programOf (← readBody Decoder.program call.body)
    return (← ofExcept (ProgramReport.ofProgram p registry)).toValue
  | programRun => runProgram (← readBody Decoder.run call.body)

/-- What is said to a request. -/
def content (call : Call) : Work Value :=
  let found := Endpoint.atPath (Text.percentDecoded call.path)
  match found.find? (·.method == call.method) with
  | some e => e.content call
  | none => throw (.rejected (if found.isEmpty then .notFound else .wrongMethod))

/-- A request with the path at which it is answered. One whose path differs from that of an endpoint
only in the slash at its end is sent on to that endpoint. -/
def Call.sentOn (call : Call) : Call :=
  let path := Text.percentDecoded call.path
  let other := Endpoint.otherEnding path
  if path != "/" && (Endpoint.atPath path).isEmpty && !(Endpoint.atPath other).isEmpty then
    { call with path := other }
  else call

/-- An answer as its caller gets it; one that asked for the head alone gets no body. -/
def Answer.sentTo (a : Answer) (call : Call) : Answer :=
  if call.method == "HEAD" then { a with body := "" } else a

/-- Answers one request; a fault that nothing answers is passed on. -/
def answer (call : Call) : StateM Site (Except Fault Answer) := do
  let sent := fun (a : Except Fault Answer) => a.map (·.sentTo call)
  match ← (content call.sentOn).run with
  | .ok v => return sent (Answer.ofContent 200 (published v))
  | .error (.rejected r) => return sent (Answer.ofContent r.status r.content)
  | .error (.fault f) => return .error f

end BlockGraph.Service
