import BlockGraph.Graph.Program
/-!
Graphs: elements and connections that fit together, and what can be seen of them without running.
-/
namespace BlockGraph

/-- Elements and connections in declaration order. -/
structure Graph where
  elements : List Element
  connections : List Connection

/-- Why a graph cannot be built. Faults of the values themselves are passed on as they are. -/
inductive GraphFault where
  | elementsNotMapping
  | connectionsNotMapping
  | noRegistry
  | elementKey (key id : String)
  | connectionKey (key id : String)
  | element (cause : ElementFault)
  | connection (cause : ConnectionFault)
  | unknownSource (id : String)
  | unknownTarget (id : String)
  | value (f : Fault)

namespace GraphFault

def message : GraphFault → String
  | elementsNotMapping => "Elements must be a mapping of element id to element data"
  | connectionsNotMapping => "Connections must be a mapping of connection id to connection data"
  | noRegistry => "A BlockRegistry instance is required"
  | elementKey key id => "Element key " ++ key ++ " does not match element id " ++ Text.quoted id
  | connectionKey key id =>
    "Connection key " ++ key ++ " does not match connection id " ++ Text.quoted id
  | element cause => cause.message
  | connection cause => cause.message
  | unknownSource id => "Connection references non-existent from_id: " ++ id
  | unknownTarget id => "Connection references non-existent to_id: " ++ id
  | value f => f.message

end GraphFault

namespace Graph

def literalKey (key : Value) : Except GraphFault String :=
  match key.literal with
  | .ok s => .ok s
  | .error f => if f.kind = .value then .error (.element (.value f)) else .error (.value f)

def elementOf (entry : Value × Value) : Except GraphFault Element := do
  match Element.ofValue entry.2 with
  | .error cause =>
    match cause with
    | .value f => if f.kind = .value then .error (.element cause) else .error (.value f)
    | cause => .error (.element cause)
  | .ok e =>
    if entry.1.eq (.text e.id) then return e
    else .error (.elementKey (← literalKey entry.1) e.id)

def connectionOf (entry : Value × Value) : Except GraphFault Connection := do
  match Connection.ofValue entry.2 with
  | .error cause => .error (.connection cause)
  | .ok c =>
    if entry.1.eq (.text c.id) then return c
    else .error (.connectionKey (← literalKey entry.1) c.id)

/-- Every connection joins two elements of the graph; the first that does not is refused. -/
def checkEndpoints (g : Graph) : Except GraphFault Unit :=
  g.connections.forM fun c =>
    if !g.elements.any (·.id == c.source) then .error (.unknownSource c.source)
    else if !g.elements.any (·.id == c.target) then .error (.unknownTarget c.target)
    else .ok ()

/-- A graph from elements and connections keyed by their ids. -/
def ofValues (elements connections : Value) : Except GraphFault Graph := do
  match elements, connections with
  | .mapping es, .mapping cs =>
    let g : Graph := ⟨← es.mapM elementOf, ← cs.mapM connectionOf⟩
    g.checkEndpoints
    return g
  | .mapping _, _ => .error .connectionsNotMapping
  | _, _ => .error .elementsNotMapping

/-- The graph of a program, whose ids are known to be distinct. -/
def ofProgram (p : Program) : Except GraphFault Graph := do
  let g : Graph := ⟨p.elements, p.connections⟩
  g.checkEndpoints
  return g

def element? (g : Graph) (id : String) : Option Element :=
  g.elements.find? (·.id == id)

/-- The connections that leave an element, in declaration order. -/
def outgoing (g : Graph) (id : String) : List Connection :=
  g.connections.filter (·.source == id)

/-- The connections that reach an element, in declaration order. -/
def incoming (g : Graph) (id : String) : List Connection :=
  g.connections.filter (·.target == id)

/-- The targets of each element that has any. -/
def targets (g : Graph) : List (String × List String) :=
  g.elements.filterMap fun e =>
    match g.outgoing e.id with
    | [] => none
    | out => some (e.id, out.map (·.target))

/-- Elements that no connection reaches, in declaration order. -/
def entryPoints (g : Graph) : List String :=
  (g.elements.filter fun e => !g.connections.any (·.target == e.id)).map (·.id)

/-- Elements that no connection touches. -/
def orphans (g : Graph) : List String :=
  (g.elements.filter fun e =>
    !g.connections.any fun c => c.target == e.id || c.source == e.id).map (·.id)

end Graph

end BlockGraph
