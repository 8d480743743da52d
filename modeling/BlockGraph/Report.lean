import BlockGraph.Block.Registry
import BlockGraph.Graph.Cycle
/-!
Static checks of a program: everything that would keep it from running, without running it.
-/
namespace BlockGraph

/-- Findings about one program: errors keep it from running, warnings do not. -/
structure ProgramReport where
  errors : List String
  warnings : List String
  entryPoints : List String
  cycles : List (List String)
  orphans : List String
deriving DecidableEq

namespace ProgramReport

def isValid (r : ProgramReport) : Bool := r.errors.isEmpty

/-- The report of a graph that cannot even be built. -/
def ofFault (f : GraphFault) : ProgramReport := ⟨[f.message], [], [], [], []⟩

/-- What a registry has to say about one element. -/
def elementFindings (registry : Registry) (e : Element) :
    Except Fault (List String × List String) := do
  let found ← registry.checkProps (.text e.type) e.props
  let errors ← found.errors.mapM fun message => do
    return e.id ++ ": " ++ (← message.plainText)
  return (errors, found.warnings.map (e.id ++ ": " ++ ·))

def pathText (cycle : List String) : String := " -> ".intercalate cycle

/-- Checks every element of a graph, and the shape of the graph. -/
def ofGraph (g : Graph) (registry : Registry) : Except Fault ProgramReport := do
  let findings ← g.elements.mapM (elementFindings registry)
  let entryPoints := g.entryPoints
  let cycles := g.cycles
  let noEntry := if !g.elements.isEmpty && entryPoints.isEmpty then
      ["No entry points found - execution starts at the first element"]
    else []
  return {
    errors := findings.flatMap (·.1)
    warnings := findings.flatMap (·.2) ++ noEntry ++ cycles.map ("Cycle: " ++ pathText ·)
    entryPoints, cycles, orphans := g.orphans }

/-- Checks elements and connections keyed by their ids. -/
def ofValues (elements connections : Value) (registry : Registry) : Except Fault ProgramReport :=
  match Graph.ofValues elements connections with
  | .error (.value f) => .error f
  | .error f => .ok (ofFault f)
  | .ok g => ofGraph g registry

def ofProgram (p : Program) (registry : Registry) : Except Fault ProgramReport :=
  match Graph.ofProgram p with
  | .error (.value f) => .error f
  | .error f => .ok (ofFault f)
  | .ok g => ofGraph g registry

def toValue (r : ProgramReport) : Value :=
  let texts := fun (xs : List String) => Value.list (xs.map .text)
  .mapping [(.text "is_valid", .bool r.isValid), (.text "errors", texts r.errors),
    (.text "warnings", texts r.warnings), (.text "entry_points", texts r.entryPoints),
    (.text "cycles", .list (r.cycles.map texts)), (.text "orphans", texts r.orphans)]

end ProgramReport

end BlockGraph
