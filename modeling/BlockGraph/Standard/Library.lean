import BlockGraph.Block.Registry
import BlockGraph.Standard.Arithmetic
import BlockGraph.Standard.Comparison
import BlockGraph.Standard.Control
import BlockGraph.Standard.Data
import BlockGraph.Standard.Exchange
/-!
The standard library of blocks.
-/
namespace BlockGraph

/-- The standard blocks in palette order. -/
def standardBlocks : List StandardBlock :=
  Standard.dataBlocks ++ Standard.controlBlocks ++ Standard.mathBlocks ++ Standard.logicBlocks ++
    Standard.exchangeBlocks

namespace Registry

/-- A registry of the standard blocks alone. -/
def standard : Registry := ⟨standardBlocks.map fun b => (b.type, b.definition)⟩

/-- Registers drafts one after the other. The first that is refused ends it; those before it stay. -/
def addAll (r : Registry) : List (String × Draft) → Option RegistrationFault × Registry
  | [] => (none, r)
  | (type, draft) :: rest =>
    match (r.register (.text type) (.draft draft)).outcome.1 with
    | .ok (_, next) => addAll next rest
    | .error f => (some f, r)

/-- Registers the standard blocks. -/
def addStandard (r : Registry) : Option RegistrationFault × Registry :=
  r.addAll (standardBlocks.map fun b => (b.type, b.draft))

end Registry

end BlockGraph
