import BlockGraph.Block.Emission
import BlockGraph.Fault
import BlockGraph.Number.Decimal
import BlockGraph.Run.Options
/-!
What happens in a run, who is told, and why a run fails.
-/
namespace BlockGraph

/-- The lifecycle of a run. -/
inductive Status where
  | idle
  | running
  | completed
  | failed
  | stopped
deriving DecidableEq, Repr

def Status.name : Status → String
  | .idle => "idle"
  | .running => "running"
  | .completed => "completed"
  | .failed => "failed"
  | .stopped => "stopped"

/-- Why a run fails, or is not even started. -/
inductive RunFault where
  | inProgress
  | shuttingDown
  | unknownType (element type : String)
  | rejected (element type complaint : String) (cause? : Option Fault)
  | typeGone (element type : String)
  | block (element type : String) (cause : Fault)
  | budget (steps limit : Int)
  | runTimeout (ms : Double)
  | blockTimeout (element : String) (ms : Double)
  | value (f : Fault)

namespace RunFault

/-- The name by which a kind of failure is told. -/
def name : RunFault → String
  | inProgress | shuttingDown => "ConcurrencyError"
  | unknownType .. | rejected .. | typeGone .. => "GraphValidationError"
  | block .. => "BlockExecutionError"
  | budget .. => "BudgetExceededError"
  | runTimeout _ | blockTimeout .. => "ExecutionTimeoutError"
  | value f => f.kind.name

def message : RunFault → String
  | inProgress => "Execution already in progress - cannot start new execution"
  | shuttingDown => "Previous execution is still shutting down - cannot start new execution"
  | unknownType element type =>
    "Unknown block type \"" ++ type ++ "\" for element " ++ element ++
      " - ensure all required blocks are registered"
  | rejected element _ complaint _ => "Validation error in element " ++ element ++ ": " ++ complaint
  | typeGone element type => "Unknown block type: " ++ type ++ " for element " ++ element
  | block element type cause =>
    "Error executing element " ++ element ++ " (" ++ type ++ "): " ++ cause.message
  | budget steps limit =>
    "Maximum execution steps exceeded (" ++ toString steps ++ " > " ++ toString limit ++ ")"
  | runTimeout ms => "Execution timeout after " ++ ms.briefText ++ "ms"
  | blockTimeout element ms =>
    "Block execution timeout (" ++ ms.briefText ++ "ms) for element " ++ element
  | value f => f.message

/-- The element at fault, when there is one. -/
def element? : RunFault → Option String
  | unknownType element _ | rejected element .. | typeGone element _ | block element ..
  | blockTimeout element _ => some element
  | _ => none

/-- The fault that a failure was raised from. -/
def cause? : RunFault → Option Fault
  | rejected _ _ _ cause? => cause?
  | block _ _ cause => some cause
  | _ => none

end RunFault

/-- What a listener is told. -/
inductive Event where
  | start (element : String)
  | complete (element : String)
  | traverse (connection : String)
  | log (line : String)
  | error (f : RunFault)

def Event.kind : Event → EventKind
  | .start _ => .start
  | .complete _ => .complete
  | .traverse _ => .traverse
  | .log _ => .log
  | .error _ => .error

/-- What happens in a run, whether or not anyone listens. -/
inductive Happening where
  /-- An entry point is turned to. -/
  | entered (element : String)
  /-- A visit is counted, while the run is active or not. -/
  | attempted (active : Bool)
  | started (element : String)
  | emitted (element : String) (e : Emission)
  | traversed (connection : String)
  | completed (element : String)
  /-- The traversal comes to a failure. -/
  | failed (f : RunFault)

/-- What a listener may do when it is told something. -/
inductive Reaction where
  | stop
  | reset
  | raise (f : Fault)

/-- A listener: a number to tell it by, and what it does. -/
structure Listener where
  number : Nat
  react : Event → List Reaction

/-- A listener that only listens. -/
def Listener.silent : Listener := ⟨0, fun _ => []⟩

end BlockGraph
