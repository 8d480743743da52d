import BlockGraph.Value.Equality
/-!
Block logic as data: the steps a block takes, the form in which it hands its items over, and what it
can see while it runs.
-/
namespace BlockGraph

/-- A length of time in milliseconds, exact; some waits never end. -/
inductive Span where
  | ms (length : Rat)
  | forever

/-- What one invocation of a block knows from the start. `run` names the store it writes to. -/
structure Context where
  elementId : String
  blockType : String
  inputs : Entries
  props : Entries
  bindings : Entries
  run : Nat

/-- One step of block logic. Steps that emit hand over an item and let the run go on downstream before
the next step is taken. -/
inductive Step where
  /-- Emit a value on a port, checked where it is emitted. -/
  | emit (port value : Value)
  /-- Hand over an item as it is; it is checked where it arrives. -/
  | item (value : Value)
  /-- Emit an input, or a default when it is missing or null. -/
  | emitInput (port name default : Value)
  | emitInputs (port : Value)
  | emitProps (port : Value)
  /-- Emit an entry of the element's own slot. -/
  | emitStored (port key default : Value)
  /-- Emit a run-wide variable set by a block. -/
  | emitGlobal (port name default : Value)
  /-- Emit a variable the run was started with. -/
  | emitVariable (port name : Value)
  /-- Emit which elements each element leads to. -/
  | emitTargets (port : Value)
  /-- Emit the slots of all elements. -/
  | emitSlots (port : Value)
  | emitSelf (port : Value)
  | store (key value : Value)
  | storeInput (key name : Value)
  | storeGlobal (name value : Value)
  /-- Write the text of a value to the run's log. -/
  | log (message : Value)
  | sleep (length : Span)
  /-- Sleep, and once more as long when cancelled meanwhile. -/
  | insist (length : Span)
  /-- Ask the run to stop. -/
  | stop
  /-- Take a block type out of the registry. -/
  | unregister (type : Value)
  | raise (f : Fault)
  /-- Tell the operator. -/
  | announce (message : String)
  /-- Use up the random draw that was seen at the start. -/
  | useDraw
  /-- Emit the numbers from `next` up while they are below the limit. -/
  | count (next : Nat) (limit : Number)
  /-- Emit turns while the condition holds, up to the limit, and a summary at the end. -/
  | turns (done : Nat) (limit : Number) (condition : Value)

/-- How logic hands its items over. -/
inductive Form where
  /-- One by one, and it may sleep between them. -/
  | stream
  /-- One by one, without sleeping. -/
  | sequence
  /-- All together, once it has run to its end; it may sleep on the way. -/
  | deferred
  /-- All together, having run to its end when it was started. -/
  | immediate
deriving DecidableEq, Repr

/-- What logic sees when it starts: its context, its element's slot, the run-wide variables, and the
next random draw, a number from zero up to one. -/
structure Sight where
  context : Context
  slot : Entries
  globals : Entries
  draw : Double

/-- The logic of a block. -/
inductive Logic where
  /-- Steps written down beforehand, and steps taken however they end. -/
  | script (form : Form) (steps closing : List Step)
  /-- A value handed over as the items. -/
  | constant (form : Form) (value : Value)
  /-- Steps planned from what is seen at the start. -/
  | planned (form : Form) (plan : Sight → List Step)

/-- Logic that does nothing. -/
def Logic.idle : Logic := .constant .deferred .null

def Logic.form : Logic → Form
  | .script form .. => form
  | .constant form _ => form
  | .planned form _ => form

end BlockGraph
