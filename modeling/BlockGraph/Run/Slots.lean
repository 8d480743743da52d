import BlockGraph.Block.Emission
import BlockGraph.Block.Logic
/-!
Slots: what the elements of a run remember, each its own entries, and the run-wide variables.
-/
namespace BlockGraph

/-- The slots of a run, in the order in which they came to be. -/
abbrev Slots := List (String × Entries)

namespace Slots

/-- The slot that holds the run-wide variables. -/
def globalId : String := "__global__"

/-- The slot of an element; one that was never opened is empty. -/
def slot (slots : Slots) (id : String) : Entries := (slots.lookup id).getD []

/-- Opens a slot, empty at first. -/
def opened (slots : Slots) (id : String) : Slots :=
  if slots.any (·.1 == id) then slots else slots ++ [(id, [])]

/-- Writes an entry of a slot, which is opened if need be. -/
def write (slots : Slots) (id : String) (key value : Value) : Slots :=
  (slots.opened id).map fun s => if s.1 == id then (s.1, Entries.write s.2 key value) else s

/-- Writes under a key of an element's slot; a blank key is refused. -/
def store (slots : Slots) (id : String) (key value : Value) : Except Fault Slots :=
  match key.name? with
  | some _ => .ok (slots.write id key value)
  | none => .error .blankKey

/-- Reads under a key of an element's slot. -/
def stored (slots : Slots) (id : String) (key default : Value) : Except Fault Value :=
  match key with
  | .text _ => .ok ((Entries.at? (slots.slot id) key).getD default)
  | _ => .error .keyNotText

/-- Writes a run-wide variable. Its slot is opened also when the name is refused. -/
def storeGlobal (slots : Slots) (name value : Value) : Option Fault × Slots :=
  match name.asKey with
  | .ok name => (none, slots.write globalId name value)
  | .error f => (some f, slots.opened globalId)

/-- Reads a run-wide variable. -/
def global (slots : Slots) (name default : Value) : Except Fault Value := do
  return (Entries.at? (slots.slot globalId) (← name.asKey)).getD default

/-- All slots as a mapping. -/
def toValue (slots : Slots) : Value :=
  .mapping (slots.map fun s => (.text s.1, .mapping s.2))

end Slots

namespace Context

/-- An input, or a default when it is missing or null. -/
def input (c : Context) (name default : Value) : Except Fault Value := do
  let v := (Entries.at? c.inputs (← name.asKey)).getD .null
  return if v.isNull then default else v

/-- A variable the run was started with, or null. -/
def variableOf (c : Context) (name : Value) : Except Fault Value := do
  return (Entries.at? c.bindings (← name.asKey)).getD .null

/-- A line for the run's log, told by the element. -/
def line (c : Context) (message : Value) : Except Fault String := do
  return "[" ++ c.elementId ++ "] " ++ (← message.plainText)

end Context

end BlockGraph
