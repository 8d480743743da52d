import BlockGraph.Text.Blank
import BlockGraph.Value.Literal
/-!
Emissions: values produced on an output port.
-/
namespace BlockGraph

/-- A value on a named port. -/
structure Emission where
  port : String
  value : Value

namespace Emission

/-- The longest text that may be emitted. -/
def textLimit : Nat := 100000

/-- The longest list or tuple that may be emitted. -/
def arrayLimit : Nat := 10000

/-- A port and a value, checked: the port is a text with more than blanks, and the value is not too
large. -/
def ofParts (port value : Value) : Except Fault Emission :=
  match port with
  | .text s =>
    if Text.isBlankText s then .error .blankPort
    else match value with
      | .text t =>
        if textLimit < t.length then .error (.emittedTextTooLarge textLimit) else .ok ⟨s, value⟩
      | .list items | .tuple items =>
        if arrayLimit < items.length then .error (.emittedArrayTooLarge arrayLimit)
        else .ok ⟨s, value⟩
      | _ => .ok ⟨s, value⟩
  | _ => .error .blankPort

/-- An item that block logic produced: a pair of port and value, and nothing else. -/
def ofItem (item : Value) : Except Fault Emission :=
  match item with
  | .tuple [port, value] => ofParts port value
  | item => match item.literal with
    | .ok s => .error (.notAPair s)
    | .error f => .error f

/-- An emission as the pair that block logic hands over. -/
def toItem (e : Emission) : Value := .tuple [.text e.port, e.value]

end Emission

end BlockGraph
