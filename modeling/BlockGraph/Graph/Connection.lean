import BlockGraph.Graph.Element
/-!
Connections: directed edges between elements, from an output port to an input port.
-/
namespace BlockGraph

/-- An edge. Without an output port it carries every emission of its source; without an input port it
delivers under the default one. -/
structure Connection where
  id : String
  source : String
  target : String
  output? : Option String
  input? : Option String
deriving DecidableEq

/-- Why a value describes no connection. -/
inductive ConnectionFault where
  | notAMapping
  | blankId
  | endpoints (id : String)
  | selfLoop (id element : String)
  | ports (id : String)

namespace ConnectionFault

def message : ConnectionFault → String
  | notAMapping => "Connection data must be a mapping"
  | blankId => "Connection id must be a non-empty string"
  | endpoints id => "Connection from_id and to_id must be strings for connection " ++ id
  | selfLoop id element => "Connection " ++ id ++ " cannot connect element " ++ element ++ " to itself"
  | ports id => "Connection port names must be strings for connection " ++ id

end ConnectionFault

namespace Connection

/-- A port name that may be left out. -/
def port? : Value → Option (Option String)
  | .null => some none
  | .text s => some (some s)
  | _ => none

def ofParts (id source target output input : Value) : Except ConnectionFault Connection := do
  let some id := id.name? | .error .blankId
  let some source := source.text? | .error (.endpoints id)
  let some target := target.text? | .error (.endpoints id)
  if source = target then .error (.selfLoop id source)
  else
    let some output? := port? output | .error (.ports id)
    let some input? := port? input | .error (.ports id)
    return { id, source, target, output?, input? }

/-- The value under the first of two spellings of a key that is present. -/
def either (entries : Entries) (key other : String) : Value :=
  (Entries.field? entries key).getD (Entries.field entries other)

/-- Reads a connection; each key may also be spelled the way the editor spells it. -/
def ofValue (data : Value) : Except ConnectionFault Connection :=
  match data with
  | .mapping entries =>
    ofParts (Entries.field entries "id") (either entries "from_id" "fromId")
      (either entries "to_id" "toId") (either entries "from_output" "fromOutput")
      (either entries "to_input" "toInput")
  | _ => .error .notAMapping

def optionalField (key : String) : Option String → Entries
  | some s => [(.text key, .text s)]
  | none => []

def toEntries (c : Connection) : Entries :=
  [(.text "id", .text c.id), (.text "from_id", .text c.source), (.text "to_id", .text c.target)] ++
    optionalField "from_output" c.output? ++ optionalField "to_input" c.input?

def toValue (c : Connection) : Value := .mapping c.toEntries

/-- Whether an emission on a port fires the connection. -/
def carries (c : Connection) (port : String) : Bool :=
  match c.output? with
  | none => true
  | some p => p == port

end Connection

end BlockGraph
