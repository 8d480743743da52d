import BlockGraph.CommandLine.Arguments
import BlockGraph.Json.Reader
import BlockGraph.Value.Equality
/-!
Variables of a run as they are given on a command line: a name, an equals sign and a value.
-/
namespace BlockGraph.CommandLine

/-- Why variables are refused: a word that assigns nothing, or a fault of the value assigned. -/
inductive VariablesFault where
  | usage (f : UsageFault)
  | value (f : Fault)

/-- The value a text stands for: what it says as JSON, or else the text itself. -/
def assignedValue (text : String) : Except VariablesFault Value :=
  match Json.depthFault? text, Json.read text with
  | some f, _ | none, .error (.fault f) => .error (.value f)
  | none, .ok v => .ok v
  | none, .error (.malformed ..) => .ok (.text text)

/-- Adds what one word assigns; a name assigned again keeps its place. -/
def assign (done : Entries) (word : String) : Except VariablesFault Entries := do
  let cs := word.toList
  let name := Text.trim (String.ofList (cs.takeWhile (· != '=')))
  match cs.dropWhile (· != '=') with
  | _ :: value =>
    if name.isEmpty then .error (.usage (.notAnAssignment word))
    else return done.writeField name (← assignedValue (String.ofList value))
  | [] => .error (.usage (.notAnAssignment word))

/-- The variables that words assign. -/
def bindings (words : List String) : Except VariablesFault Entries := words.foldlM assign []

end BlockGraph.CommandLine
