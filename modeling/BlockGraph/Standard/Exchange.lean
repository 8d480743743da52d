import BlockGraph.Standard.Plan
/-!
Input and output blocks: printing tells the operator and the run's log, prompts are answered from the
variables of the run.
-/
namespace BlockGraph.Standard
open Plan

def print : StandardBlock where
  type := "print"
  displayName := "Print"
  category := .io
  inputs := ["message"]
  defaults := [("message", .text "Hello World")]
  description := "Outputs message to console"
  render := fun props =>
    Rendered.showing "PRINT" (Value.orElse (Entries.field props "message") (.text "output"))
  form := .deferred
  plan := do
    let message ← text (← inputOr "message" (.text "Hello World"))
    step (.announce message)
    store "output" (.text message)
    say ("Output: " ++ message)

/-- The value of a run variable; one that is missing, null or empty is answered by default. -/
def answered (bindings : Entries) (name : String) (default : Value) : Value :=
  match Entries.field bindings name with
  | .null => default
  | .text "" => default
  | v => v

def prompt : StandardBlock where
  type := "prompt"
  displayName := "Input"
  category := .io
  inputs := ["prompt"]
  outputs := ["value"]
  defaults := [("prompt", .text "Enter value:"), ("variable", .text "input"), ("default", .text "")]
  description := "Gets user input"
  render := fun props =>
    Rendered.showing "INPUT" (Value.orElse (Entries.field props "prompt") (.text "input"))
  plan := do
    let _ ← text (← inputOr "prompt" (.text "Enter value:"))
    let name ← text (← inputOr "variable" (.text "input"))
    let default ← inputOr "default" (.text "")
    let value ← text (answered (← read).context.bindings name default)
    store "result" (.text value)
    say ("Input: \"" ++ value ++ "\"")
    emit "value" (.text value)

/-- The input and output blocks in palette order. -/
def exchangeBlocks : List StandardBlock := [print, prompt]

end BlockGraph.Standard
