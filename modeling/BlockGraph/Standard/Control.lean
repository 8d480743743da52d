import BlockGraph.Standard.Plan
/-!
Control blocks: branching, loops, return and delay.
-/
namespace BlockGraph.Standard
open Plan

def functionBlock : StandardBlock where
  type := "function"
  displayName := "Function"
  category := .control
  inputs := ["input"]
  outputs := ["output"]
  defaults := [("name", .text "fn"), ("params", .text "")]
  description := "Function definition block"
  render := fun props =>
    Rendered.showing "FN" (Value.orElse (Entries.field props "name") (.text "function"))
  plan := do
    let value ← input "input"
    store "result" value
    say ("Function " ++ (← text (← input "name")) ++ ": processing input")
    emit "output" value

/-- The text of the truth of a value. -/
def truthText (v : Value) : String := if v.isTrue then "true" else "false"

def ifBlock : StandardBlock where
  type := "if"
  displayName := "If"
  category := .control
  inputs := ["condition"]
  outputs := ["true", "false"]
  defaults := [("condition", .bool true)]
  description := "Conditional branching"
  render := fun props =>
    Rendered.plain "IF" ("condition: " ++ truthText (Entries.field props "condition"))
  plan := do
    let condition ← input "condition"
    say ("If condition: " ++ truthText condition)
    emit (truthText condition) condition

def ifAssign : StandardBlock where
  type := "if_assign"
  displayName := "If Assign"
  category := .control
  inputs := ["condition", "trueValue", "falseValue"]
  outputs := ["result"]
  description := "Assigns different values based on condition"
  render := fun _ => Rendered.plain "IF=" "condition ? a : b"
  plan := do
    let condition ← input "condition"
    let result ← input (if condition.isTrue then "trueValue" else "falseValue")
    store "result" result
    say ("If assign: condition=" ++ truthText condition ++ ", result=" ++ (← json result))
    emit "result" result

/-- Items of a list one by one, each told with its number. -/
def eachItem (total : Nat) : Nat → List Value → Plan Unit
  | _, [] => return ()
  | done, item :: rest => do
    say ("Loop iteration " ++ (done + 1).repr ++ "/" ++ total.repr)
    emit "item" item
    eachItem total (done + 1) rest

def loop : StandardBlock where
  type := "loop"
  displayName := "Loop"
  category := .control
  inputs := ["items"]
  outputs := ["item"]
  defaults := [("count", .int 3)]
  description := "Iterates over collection"
  render := fun props => do
    let count ← (Entries.fieldOr props "count" (.text "∞")).toText
    Rendered.plain "LOOP" ("×" ++ count)
  plan := do
    match ← input "items" with
    | .list items => eachItem items.length 0 items
    | _ => step (.count 0 (← number "count" 3))

def whileLoop : StandardBlock where
  type := "while_loop"
  displayName := "While Loop"
  category := .control
  inputs := ["condition"]
  outputs := ["body", "done"]
  defaults := [("maxIterations", .int 100)]
  description := "Loops while condition is true"
  render := fun props => do
    let limit ← (Entries.fieldOr props "maxIterations" (.int 100)).toText
    Rendered.plain "WHILE" ("max: " ++ limit)
  plan := do
    step (.turns 0 (← number "maxIterations" 100) (← input "condition"))

/-- No range loop takes more turns than this. -/
def rangeLimit : Nat := 1000

/-- The turns of a range loop that are left, then the summary. -/
def rangeTurns («end» increment : Number) : Nat → Nat → Number → Plan Unit
  | left, done, current => do
    let goesOn := if increment.isPositive then current.lt «end» else Number.lt «end» current
    match left, goesOn with
    | left + 1, true =>
      say ("For loop iteration " ++ (done + 1).repr ++ ": i = " ++ (← numberText current))
      emit "body" (.mapping [(.text "index", .ofNumber current),
        (.text "iteration", .int (done + 1 : Nat))])
      rangeTurns «end» increment left (done + 1) (← of (current.add increment))
    | _, _ =>
      say ("For loop completed after " ++ done.repr ++ " iterations")
      emit "done" (.mapping [(.text "iterations", .int done),
        (.text "finalValue", .ofNumber current)])

def forRange : StandardBlock where
  type := "for_range"
  displayName := "For Range"
  category := .control
  inputs := ["start", "end", "step"]
  outputs := ["body", "done"]
  defaults := [("start", .int 0), ("end", .int 10), ("step", .int 1)]
  description := "Loops from start to end with step"
  render := fun props => do
    let first ← (Entries.fieldOr props "start" (.int 0)).toText
    let last ← (Entries.fieldOr props "end" (.int 10)).toText
    Rendered.plain "FOR" (first ++ ".." ++ last)
  plan := do
    let first ← number "start" 0
    let last ← number "end" 10
    let increment ← number "step" 1
    if increment.isZero then
      say "Step cannot be zero"
      emit "done" (.mapping [(.text "error", .text "Invalid step value")])
    else rangeTurns last increment rangeLimit 0 first

def returnBlock : StandardBlock where
  type := "return"
  displayName := "Return"
  category := .control
  inputs := ["value"]
  defaults := [("value", .null)]
  description := "Returns a value from function"
  render := fun props => Rendered.showing "RETURN" (Entries.field props "value")
  form := .deferred
  plan := do
    let value ← input "value"
    say ("Return: " ++ (← json value))
    store "return" value

/-- How long a delay of so many milliseconds takes: nothing for a number that is not positive. -/
def delayOf (ms : Number) : Except Fault Span := do
  if !ms.isPositive then return .ms 0
  let seconds ← ms.div (.int 1000)
  match seconds.units? with
  | some u => return .ms (mkRat (u * 1000) Double.unitsPerOne)
  | none => return .forever

def delay : StandardBlock where
  type := "delay"
  displayName := "Delay"
  category := .control
  inputs := ["trigger"]
  outputs := ["done"]
  defaults := [("ms", .int 1000)]
  description := "Delays execution for specified time"
  render := fun props => do
    let ms ← (Entries.fieldOr props "ms" (.int 1000)).toText
    Rendered.plain "DELAY" (ms ++ "ms")
  plan := do
    let ms ← number "ms" 1000
    say ("Delaying for " ++ (← numberText ms) ++ "ms")
    step (.sleep (← of (delayOf ms)))
    say "Delay completed"
    emit "done" (.bool true)

/-- The control blocks in palette order. -/
def controlBlocks : List StandardBlock :=
  [functionBlock, ifBlock, ifAssign, loop, whileLoop, forRange, returnBlock, delay]

end BlockGraph.Standard
