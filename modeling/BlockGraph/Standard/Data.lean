import BlockGraph.Standard.Plan
/-!
Data blocks: variables, arrays, objects, counters and texts.
-/
namespace BlockGraph.Standard
open Plan

def storedValue : StandardBlock where
  type := "variable"
  displayName := "Variable"
  category := .data
  outputs := ["value"]
  defaults := [("name", .text "var"), ("value", .int 0)]
  description := "Stores a single value"
  render := fun props => do
    let name ← (Value.orElse (Entries.field props "name") (.text "variable")).toText
    let value := Entries.field props "value"
    let shown ← if value.isNull then pure "" else value.toText
    return .preview (.text "VAR") (.text name) (.text shown)
  plan := do
    let value ← inputOr "value" (← inputOr "name" (.text "undefined"))
    store "value" value
    say ("Variable value: " ++ (← text value))
    emit "value" value

/-- Writes the run-wide variable that `getVariable` reads. -/
def setVariable : StandardBlock where
  type := "set_variable"
  displayName := "Set Variable"
  category := .data
  inputs := ["target", "value"]
  outputs := ["result"]
  defaults := [("name", .text "myVar")]
  description := "Assigns a value to a variable"
  render := fun props => do
    let name ← (Value.orElse (Entries.field props "name") (.text "var")).plainText
    Rendered.plain "SET" (name ++ " = ?")
  plan := do
    let target := (← input "target").orElse (.text "variable")
    let name ← text ((← input "name").orElse target)
    let value ← input "value"
    step (.storeGlobal (.text name) value)
    store "result" value
    say ("Set " ++ name ++ " = " ++ (← json value))
    emit "result" value

def getVariable : StandardBlock where
  type := "get_variable"
  displayName := "Get Variable"
  category := .data
  outputs := ["value"]
  defaults := [("name", .text "myVar")]
  description := "Gets the current value of a variable"
  render := fun props =>
    Rendered.showing "GET" (Value.orElse (Entries.field props "name") (.text "var"))
  plan := do
    let name ← text ((← input "name").orElse (.text "variable"))
    let value := Entries.field (← read).globals name
    store "value" value
    say ("Get " ++ name ++ " = " ++ (← json value))
    emit "value" value

/-- The number of items of a list or tuple; other values have none. -/
def itemCount : Value → Nat
  | .list items | .tuple items => items.length
  | _ => 0

def firstItems : Value := .list [.int 1, .int 2, .int 3]

def array : StandardBlock where
  type := "array"
  displayName := "Array"
  category := .data
  outputs := ["items"]
  defaults := [("items", firstItems)]
  description := "Stores an array of values"
  render := fun props =>
    Rendered.plain "ARRAY" ("[" ++ (itemCount (Entries.field props "items")).repr ++ "]")
  plan := do
    let items ← inputOr "items" firstItems
    store "items" items
    say ("Array with " ++ (items.list?.getD []).length.repr ++ " items")
    emit "items" items

/-- An array with one more item; anything else is taken as an empty array. -/
def pushed (source item : Value) : List Value :=
  (source.list?.getD []) ++ [item]

def arrayPush : StandardBlock where
  type := "array_push"
  displayName := "Array Push"
  category := .data
  inputs := ["array", "item"]
  outputs := ["result"]
  description := "Adds an item to the end of an array"
  render := fun _ => Rendered.plain "PUSH" "array.push(item)"
  plan := do
    let item ← input "item"
    let result := pushed (← input "array") item
    store "result" (.list result)
    say ("Pushed " ++ (← json item) ++ " to array (length: " ++ result.length.repr ++ ")")
    emit "result" (.list result)

/-- An array without its last item, and that item. -/
def popped? : Value → Option (List Value × Value)
  | .list items => items.getLast?.map fun item => (items.dropLast, item)
  | _ => none

def arrayPop : StandardBlock where
  type := "array_pop"
  displayName := "Array Pop"
  category := .data
  inputs := ["array"]
  outputs := ["remaining", "item"]
  description := "Removes and returns the last item from an array"
  render := fun _ => Rendered.plain "POP" "array.pop()"
  plan := do
    let source ← input "array"
    match popped? source with
    | none =>
      say "Cannot pop from empty or non-array"
      emit "remaining" source
      emit "item" .null
    | some (remaining, item) =>
      store "remaining" (.list remaining)
      store "item" item
      say ("Popped " ++ (← json item) ++ " from array")
      emit "remaining" (.list remaining)
      emit "item" item

/-- The position that a number stands for: none when it is negative or has a fraction. An integer that
is asked for its fraction has to be in the range of doubles. -/
def position? (index : Number) : Except Fault (Option Nat) := do
  let x ← index.toDouble
  if !x.isIntegral || index.isNegative then return none
  match index with
  | .int n => return some n.toNat
  | .float x => return x.truncate?.map Int.toNat

/-- The item at a position; null where there is none. -/
def itemAt (source : Value) (index : Number) : Except Fault Value := do
  match source with
  | .list items => match ← position? index with
    | some i => return items.getD i .null
    | none => return .null
  | _ => return .null

def arrayGet : StandardBlock where
  type := "array_get"
  displayName := "Array Get"
  category := .data
  inputs := ["array", "index"]
  outputs := ["value"]
  defaults := [("index", .int 0)]
  description := "Gets an item from an array by index"
  render := fun props => do
    let index ← (Entries.fieldOr props "index" (.int 0)).toText
    Rendered.plain "GET" ("array[" ++ index ++ "]")
  plan := do
    let index ← number "index" 0
    let value ← of (itemAt (← input "array") index)
    store "value" value
    say ("Get array[" ++ (← numberText index) ++ "] = " ++ (← json value))
    emit "value" value

/-- No list grows beyond this length. -/
def lengthLimit : Nat := Nat.pow 2 30

/-- An array with an item replaced, lengthened with nulls up to it; anything else is taken as an empty
array. -/
def withItem (source : Value) (index : Number) (value : Value) : Except Fault (List Value) := do
  let items := source.list?.getD []
  if !Number.le (.int 0) index then return items
  match ← position? index with
  | none => return items
  | some i =>
    let missing := i + 1 - items.length
    if Nat.pow 2 63 ≤ missing then throw .indexTooLarge
    else if lengthLimit < missing then throw .outOfMemory
    else return (items ++ List.replicate missing Value.null).set i value

def arraySet : StandardBlock where
  type := "array_set"
  displayName := "Array Set"
  category := .data
  inputs := ["array", "index", "value"]
  outputs := ["result"]
  defaults := [("index", .int 0)]
  description := "Sets an item in an array by index"
  render := fun props => do
    let index ← (Entries.fieldOr props "index" (.int 0)).toText
    Rendered.plain "SET" ("array[" ++ index ++ "] = ?")
  plan := do
    let index ← number "index" 0
    let value ← input "value"
    let result ← of (withItem (← input "array") index value)
    store "result" (.list result)
    say ("Set array[" ++ (← numberText index) ++ "] = " ++ (← json value))
    emit "result" (.list result)

def object : StandardBlock where
  type := "object"
  displayName := "Object"
  category := .data
  outputs := ["object"]
  defaults := [("properties", .mapping [])]
  description := "Creates an object with properties"
  render := fun props => do
    let count ← (Value.orElse (Entries.field props "properties") (.mapping [])).length
    Rendered.plain "OBJ" ("\x7b" ++ count.repr ++ "\x7d")
  plan := do
    let properties ← inputOr "properties" (.mapping [])
    store "object" properties
    let count := match properties with
      | .mapping entries => entries.length
      | _ => 0
    say ("Object created with " ++ count.repr ++ " properties")
    emit "object" properties

/-- The text of the key that an object block works on. -/
def objectKey : Plan String := do
  text (← inputOr "key" (.text "property"))

/-- How previews show the key of an object block. -/
def keyPreview (props : Entries) : Except Fault String := do
  return "obj." ++ (← (Value.orElse (Entries.field props "key") (.text "prop")).plainText)

/-- The entry of an object; null where there is none. -/
def entryAt (source : Value) (key : String) : Value :=
  match source with
  | .mapping entries => Entries.field entries key
  | _ => .null

def objectGet : StandardBlock where
  type := "object_get"
  displayName := "Object Get"
  category := .data
  inputs := ["object", "key"]
  outputs := ["value"]
  defaults := [("key", .text "property")]
  description := "Gets a property value from an object"
  render := fun props => do Rendered.plain "GET" (← keyPreview props)
  plan := do
    let key ← objectKey
    let value := entryAt (← input "object") key
    store "value" value
    say ("Get object." ++ key ++ " = " ++ (← json value))
    emit "value" value

/-- An object with an entry written; anything else is taken as an empty object. -/
def withEntry (source : Value) (key : String) (value : Value) : Entries :=
  match source with
  | .mapping entries => Entries.writeField entries key value
  | _ => [(.text key, value)]

def objectSet : StandardBlock where
  type := "object_set"
  displayName := "Object Set"
  category := .data
  inputs := ["object", "key", "value"]
  outputs := ["result"]
  defaults := [("key", .text "property")]
  description := "Sets a property value on an object"
  render := fun props => do Rendered.plain "SET" ((← keyPreview props) ++ " = ?")
  plan := do
    let key ← objectKey
    let value ← input "value"
    let result := Value.mapping (withEntry (← input "object") key value)
    store "result" result
    say ("Set object." ++ key ++ " = " ++ (← json value))
    emit "result" result

/-- A stored count plus a step. What is stored need not be a number. -/
def advanced (current : Value) (increment : Number) : Except Fault Value :=
  let other := (Value.ofNumber increment).kindName
  match current with
  | .text _ | .list _ | .tuple _ => .error (.notConcatenable current.kindName other)
  | v => match v.number? with
    | some n => (n.add increment).map Value.ofNumber
    | none => .error (.notAddable v.kindName other)

/-- The count stored so far, or the number that an input starts it with. -/
def currentCount (initial : String) : Plan Value := do
  let current ← stored "count"
  if current.isNull then return .ofNumber (← number initial 0)
  else return current

def counter : StandardBlock where
  type := "counter"
  displayName := "Counter"
  category := .data
  inputs := ["increment"]
  outputs := ["count"]
  defaults := [("value", .int 0), ("step", .int 1)]
  description := "Incremental counter"
  render := fun props => Rendered.showing "COUNT" (Entries.fieldOr props "value" (.int 0))
  plan := do
    let current ← currentCount "value"
    let count ← of (advanced current (← number "step" 1))
    store "count" count
    say ("Counter: " ++ (← text current) ++ " → " ++ (← text count))
    emit "count" count

def counterIncrement : StandardBlock where
  type := "counter_increment"
  displayName := "Increment Counter"
  category := .data
  inputs := ["trigger", "step"]
  outputs := ["count"]
  defaults := [("initialValue", .int 0), ("step", .int 1)]
  description := "Increments a counter each time it receives input"
  render := fun props => do
    let increment ← (Entries.fieldOr props "step" (.int 1)).toText
    let initial ← (Entries.fieldOr props "initialValue" (.int 0)).toText
    return .preview (.text "INC") (.text ("+" ++ increment)) (.text initial)
  plan := do
    let increment := (← inputOr "step" (← input "initialStep")).toNumber (.int 1)
    let current ← currentCount "initialValue"
    let count ← of (advanced current increment)
    store "count" count
    let shown ← text current
    say ("Counter: " ++ shown ++ " + " ++ (← numberText increment) ++ " = " ++ (← text count))
    emit "count" count

def counterReset : StandardBlock where
  type := "counter_reset"
  displayName := "Reset Counter"
  category := .data
  inputs := ["trigger"]
  outputs := ["count"]
  defaults := [("value", .int 0)]
  description := "Resets a counter to a specific value"
  render := fun props => do
    let value ← (Entries.fieldOr props "value" (.int 0)).toText
    Rendered.plain "RESET" ("reset to " ++ value)
  plan := do
    let value ← number "value" 0
    store "count" (.ofNumber value)
    say ("Counter reset to " ++ (← numberText value))
    emit "count" (.ofNumber value)

def stringConcat : StandardBlock where
  type := "string_concat"
  displayName := "String Concat"
  category := .data
  inputs := ["left", "right"]
  outputs := ["result"]
  defaults := [("separator", .text "")]
  description := "Concatenates two strings"
  render := fun props => do
    let separator ← (Value.orElse (Entries.field props "separator") (.text "")).plainText
    Rendered.plain "CONCAT" ("\"" ++ separator ++ "\"")
  plan := do
    let left ← text (← inputOr "left" (.text ""))
    let right ← text (← inputOr "right" (.text ""))
    let separator ← text (← inputOr "separator" (.text ""))
    let result := left ++ separator ++ right
    store "result" (.text result)
    say ("Concat: \"" ++ left ++ "\" + \"" ++ separator ++ "\" + \"" ++ right ++ "\" = \"" ++
      result ++ "\"")
    emit "result" (.text result)

def comment : StandardBlock where
  type := "comment"
  displayName := "Comment"
  category := .data
  defaults := [("text", .text "Comment...")]
  description := "Documentation comment block"
  render := fun props =>
    Rendered.showing "//" (Value.orElse (Entries.field props "text") (.text "Comment..."))
  form := .deferred
  plan := do
    say ("Comment: " ++ (← text (← inputOr "text" (.text "Comment"))))

/-- The data blocks in palette order. -/
def dataBlocks : List StandardBlock :=
  [storedValue, setVariable, getVariable, array, arrayPush, arrayPop, arrayGet, arraySet, object,
   objectGet, objectSet, counter, counterIncrement, counterReset, stringConcat, comment]

end BlockGraph.Standard
