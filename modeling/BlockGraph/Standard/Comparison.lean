import BlockGraph.Standard.Plan
/-!
Logic blocks: comparison and boolean operators.
-/
namespace BlockGraph.Standard
open Plan

/-- The relation an operator names, if it names any. -/
def relation? (operator : String) : Option (Value → Value → Bool) :=
  let numeric := fun (r : Number → Number → Bool) (a b : Value) =>
    r (a.toNumber (.int 0)) (b.toNumber (.int 0))
  match operator with
  | "==" => some Value.looseEq
  | "===" => some Value.strictEq
  | "!=" => some fun a b => !a.looseEq b
  | "!==" => some fun a b => !a.strictEq b
  | "<" => some (numeric Number.lt)
  | "<=" => some (numeric Number.le)
  | ">" => some (numeric fun x y => Number.lt y x)
  | ">=" => some (numeric fun x y => Number.le y x)
  | _ => none

/-- Whether two values stand in the relation that an operator names; an unknown one relates none. -/
def compares (operator : Value) (a b : Value) : Bool :=
  match operator with
  | .text name => match relation? name with
    | some r => r a b
    | none => false
  | _ => false

def compare : StandardBlock where
  type := "compare"
  displayName := "Compare"
  category := .logic
  inputs := ["a", "b"]
  outputs := ["result"]
  defaults := [("operator", .text "==")]
  description := "Compares two values"
  render := fun props => do
    let operator ← (Value.orElse (Entries.field props "operator") (.text "==")).plainText
    Rendered.plain "CMP" ("a " ++ operator ++ " b")
  plan := do
    let a ← input "a"
    let b ← input "b"
    let operator := (← input "operator").orElse (.text "==")
    let result := Value.bool (compares operator a b)
    store "result" result
    let left ← json a
    let middle ← of operator.plainText
    say (left ++ " " ++ middle ++ " " ++ (← json b) ++ " = " ++ (← text result))
    emit "result" result

/-- A block that combines the truth of two inputs. -/
def connective (type displayName description sign : String) (combine : Bool → Bool → Bool) :
    StandardBlock where
  type := type
  displayName := displayName
  category := .logic
  inputs := ["a", "b"]
  outputs := ["result"]
  description := description
  render := fun _ => Rendered.plain displayName ("a " ++ sign ++ " b")
  plan := do
    let a := (← input "a").isTrue
    let b := (← input "b").isTrue
    let result := Value.bool (combine a b)
    store "result" result
    let left ← text (.bool a)
    let right ← text (.bool b)
    say (left ++ " " ++ displayName ++ " " ++ right ++ " = " ++ (← text result))
    emit "result" result

def conjunction : StandardBlock :=
  connective "and" "AND" "Logical AND operation" "&&" (· && ·)

def disjunction : StandardBlock :=
  connective "or" "OR" "Logical OR operation" "||" (· || ·)

def negation : StandardBlock where
  type := "not"
  displayName := "NOT"
  category := .logic
  inputs := ["value"]
  outputs := ["result"]
  description := "Logical NOT operation"
  render := fun _ => Rendered.plain "NOT" "!value"
  plan := do
    let value := (← input "value").isTrue
    let result := Value.bool !value
    store "result" result
    say ("NOT " ++ (← text (.bool value)) ++ " = " ++ (← text result))
    emit "result" result

/-- The logic blocks in palette order. -/
def logicBlocks : List StandardBlock := [compare, conjunction, disjunction, negation]

end BlockGraph.Standard
