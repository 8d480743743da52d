import BlockGraph.Text.Quoted
import BlockGraph.Value.Depth
/-!
The literal text of a value, as messages quote it, and its plain text. Integers beyond the digit
limit, foreign values without a text, and what is nested too deep have neither.
-/
namespace BlockGraph

/-- The least magnitude that is beyond the digit limit. -/
def digitBound : Nat := Nat.pow 10 Fault.digitLimitValue

/-- The decimal text of an integer. -/
def integerText (n : Int) : Except Fault String :=
  if n.natAbs < digitBound then .ok (toString n) else .error .digitLimit

namespace Value

mutual

/-- The literal text of a value of any depth. -/
def spelling : Value → Except Fault String
  | .null => .ok "None"
  | .bool b => .ok (if b then "True" else "False")
  | .int n => integerText n
  | .float x => .ok x.text
  | .text s => .ok (Text.quoted s)
  | .list items => do return "[" ++ ", ".intercalate (← spellings items) ++ "]"
  | .tuple [item] => do return "(" ++ (← spelling item) ++ ",)"
  | .tuple items => do return "(" ++ ", ".intercalate (← spellings items) ++ ")"
  | .mapping entries => do return "\x7b" ++ ", ".intercalate (← entrySpellings entries) ++ "\x7d"
  | .set [] => .ok "set()"
  | .set items => do return "\x7b" ++ ", ".intercalate (← spellings items) ++ "\x7d"
  | .frozenset [] => .ok "frozenset()"
  | .frozenset items => do return "frozenset(\x7b" ++ ", ".intercalate (← spellings items) ++ "\x7d)"
  | .foreign f => match f.text? with
    | some s => .ok s
    | none => .error .noText

def spellings : List Value → Except Fault (List String)
  | [] => .ok []
  | v :: rest => do
    let first ← spelling v
    return first :: (← spellings rest)

def entrySpellings : List (Value × Value) → Except Fault (List String)
  | [] => .ok []
  | (k, v) :: rest => do
    let key ← spelling k
    let value ← spelling v
    return (key ++ ": " ++ value) :: (← entrySpellings rest)

end

/-- The literal text of a value. -/
def literal (v : Value) : Except Fault String := do
  v.within textLevels .showing
  spelling v

/-- The plain text of a value: a text is itself, all else its literal. -/
def plainText : Value → Except Fault String
  | .text s => .ok s
  | v => v.literal

end Value

end BlockGraph
