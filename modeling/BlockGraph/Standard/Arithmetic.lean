import BlockGraph.Standard.Plan
/-!
Math blocks: arithmetic, compound assignment and random numbers.
-/
namespace BlockGraph.Standard
open Plan

/-- The preview of an operation on two operands; a null operand shows as its default. -/
def operandsPreview (label symbol : String) (a b : Int) : RenderFn := fun props => do
  let shown := fun (key : String) (default : Int) =>
    let v := Entries.field props key
    (if v.isNull then Value.int default else v).toText
  Rendered.plain label ((← shown "a" a) ++ " " ++ symbol ++ " " ++ (← shown "b" b))

/-- Stores and tells a result, and emits it on a port. -/
def calculate (port opening symbol : String) (a b : Number) (r : Except Fault Number) :
    Plan Unit := do
  let result ← of r
  store "result" (.ofNumber result)
  let left ← numberText a
  let right ← numberText b
  say (opening ++ left ++ " " ++ symbol ++ " " ++ right ++ " = " ++ (← numberText result))
  emit port (.ofNumber result)

def add : StandardBlock where
  type := "add"
  displayName := "Add"
  category := .math
  inputs := ["a", "b"]
  outputs := ["sum"]
  defaults := [("a", .int 0), ("b", .int 0)]
  description := "Adds two numbers"
  render := operandsPreview "ADD" "+" 0 0
  plan := do
    let a ← number "a" 0
    let b ← number "b" 0
    calculate "sum" "" "+" a b (a.add b)

def addAssign : StandardBlock where
  type := "add_assign"
  displayName := "Add Assign"
  category := .math
  inputs := ["target", "value"]
  outputs := ["result"]
  description := "Adds value to target (target += value)"
  render := fun _ => Rendered.plain "+=" "target += value"
  plan := do
    let target ← number "target" 0
    let value ← number "value" 0
    calculate "result" "Add assign: " "+=" target value (target.add value)

def subtract : StandardBlock where
  type := "subtract"
  displayName := "Subtract"
  category := .math
  inputs := ["a", "b"]
  outputs := ["difference"]
  defaults := [("a", .int 0), ("b", .int 0)]
  description := "Subtracts two numbers"
  render := operandsPreview "SUB" "-" 0 0
  plan := do
    let a ← number "a" 0
    let b ← number "b" 0
    calculate "difference" "" "-" a b (a.sub b)

def multiply : StandardBlock where
  type := "multiply"
  displayName := "Multiply"
  category := .math
  inputs := ["a", "b"]
  outputs := ["product"]
  defaults := [("a", .int 1), ("b", .int 1)]
  description := "Multiplies two numbers"
  render := operandsPreview "MUL" "×" 1 1
  plan := do
    let a ← number "a" 1
    let b ← number "b" 1
    calculate "product" "" "×" a b (a.mul b)

def multiplyAssign : StandardBlock where
  type := "multiply_assign"
  displayName := "Multiply Assign"
  category := .math
  inputs := ["target", "value"]
  outputs := ["result"]
  description := "Multiplies target by value (target *= value)"
  render := fun _ => Rendered.plain "*=" "target *= value"
  plan := do
    let target ← number "target" 1
    let value ← number "value" 1
    calculate "result" "Multiply assign: " "*=" target value (target.mul value)

def divide : StandardBlock where
  type := "divide"
  displayName := "Divide"
  category := .math
  inputs := ["a", "b"]
  outputs := ["quotient"]
  defaults := [("a", .int 1), ("b", .int 1)]
  description := "Divides two numbers"
  render := operandsPreview "DIV" "÷" 1 1
  plan := do
    let a ← number "a" 1
    let b ← number "b" 1
    if b.isZero then
      say "Cannot divide by zero"
      emit "quotient" (.float (.infinite false))
    else calculate "quotient" "" "÷" a b ((a.div b).map .float)

/-- The remainder of two numbers, with the sign of the dividend. It is worked out on doubles; two
integers give an integer. -/
def remainder (a b : Number) : Except Fault Number := do
  let x ← a.toDouble
  if x.isInfinite || x.isNan then return .float .notANumber
  let y ← b.toDouble
  if y.isNan then return .float .notANumber
  let r := x.rem y
  match a, b with
  | .int _, .int _ => return .int (r.truncate?.getD 0)
  | _, _ => return .float r

def modulo : StandardBlock where
  type := "modulo"
  displayName := "Modulo"
  category := .math
  inputs := ["a", "b"]
  outputs := ["remainder"]
  defaults := [("a", .int 10), ("b", .int 3)]
  description := "Returns remainder of division"
  render := operandsPreview "MOD" "%" 10 3
  plan := do
    let a ← number "a" 10
    let b ← number "b" 3
    if b.isZero then
      say "Cannot modulo by zero"
      emit "remainder" (.float .notANumber)
    else calculate "remainder" "" "%" a b (remainder a b)

/-- The number that a draw picks between two bounds, both included for integers. -/
def picked (draw : Double) (low high : Number) : Except Fault Number := do
  let width ← (← high.sub low).add (.int 1)
  let scaled ← (Number.float draw).mul width
  let offset ← match scaled with
    | .float x => Number.floorOf x
    | .int n => pure n
  (Number.int offset).add low

/-- Whether both bounds are finite; the second is looked at only when the first is. -/
def bounded (low high : Number) : Except Fault Bool := do
  if (← low.toDouble).isFinite then return (← high.toDouble).isFinite
  else return false

def random : StandardBlock where
  type := "random"
  displayName := "Random"
  category := .math
  inputs := ["min", "max"]
  outputs := ["value"]
  defaults := [("min", .int 0), ("max", .int 100)]
  description := "Generates random number"
  render := fun props => do
    let low ← (Entries.fieldOr props "min" (.int 0)).toText
    let high ← (Entries.fieldOr props "max" (.int 100)).toText
    Rendered.plain "RND" (low ++ "-" ++ high)
  plan := do
    let low ← number "min" 0
    let high ← number "max" 100
    let value ← if ← of (bounded low high) then do
        step .useDraw
        of (picked (← read).draw low high)
      else pure (Number.float .notANumber)
    store "result" (.ofNumber value)
    let first ← numberText low
    let last ← numberText high
    say ("Random(" ++ first ++ ", " ++ last ++ ") = " ++ (← numberText value))
    emit "value" (.ofNumber value)

/-- The math blocks in palette order. -/
def mathBlocks : List StandardBlock :=
  [add, addAssign, subtract, multiply, multiplyAssign, divide, modulo, random]

end BlockGraph.Standard
