import BlockGraph.Json.Writer
import BlockGraph.Number.Reader
import BlockGraph.Value.Equality
/-!
Forgiving conversions. Programs carry numbers as text and truth values as numbers, so blocks read
values the way the editor that saved them does.
-/
namespace BlockGraph.Value

/-- The number in a text: nothing at all is zero, what is no number is not-a-number. An integer with
more digits than the limit is read as a double. -/
def numberOfText (text : String) : Number :=
  let s := Text.trim text
  if s.isEmpty then .int 0
  else
    match Number.integerText? s with
    | some ⟨n, digits⟩ =>
      if digits ≤ Fault.digitLimitValue then .int n
      else .float ((Number.double? s).getD .notANumber)
    | none => .float ((Number.double? s).getD .notANumber)

/-- The number a value stands for; null stands for the default. -/
def toNumber (v : Value) (default : Number) : Number :=
  match v with
  | .null => default
  | .bool b => .int (if b then 1 else 0)
  | .int n => .int n
  | .float x => .float x
  | .text s => numberOfText s
  | _ => .float .notANumber

/-- The text of a double in log lines: an integral one is written as an integer. -/
def doubleText (x : Double) : String :=
  match x with
  | .nan _ => "NaN"
  | .infinite negative => if negative then "-Infinity" else "Infinity"
  | .finite .. =>
    if x.isIntegral then toString (x.truncate?.getD 0) else x.text

/-- Whether writing fell at a value fault, after which the plain text is tried instead. -/
def fallsBack (f : Fault) : Bool := f.kind = .value

/-- The text of a value that is no list, tuple or mapping. -/
def atomText : Value → Except Fault String
  | .null => .ok "null"
  | .bool b => .ok (if b then "true" else "false")
  | .float x => .ok (doubleText x)
  | v => v.plainText

def isContainer : Value → Bool
  | .list _ | .tuple _ | .mapping _ => true
  | _ => false

/-- JSON for log lines; values JSON has no form for appear as their plain text. -/
def compactJson (v : Value) : Except Fault String := do
  v.within textLevels .writing
  Json.text .compact plainText v

/-- The JSON text of a value, or its plain text when a part has none. A container without a JSON text
has no plain text either: each would be the other, without end. -/
def toJson (v : Value) : Except Fault String :=
  match compactJson v with
  | .ok s => .ok s
  | .error f =>
    if !fallsBack f then .error f
    else if v.isContainer then .error .endlessJson
    else v.atomText

/-- The text of a value in log lines and previews. -/
def toText (v : Value) : Except Fault String :=
  if v.isContainer then
    match compactJson v with
    | .ok s => .ok s
    | .error f => .error (if fallsBack f then .endlessText else f)
  else v.atomText

def numberText (n : Number) : Except Fault String :=
  toText (ofNumber n)

/-- Equality that takes a number and its text as equal. -/
def looseEq (a b : Value) : Bool :=
  match a, b with
  | .null, .null => true
  | .null, _ | _, .null => false
  | _, _ =>
    match a, b with
    | a, .text s => if a.isNumber then sameNumber a (ofNumber (numberOfText s)) else eq a b
    | .text s, b => if b.isNumber then sameNumber (ofNumber (numberOfText s)) b else eq a b
    | a, b => eq a b

/-- Whether two values are of the same type. -/
def sameKind : Value → Value → Bool
  | .null, .null | .bool _, .bool _ | .int _, .int _ | .float _, .float _ | .text _, .text _
  | .list _, .list _ | .tuple _, .tuple _ | .mapping _, .mapping _ | .set _, .set _
  | .frozenset _, .frozenset _ => true
  | .foreign f, .foreign g => f.kind == g.kind
  | _, _ => false

/-- Equality that also asks for the same type, any two numbers being of one type. -/
def strictEq (a b : Value) : Bool :=
  if a.isNumber && b.isNumber then sameNumber a b else sameKind a b && eq a b

end BlockGraph.Value
