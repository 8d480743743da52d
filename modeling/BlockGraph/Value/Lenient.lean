import BlockGraph.Number.Reader
import BlockGraph.Value.Complaint
/-!
Lenient readings of values as numbers and truth values, for settings that callers hand over as text or
as a number of another kind. Unlike the conversions of blocks they refuse what they cannot read.
-/
namespace BlockGraph

namespace Lenient

/-- Blanks around settings: those of running text, without the four separators below the space. -/
def isSpace (c : Char) : Bool := Text.isBlank c && !(0x1C ≤ c.toNat && c.toNat ≤ 0x1F)

def trimmed (cs : List Char) : List Char :=
  ((cs.dropWhile isSpace).reverse.dropWhile isSpace).reverse

/-- Digits with single underscores between them, without the underscores. -/
def joined? (cs : List Char) : Option (List Char) :=
  let doubled := (cs.zip (cs.drop 1)).any fun (a, b) => a == '_' && b == '_'
  if !cs.contains '_' || cs.head? == some '_' || cs.getLast? == some '_' || doubled then none
  else some (cs.filter (· != '_'))

def isNumberChar (c : Char) : Bool :=
  c.isDigit || c.isAlpha || c == '+' || c == '-' || c == '.'

/-- Reads a decimal of ASCII characters. -/
def decimal? (cs : List Char) : Option Double :=
  if cs.all isNumberChar then Number.double? (String.ofList cs) else none

/-- The characters of a text; one that cannot be encoded is refused. -/
def characters (s : String) : Except Problem (List Char) :=
  if (Text.halfFault? s).isSome then .error .notEncodable else .ok s.toList

def doubleOfText (cs : List Char) : Except Problem Double :=
  match decimal? (trimmed cs) with
  | some x => .ok x
  | none => match (joined? cs).bind decimal? with
    | some x => .ok x
    | none => .error .floatParsing

/-- A value as a double. -/
def double : Value → Except Problem Double
  | .float x => .ok x
  | .text s => do doubleOfText (← characters s)
  | v => match v.number? with
    | none => .error .floatType
    | some n => match n.toDouble with
      | .ok x => .ok x
      | .error _ => .error .floatType

/-- Drops a point with nothing but zeros behind it. -/
def withoutZeroFraction (cs : List Char) : List Char :=
  let whole := cs.takeWhile (· != '.')
  if (cs.drop (whole.length + 1)).all (· == '0') then whole else cs

/-- The characters of an integer without its sign, when that is a plus. -/
def withoutPlus : List Char → List Char
  | '+' :: '-' :: _ => []
  | '+' :: rest => rest
  | cs => cs

def intOfText (cs : List Char) : Except Problem Int :=
  let plain := withoutZeroFraction (withoutPlus (trimmed cs))
  let digits := (joined? plain).getD plain
  if Fault.digitLimitValue < digits.length then .error .intTooLong
  else
    let (negative, ds) := match digits with
      | '-' :: rest => (true, rest)
      | ds => (false, ds)
    if ds.isEmpty || !ds.all Char.isDigit then .error .intParsing
    else
      let n : Int := Number.digitsValue ds
      .ok (if negative then -n else n)

/-- Whether an integer fits into a signed word of 64 bits. -/
def fitsWord (n : Int) : Bool := -(Nat.pow 2 63 : Nat) ≤ n && n < (Nat.pow 2 63 : Nat)

/-- A double as an integer, when it is integral and below the limits of a word. -/
def intOfDouble (x : Double) : Except Problem Int :=
  match x.truncate? with
  | none => .error .notFinite
  | some n =>
    if !x.isIntegral then .error .intFromFloat
    else if n.natAbs < Nat.pow 2 63 then .ok n
    else .error .intTooLong

/-- A value as an integer; a double has to be integral. -/
def int : Value → Except Problem Int
  | .int n => .ok n
  | .bool b => .ok (if b then 1 else 0)
  | .text s => do intOfText (← characters s)
  | .float x => intOfDouble x
  | _ => .error .intType

def bit (n : Int) : Except Problem Bool :=
  if n = 0 then .ok false else if n = 1 then .ok true else .error .boolParsing

/-- A value as a truth value: zero and one count, and so do a few words. -/
def bool : Value → Except Problem Bool
  | .bool b => .ok b
  | .int n => if fitsWord n then bit n else .error .boolType
  | .float x => match intOfDouble x with
    | .ok n => bit n
    | .error _ => .error .boolType
  | .text s => do
    let word := String.ofList ((← characters s).map Char.toLower)
    if ["0", "off", "f", "false", "n", "no"].contains word then .ok false
    else if ["1", "on", "t", "true", "y", "yes"].contains word then .ok true
    else .error .boolParsing
  | _ => .error .boolType

end Lenient

end BlockGraph
