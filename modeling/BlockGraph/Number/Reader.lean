import BlockGraph.Number.Double
import BlockGraph.Text.Blank
import BlockGraph.Text.Digit
/-!
Reading numbers from text. Digits of every script count, single underscores may stand between
digits, and blanks around the number are ignored.
-/
namespace BlockGraph.Number

/-- A character of number text with every script's digits read as ASCII digits. -/
def plainDigit (c : Char) : Char :=
  if c.toNat < 0x80 then c
  else match Text.digitValue? c with
    | some d => Nat.digitChar d
    | none => '?'

/-- Whether every underscore stands between two digits. -/
def underscoresBetweenDigits : Bool → List Char → Bool
  | _, [] => true
  | afterDigit, '_' :: rest =>
    afterDigit && (match rest with
      | c :: _ => c.isDigit
      | [] => false) && underscoresBetweenDigits false rest
  | _, c :: rest => underscoresBetweenDigits c.isDigit rest

/-- Whether a character may stand around a number. In a text of ASCII alone the separators below the
space may not. -/
def isMargin (ascii : Bool) (c : Char) : Bool :=
  Text.isBlank c && !(ascii && 0x1C ≤ c.toNat && c.toNat < 0x20)

/-- The characters of a number without its underscores, unless one is misplaced. -/
def plainChars? (text : String) : Option (List Char) :=
  let margin := isMargin (text.toList.all (·.toNat < 0x80))
  let cs := (((text.toList.dropWhile margin).reverse.dropWhile margin).reverse).map plainDigit
  if underscoresBetweenDigits false cs then some (cs.filter (· != '_')) else none

/-- A sign, if any, and the rest. -/
def splitSign : List Char → Bool × List Char
  | '-' :: rest => (true, rest)
  | '+' :: rest => (false, rest)
  | cs => (false, cs)

def digitsValue (cs : List Char) : Nat :=
  cs.foldl (fun n c => 10 * n + (c.toNat - 0x30)) 0

/-- An integer as written, and how many digits it was written with. -/
structure IntegerText where
  value : Int
  digits : Nat

/-- Reads an optional sign and digits. -/
def integerText? (text : String) : Option IntegerText := do
  let (negative, cs) := splitSign (← plainChars? text)
  if cs.isEmpty || !cs.all Char.isDigit then none
  else
    let n : Int := digitsValue cs
    some ⟨if negative then -n else n, cs.length⟩

/-- The double nearest to `digits · 10 ^ exponent`. Exponents far outside the range of doubles are
decided without computing the power. -/
def scaledDouble (negative : Bool) (digits : Nat) (exponent : Int) : Double :=
  if digits = 0 then Double.ofCode negative 0
  else
    let magnitude : Int := exponent + (digits.log2 : Int) * 30103 / 100000
    if 400 < magnitude then .infinite negative
    else if magnitude < -400 then Double.ofCode negative 0
    else if 0 ≤ exponent then Double.ofRatio negative (digits * Nat.pow 10 exponent.toNat) 1
    else Double.ofRatio negative digits (Nat.pow 10 (-exponent).toNat)

/-- Reads the exponent part of a decimal: nothing, or `e`, a sign and digits. -/
def exponent? : List Char → Option Int
  | [] => some 0
  | c :: rest =>
    if c == 'e' || c == 'E' then
      let (negative, ds) := splitSign rest
      if ds.isEmpty || !ds.all Char.isDigit then none
      else
        let n : Int := digitsValue ds
        some (if negative then -n else n)
    else none

/-- Reads digits with an optional point and exponent; at least one digit stands before the exponent. -/
def decimal? (negative : Bool) (cs : List Char) : Option Double := do
  let whole := cs.takeWhile Char.isDigit
  let afterWhole := cs.dropWhile Char.isDigit
  let (fraction, tail) := match afterWhole with
    | '.' :: rest => (rest.takeWhile Char.isDigit, rest.dropWhile Char.isDigit)
    | rest => ([], rest)
  if whole.isEmpty && fraction.isEmpty then none
  else
    let exponent ← exponent? tail
    some (scaledDouble negative (digitsValue (whole ++ fraction)) (exponent - fraction.length))

/-- Reads a decimal, an infinity or not-a-number. -/
def double? (text : String) : Option Double := do
  let (negative, cs) := splitSign (← plainChars? text)
  let word := String.ofList (cs.map Char.toLower)
  if word == "inf" || word == "infinity" then some (.infinite negative)
  else if word == "nan" then some (.nan none)
  else decimal? negative cs

end BlockGraph.Number
