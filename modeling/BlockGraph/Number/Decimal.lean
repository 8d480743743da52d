import BlockGraph.Number.Double
/-!
Decimal text of doubles: the fewest digits that read back, a fixed number of significant digits, and
the two layouts the library writes.
-/
namespace BlockGraph

/-- A positive decimal: its digits, read as `0.d₁d₂… · 10 ^ point`. -/
structure Decimal where
  digits : List Nat
  point : Int

namespace Decimal

/-- The digits of a number below ten to the power `count`, padded on the left. -/
def fixedDigits : Nat → Nat → List Nat
  | 0, _ => []
  | count + 1, n => fixedDigits count (n / 10) ++ [n % 10]

def dropTrailingZeros (digits : List Nat) : List Nat :=
  (digits.reverse.dropWhile (· == 0)).reverse

/-- The least power of ten above a positive quotient, searched upward from a lower bound. -/
def pointAbove (num den : Nat) : Nat → Int → Int
  | 0, p => p
  | fuel + 1, p =>
    let below := if 0 ≤ p then num < den * Nat.pow 10 p.toNat
      else num * Nat.pow 10 (-p).toNat < den
    if below then p else pointAbove num den fuel (p + 1)

/-- The position of the decimal point of a positive quotient: the least `p` with `num / den < 10 ^ p`.
Three bits are less than a digit, so an estimate from the lengths is a few steps below it. -/
def pointOf (num den : Nat) : Int :=
  let bits : Int := (num.log2 : Int) - den.log2
  let guess := Int.fdiv (bits * 30102) 100000 - 1
  pointAbove num den 6 guess

/-- A quotient divided by a power of ten, as a quotient. -/
def scaled (num den : Nat) (power : Int) : Nat × Nat :=
  if 0 ≤ power then (num, den * Nat.pow 10 power.toNat)
  else (num * Nat.pow 10 (-power).toNat, den)

/-- A positive quotient rounded to `count` significant digits, ties to even. -/
def ofRatio (count num den : Nat) : Decimal :=
  let point := pointOf num den
  let (n, d) := scaled num den (point - count)
  let rounded := roundHalfEven n d
  if rounded < Nat.pow 10 count then ⟨fixedDigits count rounded, point⟩
  else ⟨fixedDigits count (rounded / 10), point + 1⟩

end Decimal

namespace Double

/-- Half of a unit is needed for midpoints, so bounds are counted in half units. -/
structure Interval where
  low : Nat
  high : Nat
  closed : Bool

/-- The reals that round to a positive finite magnitude, in half units. The ends belong to it when
the code is even, because ties go to even. -/
def roundingInterval (code : Nat) : Interval where
  low := unitsOfCode (code - 1) + unitsOfCode code
  high := unitsOfCode code + unitsOfCode (code + 1)
  closed := code % 2 == 0

/-- Whether the quotient of half units lies in the interval. -/
def Interval.contains (i : Interval) (num den : Nat) : Bool :=
  if i.closed then i.low * den ≤ num && num ≤ i.high * den
  else i.low * den < num && num < i.high * den

/-- The point of the grid of `count` digits nearest to the value that still reads back, if any. -/
def gridHit? (code count : Nat) (point : Int) : Option Nat :=
  let units := unitsOfCode code
  let interval := roundingInterval code
  let power := point - count
  let (n, d) := Decimal.scaled units unitsPerOne power
  let below := n / d
  let reads := fun (k : Nat) =>
    -- `k · 10 ^ power` in half units
    let (kn, kd) := Decimal.scaled (k * 2 * unitsPerOne) 1 (-power)
    0 < k && interval.contains kn kd
  let nearBelow := 2 * (n % d) < d || (2 * (n % d) == d && below % 2 == 0)
  let (first, second) := if nearBelow then (below, below + 1) else (below + 1, below)
  if reads first then some first else if reads second then some second else none

/-- The first digit count from `count` on whose grid holds a number that reads back. -/
def shortestFrom (code : Nat) (point : Int) : Nat → Nat → Decimal
  | 0, count => Decimal.ofRatio count (unitsOfCode code) unitsPerOne
  | fuel + 1, count =>
    match gridHit? code count point with
    | some k =>
      if k < Nat.pow 10 count then ⟨Decimal.dropTrailingZeros (Decimal.fixedDigits count k), point⟩
      else ⟨[1], point + 1⟩
    | none => shortestFrom code point fuel (count + 1)

/-- The fewest digits that read back as the positive magnitude with this code. -/
def shortest (code : Nat) : Decimal :=
  shortestFrom code (Decimal.pointOf (unitsOfCode code) unitsPerOne) 17 1

end Double

/-- How a decimal is laid out: the exponents written without a power of ten, and whether a whole
number keeps a fraction. -/
structure DecimalLayout where
  leastPoint : Int
  greatestPoint : Int
  keepFraction : Bool

namespace DecimalLayout

/-- Numbers read back exactly: positional from 0.0001 up to sixteen digits before the point. -/
def exact : DecimalLayout := ⟨-3, 16, true⟩

/-- Six significant digits: positional from 0.0001 up to six digits before the point. -/
def brief : DecimalLayout := ⟨-3, 6, false⟩

def digitText (digits : List Nat) : String :=
  String.ofList (digits.map Nat.digitChar)

/-- A power of ten has a sign and at least two digits. -/
def exponentText (exponent : Int) : String :=
  let magnitude := exponent.natAbs
  (if exponent < 0 then "e-" else "e+") ++ (if magnitude < 10 then "0" else "") ++ magnitude.repr

def positional (layout : DecimalLayout) (d : Decimal) : String :=
  if d.point ≤ 0 then
    "0." ++ String.ofList (List.replicate (-d.point).toNat '0') ++ digitText d.digits
  else
    let whole := d.point.toNat
    let front := digitText (d.digits.take whole) ++
      String.ofList (List.replicate (whole - d.digits.length) '0')
    match d.digits.drop whole with
    | [] => if layout.keepFraction then front ++ ".0" else front
    | fraction => front ++ "." ++ digitText fraction

def scientific (d : Decimal) : String :=
  let fraction := d.digits.drop 1
  digitText (d.digits.take 1) ++ (if fraction.isEmpty then "" else "." ++ digitText fraction) ++
    exponentText (d.point - 1)

def render (layout : DecimalLayout) (d : Decimal) : String :=
  if layout.leastPoint ≤ d.point && d.point ≤ layout.greatestPoint then layout.positional d
  else scientific d

end DecimalLayout

namespace Double

/-- The shortest text that reads back as the same double. -/
def text : Double → String
  | .nan _ => "nan"
  | .infinite negative => if negative then "-inf" else "inf"
  | .finite negative code _ =>
    (if negative then "-" else "") ++
      if code = 0 then "0.0" else DecimalLayout.exact.render (shortest code)

/-- The text with six significant digits and no trailing zeros. -/
def briefText : Double → String
  | .nan _ => "nan"
  | .infinite negative => if negative then "-inf" else "inf"
  | .finite negative code _ =>
    (if negative then "-" else "") ++
      if code = 0 then "0" else
        let d := Decimal.ofRatio 6 (unitsOfCode code) unitsPerOne
        DecimalLayout.brief.render { d with digits := Decimal.dropTrailingZeros d.digits }

end Double

end BlockGraph
