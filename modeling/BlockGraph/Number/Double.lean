/-!
Double-precision numbers as exact data. A finite double is a sign and a code: its rank among the
finite magnitudes. Every finite double is a whole number of units of two to the power -1074, so sums,
products, remainders and comparisons are integer arithmetic followed by one rounding to nearest.
-/
namespace BlockGraph

/-- A double: not-a-number, an infinity, or a sign with the rank of its magnitude. Not-a-number may be
marked with what it was read from; one that was computed has no mark. -/
inductive Double where
  | nan (mark? : Option Nat)
  | infinite (negative : Bool)
  | finite (negative : Bool) (code : Nat) (inRange : code < 2047 * Nat.pow 2 52)
deriving DecidableEq

/-- The quotient rounded to the nearest integer; a tie goes to the even neighbour. -/
def roundHalfEven (num den : Nat) : Nat :=
  let q := num / den
  let r := num % den
  if 2 * r < den then q else if den < 2 * r then q + 1 else q + q % 2

namespace Double

/-- The not-a-number that stands for what is no number. -/
def notANumber : Double := .nan (some 0)

/-- The not-a-number that a word in a document stands for. -/
def writtenNaN : Double := .nan (some 1)

/-- Whether two doubles are one not-a-number, read from the same place. -/
def isSameNaN : Double → Double → Bool
  | .nan (some m), .nan (some n) => m == n
  | _, _ => false

/-- One past the code of the largest finite magnitude. -/
def codeLimit : Nat := 2047 * Nat.pow 2 52

/-- The number of units in one. -/
def unitsPerOne : Nat := Nat.pow 2 1074

theorem unitsPerOne_pos : 0 < unitsPerOne := by
  -- The power is not to be worked out.
  unfold unitsPerOne
  generalize 1074 = binades
  exact Nat.pow_pos (Nat.zero_lt_succ 1)

/-- The magnitude with this code, in units: the first two binades step by one unit, and each later
binade doubles the step. -/
def unitsOfCode (code : Nat) : Nat :=
  if code < Nat.pow 2 52 then code
  else (Nat.pow 2 52 + code % Nat.pow 2 52) * Nat.pow 2 (code / Nat.pow 2 52 - 1)

/-- The code nearest to the quotient in units: as many halvings as leave 53 bits, then one rounding.
A mantissa that rounds up to 54 bits lands on the first code of the next binade. -/
def nearestCode (num den : Nat) : Nat :=
  let shift := (num / den).log2 - 52
  shift * Nat.pow 2 52 + roundHalfEven num (den * Nat.pow 2 shift)

/-- The double with this sign and code; codes past the finite range are infinite. -/
def ofCode (negative : Bool) (code : Nat) : Double :=
  if h : code < 2047 * Nat.pow 2 52 then .finite negative code h else .infinite negative

def zero : Double := ofCode false 0

/-- The double nearest to a quotient of natural numbers. -/
def ofRatio (negative : Bool) (num den : Nat) : Double :=
  ofCode negative (nearestCode (num * unitsPerOne) den)

/-- The double nearest to a whole number of units; no units give a positive zero. -/
def ofUnits (units : Int) : Double :=
  ofCode (units < 0) (nearestCode units.natAbs 1)

/-- The exact value in units, when there is one. -/
def units? : Double → Option Int
  | .finite negative code _ =>
    let u : Int := unitsOfCode code
    some (if negative then -u else u)
  | _ => none

def isNan : Double → Bool
  | .nan _ => true
  | _ => false

def isInfinite : Double → Bool
  | .infinite _ => true
  | _ => false

def isFinite : Double → Bool
  | .finite .. => true
  | _ => false

/-- Both zeros, and nothing else, are zero. -/
def isZero : Double → Bool
  | .finite _ 0 _ => true
  | _ => false

/-- Whether the sign is negative; a negative zero counts. -/
def isNegative : Double → Bool
  | .finite negative _ _ => negative
  | .infinite negative => negative
  | .nan _ => false

def neg : Double → Double
  | .nan _ => .nan none
  | .infinite negative => .infinite (!negative)
  | .finite negative code h => .finite (!negative) code h

/-- A finite value is integral when its units divide into ones. -/
def isIntegral (x : Double) : Bool :=
  match x.units? with
  | some u => u % unitsPerOne == 0
  | none => false

/-- The integer part, toward zero. -/
def truncate? (x : Double) : Option Int :=
  x.units?.map fun u => Int.tdiv u unitsPerOne

/-- The greatest integer not above a finite value. -/
def floor? (x : Double) : Option Int :=
  x.units?.map fun u => Int.fdiv u unitsPerOne

/-- The double itself, when it is finite. -/
def finite? : Double → Option Double
  | .finite negative code h => some (.finite negative code h)
  | _ => none

/-- The nearest double to an integer, when that is finite. -/
def ofInt? (n : Int) : Option Double := finite? (ofUnits (n * unitsPerOne))

def add : Double → Double → Double
  | .nan _, _ | _, .nan _ => .nan none
  | .infinite s, .infinite t => if s = t then .infinite s else .nan none
  | .infinite s, _ => .infinite s
  | _, .infinite t => .infinite t
  | x@(.finite s _ _), y@(.finite t _ _) =>
    match x.units?, y.units? with
    | some u, some v => if u + v = 0 then ofCode (s && t) 0 else ofUnits (u + v)
    | _, _ => .nan none

def sub (x y : Double) : Double := add x (neg y)

def mul : Double → Double → Double
  | .nan _, _ | _, .nan _ => .nan none
  | .infinite s, y => if y.isZero then .nan none else .infinite (s != y.isNegative)
  | x, .infinite t => if x.isZero then .nan none else .infinite (x.isNegative != t)
  | .finite s c _, .finite t d _ =>
    ofCode (s != t) (nearestCode (unitsOfCode c * unitsOfCode d) unitsPerOne)

def div : Double → Double → Double
  | .nan _, _ | _, .nan _ => .nan none
  | .infinite _, .infinite _ => .nan none
  | .infinite s, .finite t _ _ => .infinite (s != t)
  | .finite s _ _, .infinite t => ofCode (s != t) 0
  | .finite s c _, .finite t d _ =>
    if d = 0 then if c = 0 then .nan none else .infinite (s != t)
    else ofRatio (s != t) (unitsOfCode c) (unitsOfCode d)

/-- The remainder that takes the sign of the dividend; it is exact. -/
def rem : Double → Double → Double
  | .nan _, _ | _, .nan _ => .nan none
  | .infinite _, _ => .nan none
  | x@(.finite _ _ _), .infinite _ => x
  | .finite s c _, .finite _ d _ =>
    if d = 0 then .nan none else ofCode s (nearestCode (unitsOfCode c % unitsOfCode d) 1)

/-- The order of two doubles; not-a-number compares with nothing, and the zeros are equal. -/
def compare? : Double → Double → Option Ordering
  | .nan _, _ | _, .nan _ => none
  | .infinite s, .infinite t =>
    some (if s = t then .eq else if s then .lt else .gt)
  | .infinite s, _ => some (if s then .lt else .gt)
  | _, .infinite t => some (if t then .gt else .lt)
  | x, y => match x.units?, y.units? with
    | some u, some v => some (compare u v)
    | _, _ => none

/-- The order of an integer and a double, decided exactly. -/
def compareInt? (n : Int) (x : Double) : Option Ordering :=
  match x with
  | .nan _ => none
  | .infinite negative => some (if negative then .gt else .lt)
  | .finite .. => x.units?.map fun u => compare (n * unitsPerOne) u

end Double

end BlockGraph
