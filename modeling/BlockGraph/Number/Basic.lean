import BlockGraph.Number.Decimal
import BlockGraph.Fault
/-!
Numbers: unbounded integers and doubles. Two integers are combined exactly; a double makes the other
operand a double, which fails for an integer beyond the range of doubles. Comparison is always exact.
-/
namespace BlockGraph

inductive Number where
  | int (n : Int)
  | float (x : Double)
deriving DecidableEq

namespace Number

def toDouble : Number → Except Fault Double
  | .float x => .ok x
  | .int n => (Double.ofInt? n).elim (.error .integerTooLarge) .ok

def compare? : Number → Number → Option Ordering
  | .int a, .int b => some (compare a b)
  | .int a, .float y => Double.compareInt? a y
  | .float x, .int b => (Double.compareInt? b x).map Ordering.swap
  | .float x, .float y => Double.compare? x y

def eq (a b : Number) : Bool := compare? a b == some .eq
def lt (a b : Number) : Bool := compare? a b == some .lt
def le (a b : Number) : Bool := compare? a b == some .lt || compare? a b == some .eq

def isZero : Number → Bool
  | .int n => n == 0
  | .float x => x.isZero

def isNegative : Number → Bool
  | a => lt a (.int 0)

def isPositive : Number → Bool
  | a => lt (.int 0) a

/-- Two integers by the exact operation, all else by the operation on doubles. -/
def combine (exact : Int → Int → Int) (rounded : Double → Double → Double) :
    Number → Number → Except Fault Number
  | .int a, .int b => .ok (.int (exact a b))
  | a, b => do
    let x ← a.toDouble
    let y ← b.toDouble
    return .float (rounded x y)

def add : Number → Number → Except Fault Number := combine (· + ·) Double.add
def sub : Number → Number → Except Fault Number := combine (· - ·) Double.sub
def mul : Number → Number → Except Fault Number := combine (· * ·) Double.mul

/-- A quotient of two integers, which must be in the range of doubles. -/
def inRange (q : Double) : Except Fault Double :=
  match q with
  | .infinite _ => .error .quotientTooLarge
  | q => .ok q

/-- The quotient as a double, rounded once also for two integers. The divisor is not zero. -/
def div : Number → Number → Except Fault Double
  | .int a, .int b => inRange (Double.ofRatio ((a < 0) != (b < 0)) a.natAbs b.natAbs)
  | a, b => do
    let x ← a.toDouble
    let y ← b.toDouble
    return Double.div x y

/-- The greatest integer not above a double. -/
def floorOf (x : Double) : Except Fault Int :=
  match x with
  | .nan _ => .error .nanToInteger
  | .infinite _ => .error .infinityToInteger
  | .finite .. => .ok (x.floor?.getD 0)

/-- The integer part of a double. -/
def truncateOf (x : Double) : Except Fault Int :=
  match x with
  | .nan _ => .error .nanToInteger
  | .infinite _ => .error .infinityToInteger
  | .finite .. => .ok (x.truncate?.getD 0)

end Number

end BlockGraph
