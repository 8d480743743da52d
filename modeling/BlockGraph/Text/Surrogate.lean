import BlockGraph.Text.Digit
/-!
Halves of surrogate pairs. JSON can spell one that stands alone, though it is no character. A text
holds a private-use character in its place, so that no half is lost and no two become one.
-/
namespace BlockGraph.Text

def isHighHalf (n : Nat) : Bool := 0xD800 ≤ n && n < 0xDC00
def isLowHalf (n : Nat) : Bool := 0xDC00 ≤ n && n < 0xE000

/-- How far a half is from the character in its place. -/
def halfOffset : Nat := 0x100000

/-- The character that stands for a half. -/
def halfChar (n : Nat) : Char := Char.ofNat (halfOffset + n)

/-- The half that a character stands for. -/
def half? (c : Char) : Option Nat :=
  let n := c.toNat - halfOffset
  if isHighHalf n || isLowHalf n then some n else none

/-- The character that two halves make. -/
def pairChar (high low : Nat) : Char :=
  Char.ofNat (0x10000 + (high - 0xD800) * 0x400 + (low - 0xDC00))

/-- A sixteen-bit unit as an escape. -/
def unitEscape (n : Nat) : List Char := '\\' :: 'u' :: hexDigits 4 n

/-- A text with every half in it written as an escape. -/
def halvesEscaped (s : String) : String :=
  String.ofList (s.toList.flatMap fun c => (half? c).elim [c] unitEscape)

/-- Halves in a row that keep a text from being written in UTF-8: the place of the first, how many
there are, and the first itself. -/
structure HalfFault where
  position : Nat
  count : Nat
  first : Nat
deriving DecidableEq, Repr

def HalfFault.message (f : HalfFault) : String :=
  let place := if f.count = 1 then
      "character '" ++ String.ofList (unitEscape f.first) ++ "' in position " ++ f.position.repr
    else "characters in position " ++ f.position.repr ++ "-" ++ (f.position + f.count - 1).repr
  "'utf-8' codec can't encode " ++ place ++ ": surrogates not allowed"

/-- The first halves in a text. -/
def halfFault? (s : String) : Option HalfFault :=
  let cs := s.toList
  let before := cs.takeWhile fun c => (half? c).isNone
  match (cs.drop before.length).takeWhile fun c => (half? c).isSome with
  | [] => none
  | c :: more => some ⟨before.length, more.length + 1, (half? c).getD 0⟩

end BlockGraph.Text
