import BlockGraph.Text.Quoted
/-!
Texts from bytes in UTF-8, and where bytes are no such text.
-/
namespace BlockGraph.Text

/-- Why bytes are no text. -/
inductive ByteProblem where
  | start
  | continuation
  | ending
deriving DecidableEq, Repr

/-- The first bytes that belong to no character: their place, their number, and the first of them. -/
structure ByteFault where
  problem : ByteProblem
  position : Nat
  count : Nat
  first : Nat
deriving DecidableEq, Repr

namespace ByteFault

def reason : ByteProblem → String
  | .start => "invalid start byte"
  | .continuation => "invalid continuation byte"
  | .ending => "unexpected end of data"

def message (f : ByteFault) : String :=
  let place := if f.count = 1 then
      "byte 0x" ++ String.ofList (hexDigits 2 f.first) ++ " in position " ++ f.position.repr
    else "bytes in position " ++ f.position.repr ++ "-" ++ (f.position + f.count - 1).repr
  "'utf-8' codec can't decode " ++ place ++ ": " ++ reason f.problem

end ByteFault

def isContinuation (b : Nat) : Bool := 0x80 ≤ b && b < 0xC0

/-- How many bytes follow a first byte, which bits it gives itself, and the bounds of the byte after
it. The bounds shut out longer spellings than needed, surrogates, and what is beyond the last
character. -/
def lead? (b : Nat) : Option (Nat × Nat × Nat × Nat) :=
  if b < 0x80 then some (0, b, 0x80, 0xC0)
  else if b < 0xC2 then none
  else if b < 0xE0 then some (1, b - 0xC0, 0x80, 0xC0)
  else if b < 0xF0 then
    some (2, b - 0xE0, if b = 0xE0 then 0xA0 else 0x80, if b = 0xED then 0xA0 else 0xC0)
  else if b < 0xF5 then
    some (3, b - 0xF0, if b = 0xF0 then 0x90 else 0x80, if b = 0xF4 then 0x90 else 0xC0)
  else none

/-- A character under way: the bytes still to come, those read, and the bits so far. -/
structure Unfinished where
  left : Nat
  read : Nat
  bits : Nat
  low : Nat
  high : Nat
  first : Nat

/-- Reads bytes from a position on; the characters read come latest first. -/
def decodeFrom (position : Nat) (state? : Option Unfinished) (done : List Char) :
    List Nat → Except ByteFault (List Char)
  | [] => match state? with
    | none => .ok done.reverse
    | some u => .error ⟨.ending, position - u.read, u.read, u.first⟩
  | b :: rest => match state? with
    | none => match lead? b with
      | none => .error ⟨.start, position, 1, b⟩
      | some (0, bits, _, _) => decodeFrom (position + 1) none (Char.ofNat bits :: done) rest
      | some (left, bits, low, high) =>
        decodeFrom (position + 1) (some ⟨left, 1, bits, low, high, b⟩) done rest
    | some u =>
      if b < u.low || u.high ≤ b then .error ⟨.continuation, position - u.read, u.read, u.first⟩
      else
        let bits := u.bits * 64 + (b - 0x80)
        if u.left ≤ 1 then decodeFrom (position + 1) none (Char.ofNat bits :: done) rest
        else decodeFrom (position + 1) (some ⟨u.left - 1, u.read + 1, bits, 0x80, 0xC0, u.first⟩)
          done rest

/-- The text that bytes spell. -/
def ofBytes (bytes : List Nat) : Except ByteFault String :=
  (decodeFrom 0 none [] bytes).map String.ofList

/-- Every line break, however spelled, as a line feed. -/
def unifiedBreaks : List Char → List Char
  | '\r' :: '\n' :: rest => '\n' :: unifiedBreaks rest
  | '\r' :: rest => '\n' :: unifiedBreaks rest
  | c :: rest => c :: unifiedBreaks rest
  | [] => []

end BlockGraph.Text
