/-!
Escape sequences: an escape character, an opening bracket, numbers and a letter make a terminal change
colours or move. Output that goes to no terminal is written without them.
-/
namespace BlockGraph.Terminal

/-- The characters that a sequence takes after its escape character, when there is one. -/
def sequenceLength? : List Char → Option Nat
  | '[' :: rest =>
    let numbers := rest.takeWhile fun c => c == ';' || c == '?' || c.isDigit
    if (rest.drop numbers.length).head?.any Char.isAlpha then some (numbers.length + 2) else none
  | _ => none

/-- The characters outside escape sequences. `skip` counts characters of the sequence read last. -/
def outsideSequences : (skip : Nat) → List Char → List Char
  | _, [] => []
  | skip + 1, _ :: rest => outsideSequences skip rest
  | 0, c :: rest =>
    match if c == '\x1b' then sequenceLength? rest else none with
    | some length => outsideSequences length rest
    | none => c :: outsideSequences 0 rest

/-- A text without escape sequences. -/
def withoutSequences (s : String) : String := String.ofList (outsideSequences 0 s.toList)

end BlockGraph.Terminal
