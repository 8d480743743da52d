import BlockGraph.Text.Digit
import BlockGraph.Text.Utf8
/-!
Percent escapes in addresses: a percent sign and two hexadecimal digits stand for a byte of UTF-8.
-/
namespace BlockGraph.Text

/-- The bytes of a text with percent escapes. -/
def percentBytes : List Char → List Nat
  | '%' :: a :: b :: rest => match hexDigit? a, hexDigit? b with
    | some high, some low => (high * 16 + low) :: percentBytes rest
    | _, _ => 0x25 :: percentBytes (a :: b :: rest)
  | c :: rest => (String.singleton c).toUTF8.toList.map (·.toNat) ++ percentBytes rest
  | [] => []
termination_by cs => cs.length

/-- The text that bytes spell, with a replacement character for each stretch that spells none. -/
def ofBytesLeniently : (fuel : Nat) → List Nat → String
  | 0, _ => ""
  | fuel + 1, bytes => match ofBytes bytes with
    | .ok s => s
    | .error f =>
      let before := match ofBytes (bytes.take f.position) with
        | .ok s => s
        | .error _ => ""
      before ++ "\uFFFD" ++ ofBytesLeniently fuel (bytes.drop (f.position + f.count))

/-- A text with its percent escapes read. -/
def percentDecoded (s : String) : String :=
  let bytes := percentBytes s.toList
  ofBytesLeniently (bytes.length + 1) bytes

end BlockGraph.Text
