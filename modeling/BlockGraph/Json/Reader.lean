import BlockGraph.Number.Reader
import BlockGraph.Value.Equality
/-!
Reading JSON text. Beside the standard forms the words NaN, Infinity and -Infinity are numbers, and a
key written twice keeps its first place and its last value. A text that is no JSON is refused with the
place where reading stopped.
-/
namespace BlockGraph.Json

/-- Why reading stopped. -/
inductive Problem where
  | value
  | name
  | colon
  | comma
  | extra
  | unterminated
  | control
  | escape
  | unicodeEscape
  | byteOrderMark
deriving DecidableEq, Repr

def Problem.message : Problem → String
  | .value => "Expecting value"
  | .name => "Expecting property name enclosed in double quotes"
  | .colon => "Expecting ':' delimiter"
  | .comma => "Expecting ',' delimiter"
  | .extra => "Extra data"
  | .unterminated => "Unterminated string starting at"
  | .control => "Invalid control character at"
  | .escape => "Invalid \\escape"
  | .unicodeEscape => "Invalid \\uXXXX escape"
  | .byteOrderMark => "Unexpected UTF-8 BOM (decode using utf-8-sig)"

/-- A refusal inside the text: what was wrong, and how many characters were left there. A value
beyond a limit is refused without a place. -/
inductive Refusal where
  | problem (p : Problem) (remaining : Nat)
  | fault (f : Fault)

def isSpace (c : Char) : Bool := c == ' ' || c == '\t' || c == '\n' || c == '\r'

def skipSpace (cs : List Char) : List Char := cs.dropWhile isSpace

/-- Four hexadecimal digits as a sixteen-bit unit. -/
def unit? (a b c d : Char) : Option Nat := do
  let digits ← [a, b, c, d].mapM Text.hexDigit?
  return digits.foldl (fun n d => n * 16 + d) 0

/-- The character of a unit, also when it is half of a pair. -/
def unitChar (n : Nat) : Char :=
  if Text.isHighHalf n || Text.isLowHalf n then Text.halfChar n else Char.ofNat n

/-- The character a one-letter escape stands for. -/
def escapeChar? : Char → Option Char
  | '"' => some '"'
  | '\\' => some '\\'
  | '/' => some '/'
  | 'b' => some '\x08'
  | 'f' => some '\x0c'
  | 'n' => some '\n'
  | 'r' => some '\r'
  | 't' => some '\t'
  | _ => none

/-- Reads the rest of a string after its opening quote. `opening` is the text from that quote on, and
`done` holds the characters read so far, last first. -/
def readString (opening done : List Char) : List Char → Except Refusal (String × List Char)
  | [] => .error (.problem .unterminated opening.length)
  | '"' :: rest => .ok (String.ofList done.reverse, rest)
  | '\\' :: 'u' :: a :: b :: c :: d :: next :: rest =>
    match unit? a b c d with
    | none => .error (.problem .unicodeEscape (rest.length + 6))
    | some n =>
      if Text.isHighHalf n then
        match next, rest with
        | '\\', 'u' :: e :: f :: g :: h :: after :: more =>
          match unit? e f g h with
          | none => .error (.problem .unicodeEscape (more.length + 6))
          | some low =>
            if Text.isLowHalf low then readString opening (Text.pairChar n low :: done) (after :: more)
            else readString opening (unitChar n :: done)
              ('\\' :: 'u' :: e :: f :: g :: h :: after :: more)
        | next, rest => readString opening (unitChar n :: done) (next :: rest)
      else readString opening (unitChar n :: done) (next :: rest)
  | '\\' :: 'u' :: rest => .error (.problem .unicodeEscape (rest.length + 1))
  | '\\' :: c :: rest =>
    match escapeChar? c with
    | some e => readString opening (e :: done) rest
    | none => .error (.problem .escape (rest.length + 2))
  | ['\\'] => .error (.problem .unterminated opening.length)
  | c :: rest =>
    if c.toNat < 0x20 then .error (.problem .control (rest.length + 1))
    else readString opening (c :: done) rest
termination_by cs => cs.length

/-- A string from its opening quote on. -/
def string (cs : List Char) : Except Refusal (String × List Char) :=
  readString cs [] (cs.drop 1)

/-- The fraction at the front: a point and at least one digit. -/
def splitFraction : List Char → List Char × List Char
  | '.' :: rest =>
    let digits := rest.takeWhile Char.isDigit
    if digits.isEmpty then ([], '.' :: rest) else ('.' :: digits, rest.dropWhile Char.isDigit)
  | cs => ([], cs)

/-- The exponent at the front: a letter, a sign or none, and at least one digit. -/
def splitExponent : List Char → List Char × List Char
  | c :: rest =>
    if c == 'e' || c == 'E' then
      let (sign, tail) : List Char × List Char := match rest with
        | '+' :: tail => (['+'], tail)
        | '-' :: tail => (['-'], tail)
        | tail => ([], tail)
      let digits := tail.takeWhile Char.isDigit
      if digits.isEmpty then ([], c :: rest)
      else (c :: sign ++ digits, tail.dropWhile Char.isDigit)
    else ([], c :: rest)
  | [] => ([], [])

/-- The whole part at the front: a zero, or digits that start with none. -/
def splitWhole : List Char → List Char × List Char
  | '0' :: rest => (['0'], rest)
  | cs => (cs.takeWhile Char.isDigit, cs.dropWhile Char.isDigit)

/-- Reads a number after its sign. -/
def unsignedNumber (negative : Bool) (start : Nat) (cs : List Char) :
    Except Refusal (Value × List Char) :=
  let (whole, afterWhole) := splitWhole cs
  let (fraction, afterFraction) := splitFraction afterWhole
  let (power, rest) := splitExponent afterFraction
  if whole.isEmpty then .error (.problem .value start)
  else if fraction.isEmpty && power.isEmpty then
    if Fault.digitLimitValue < whole.length then .error (.fault (.digitLimitReading whole.length))
    else
      let n : Int := Number.digitsValue whole
      .ok (.int (if negative then -n else n), rest)
  else
    match Number.decimal? negative (whole ++ fraction ++ power) with
    | some x => .ok (.float x, rest)
    | none => .error (.problem .value start)

/-- The words that stand for a value. -/
def words : List (List Char × Value) :=
  [("null".toList, .null), ("true".toList, .bool true), ("false".toList, .bool false),
   ("NaN".toList, .float .writtenNaN), ("Infinity".toList, .float (.infinite false)),
   ("-Infinity".toList, .float (.infinite true))]

/-- Reads a word or a number. -/
def scalar (cs : List Char) : Except Refusal (Value × List Char) :=
  match words.find? fun w => w.1.isPrefixOf cs with
  | some (word, v) => .ok (v, cs.drop word.length)
  | none => match cs with
    | '-' :: rest => unsignedNumber true cs.length rest
    | c :: _ => if c.isDigit then unsignedNumber false cs.length cs
      else .error (.problem .value cs.length)
    | [] => .error (.problem .value 0)

/-- The levels that are left below an array or object, when there is a limit. -/
def below (d : Descent) : Option Nat → Except Refusal (Option Nat)
  | none => .ok none
  | some 0 => .error (.fault (.tooDeep d))
  | some (levels + 1) => .ok (some levels)

mutual

/-- Reads one value, going down so many levels at most. Each nested value and each item takes one
unit of fuel; the length of the text is enough. -/
def value (levels? : Option Nat) : Nat → List Char → Except Refusal (Value × List Char)
  | 0, cs => .error (.problem .value cs.length)
  | fuel + 1, cs =>
    match cs with
    | '"' :: _ => do
      let (s, rest) ← string cs
      return (.text s, rest)
    | '[' :: rest => do
      let levels? ← below .readingArray levels?
      match skipSpace rest with
      | ']' :: rest => return (.list [], rest)
      | rest =>
        let (items, rest) ← elements levels? fuel [] rest
        return (.list items, rest)
    | '\x7b' :: rest => do
      let levels? ← below .readingObject levels?
      match skipSpace rest with
      | '\x7d' :: rest => return (.mapping [], rest)
      | rest =>
        let (pairs, rest) ← members levels? fuel [] rest
        return (.mapping (Entries.ofPairs pairs), rest)
    | cs => scalar cs

/-- Reads the items of an array up to its closing bracket. -/
def elements (levels? : Option Nat) :
    Nat → List Value → List Char → Except Refusal (List Value × List Char)
  | 0, _, cs => .error (.problem .value cs.length)
  | fuel + 1, done, cs => do
    let (v, rest) ← value levels? fuel cs
    match skipSpace rest with
    | ']' :: rest => return ((v :: done).reverse, rest)
    | ',' :: rest => elements levels? fuel (v :: done) (skipSpace rest)
    | rest => .error (.problem .comma rest.length)

/-- Reads the members of an object up to its closing brace. -/
def members (levels? : Option Nat) : Nat → List (Value × Value) → List Char →
    Except Refusal (List (Value × Value) × List Char)
  | 0, _, cs => .error (.problem .name cs.length)
  | fuel + 1, done, cs =>
    match cs with
    | '"' :: _ => do
      let (key, rest) ← string cs
      match skipSpace rest with
      | ':' :: rest =>
        let (v, rest) ← value levels? fuel (skipSpace rest)
        match skipSpace rest with
        | '\x7d' :: rest => return (((.text key, v) :: done).reverse, rest)
        | ',' :: rest => members levels? fuel ((.text key, v) :: done) (skipSpace rest)
        | rest => .error (.problem .comma rest.length)
      | rest => .error (.problem .colon rest.length)
    | cs => .error (.problem .name cs.length)

end

/-- A place in a text, counted in characters. -/
structure Place where
  offset : Nat
  line : Nat
  column : Nat

/-- The place after this many characters: lines and columns count from one. -/
def placeAt (cs : List Char) (offset : Nat) : Place :=
  let before := cs.take offset
  { offset
    line := before.count '\n' + 1
    column := (before.reverse.takeWhile (· != '\n')).length + 1 }

/-- Why a text is no JSON. -/
inductive ReadFault where
  | malformed (problem : Problem) (place : Place)
  | fault (f : Fault)

def ReadFault.message : ReadFault → String
  | .malformed p at_ =>
    p.message ++ ": line " ++ at_.line.repr ++ " column " ++ at_.column.repr ++
      " (char " ++ at_.offset.repr ++ ")"
  | .fault f => f.message

/-- Reads a text that is one JSON value with space around it. -/
def readChars (levels? : Option Nat) (cs : List Char) : Except Refusal Value := do
  if cs.head? == some '\uFEFF' then .error (.problem .byteOrderMark cs.length)
  else
    let (v, rest) ← value levels? (2 * cs.length + 2) (skipSpace cs)
    match skipSpace rest with
    | [] => return v
    | rest => .error (.problem .extra rest.length)

/-- The value a JSON text holds, when it is nested no deeper than a limit. -/
def readWithin (levels? : Option Nat) (text : String) : Except ReadFault Value :=
  let cs := text.toList
  match readChars levels? cs with
  | .ok v => .ok v
  | .error (.problem p remaining) => .error (.malformed p (placeAt cs (cs.length - remaining)))
  | .error (.fault f) => .error (.fault f)

/-- The value a JSON text holds. -/
def read (text : String) : Except ReadFault Value := readWithin none text

/-- How deep a text from outside may be nested. -/
def outsideLevels : Nat := 985

/-- What keeps a text from outside from being read when it is nested too deep. -/
def depthFault? (text : String) : Option Fault :=
  match readWithin (some outsideLevels) text with
  | .error (.fault (.tooDeep d)) => some (.tooDeep d)
  | _ => none

end BlockGraph.Json
