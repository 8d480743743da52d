import BlockGraph.Value.Literal
/-!
JSON text of values. A value is written piece by piece, so that what stands written when a fault
stops the writing is part of the answer.
-/
namespace BlockGraph.Json

/-- How the pieces are spaced: after a comma, after a colon, and how far each level is indented when
every item has a line of its own. Whether infinities and not-a-number may be written, and whether
characters outside ASCII are escaped, is up to it too. -/
structure Layout where
  itemGap : String
  keyGap : String
  indent? : Option Nat
  finiteOnly : Bool
  asciiOnly : Bool

namespace Layout

def compact : Layout := ⟨",", ":", none, false, true⟩
def spaced : Layout := ⟨", ", ": ", none, false, true⟩
def indented : Layout := ⟨",", ": ", some 2, false, true⟩

/-- Standard JSON, which any reader takes, for a channel that carries every character. -/
def portable : Layout := { compact with finiteOnly := true, asciiOnly := false }

/-- What stands before an item at this level when items have their own lines. -/
def lineStart (layout : Layout) (level : Nat) : String :=
  match layout.indent? with
  | some n => "\n" ++ String.ofList (List.replicate (n * level) ' ')
  | none => ""

end Layout

/-- A character inside a JSON string. Quotes, backslashes and control characters are escaped, and on
demand everything outside printable ASCII, a character beyond the basic plane as two units. -/
def escapedChar (asciiOnly : Bool) (c : Char) : List Char :=
  if c == '"' then ['\\', '"']
  else if c == '\\' then ['\\', '\\']
  else if c == '\n' then ['\\', 'n']
  else if c == '\r' then ['\\', 'r']
  else if c == '\t' then ['\\', 't']
  else if c.toNat == 0x0C then ['\\', 'f']
  else if c.toNat == 0x08 then ['\\', 'b']
  else
    let n := c.toNat
    if 0x20 ≤ n && (n < 0x7F || !asciiOnly) then [c]
    else if n < 0x10000 then Text.unitEscape n
    else
      let rest := n - 0x10000
      Text.unitEscape (0xD800 + rest / 0x400) ++ Text.unitEscape (0xDC00 + rest % 0x400)

/-- Whether a character stands for a half that reads as such before the characters behind it: no high
half does before a low one. -/
def isLoneHalf (c : Char) (rest : List Char) : Bool :=
  match Text.half? c, rest.head?.bind Text.half? with
  | some n, some next => !(Text.isHighHalf n && Text.isLowHalf next)
  | some _, none => true
  | none, _ => false

/-- The characters inside a JSON string. Where halves are escaped, each is one unit. -/
def escapedChars (asciiOnly : Bool) : List Char → List Char
  | [] => []
  | c :: rest =>
    (if asciiOnly && isLoneHalf c rest then Text.unitEscape ((Text.half? c).getD 0)
      else escapedChar asciiOnly c) ++ escapedChars asciiOnly rest

def stringText (layout : Layout) (s : String) : String :=
  String.ofList ('"' :: escapedChars layout.asciiOnly s.toList ++ ['"'])

def floatText : Double → String
  | .nan _ => "NaN"
  | .infinite negative => if negative then "-Infinity" else "Infinity"
  | x => x.text

/-- Writing: the text so far, and a fault that may stop it. -/
abbrev Writer := ExceptT Fault (StateM String)

def put (s : String) : Writer Unit := modify (· ++ s)

/-- The text of a mapping key. -/
def keyText : Value → Except Fault String
  | .text s => .ok s
  | .float x => .ok (floatText x)
  | .bool b => .ok (if b then "true" else "false")
  | .null => .ok "null"
  | .int n => integerText n
  | k => .error (.keyKind k.kindName)

section
variable (layout : Layout) (other : Value → Except Fault String)

mutual

/-- Writes a value; `other` gives the text that stands for a value JSON has no form for. -/
def write (level : Nat) : Value → Writer Unit
  | .null => put "null"
  | .bool b => put (if b then "true" else "false")
  | .int n => do put (← integerText n)
  | .float x => if layout.finiteOnly && !x.isFinite then throw .notFinite else put (floatText x)
  | .text s => put (stringText layout s)
  | .list [] | .tuple [] => put "[]"
  | .list (v :: rest) | .tuple (v :: rest) => do
    put ("[" ++ layout.lineStart (level + 1))
    write (level + 1) v
    writeItems (level + 1) rest
    put (layout.lineStart level ++ "]")
  | .mapping [] => put "\x7b\x7d"
  | .mapping ((k, v) :: rest) => do
    put ("\x7b" ++ layout.lineStart (level + 1))
    put (stringText layout (← keyText k) ++ layout.keyGap)
    write (level + 1) v
    writeEntries (level + 1) rest
    put (layout.lineStart level ++ "\x7d")
  | v => do put (stringText layout (← other v))

def writeItems (level : Nat) : List Value → Writer Unit
  | [] => pure ()
  | v :: rest => do
    put (layout.itemGap ++ layout.lineStart level)
    write level v
    writeItems level rest

def writeEntries (level : Nat) : List (Value × Value) → Writer Unit
  | [] => pure ()
  | (k, v) :: rest => do
    put (layout.itemGap ++ layout.lineStart level)
    put (stringText layout (← keyText k) ++ layout.keyGap)
    write level v
    writeEntries level rest

end

end

/-- Values without a JSON form are refused. -/
def refuse (v : Value) : Except Fault String := .error (.notWritable v.kindName)

/-- What is written for a value, and the fault that stopped the writing, if any. -/
def written (layout : Layout) (other : Value → Except Fault String) (v : Value) :
    Option Fault × String :=
  match (write layout other 0 v).run.run "" with
  | (.ok (), s) => (none, s)
  | (.error f, s) => (some f, s)

/-- The whole JSON text of a value. -/
def text (layout : Layout) (other : Value → Except Fault String) (v : Value) :
    Except Fault String :=
  match written layout other v with
  | (none, s) => .ok s
  | (some f, _) => .error f

end BlockGraph.Json
