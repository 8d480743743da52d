import BlockGraph.Text.Blank
import BlockGraph.Text.Digit
/-!
Actions: a tag such as `[@click=app.bell(1)]` tells what to do on an event, as a dotted name with
literals for arguments. A terminal without a pointer never acts, but it refuses arguments that cannot
be read.
-/
namespace BlockGraph.Terminal

/-- Why the arguments of an action cannot be read. -/
inductive ActionFault where
  | neverClosed (opening : Char)
  | unmatched (closing : Char)
  | mismatched (closing opening : Char)
  | endlessText (line : Nat)
  | endlessBlock (line : Nat)
  | badNumber (kind : String)
  | badDigit (digit : Char) (kind : String)
  | leadingZero
  | strayBackslash
  | missingComma
  | assigned
  | literalAssigned
  | malformed
deriving DecidableEq, Repr

def ActionFault.message : ActionFault → String
  | neverClosed opening => "'" ++ opening.toString ++ "' was never closed"
  | unmatched closing => "unmatched '" ++ closing.toString ++ "'"
  | mismatched closing opening =>
    "closing parenthesis '" ++ closing.toString ++ "' does not match opening parenthesis '" ++
      opening.toString ++ "'"
  | endlessText line => "unterminated string literal (detected at line " ++ line.repr ++ ")"
  | endlessBlock line =>
    "unterminated triple-quoted string literal (detected at line " ++ line.repr ++ ")"
  | badNumber kind => "invalid " ++ kind ++ " literal"
  | badDigit digit kind => "invalid digit '" ++ digit.toString ++ "' in " ++ kind ++ " literal"
  | leadingZero =>
    "leading zeros in decimal integer literals are not permitted; use an 0o prefix for octal integers"
  | strayBackslash => "unexpected character after line continuation character"
  | missingComma => "invalid syntax. Perhaps you forgot a comma?"
  | assigned => "invalid syntax. Maybe you meant '==' or ':=' instead of '='?"
  | literalAssigned => "cannot assign to literal here. Maybe you meant '==' instead of '='?"
  | malformed => "invalid syntax"

/-- The words and marks of an action. A stray backslash ends them. -/
inductive ActionToken where
  | name (word : String)
  | number
  | text
  | opening (c : Char)
  | closing (c : Char)
  | mark (shown : String)
  | lineEnd
  | stray
deriving DecidableEq, Repr

namespace ActionToken

def isNameStart (c : Char) : Bool :=
  c.isAlpha || c == '_' || (0x80 ≤ c.toNat && !Text.isBlank c)

def isNamePart (c : Char) : Bool := isNameStart c || c.isDigit

/-- Digits with single underscores between them: how many characters they take. -/
def digitsLength (isDigit : Char → Bool) (cs : List Char) : Nat :=
  match cs.splitOn '_' with
  | [] => 0
  | head :: rest =>
    let run := head.takeWhile isDigit
    if run.isEmpty then 0
    else if run.length < head.length then run.length
    else go run.length rest
where
  go (length : Nat) : List (List Char) → Nat
    | [] => length
    | part :: rest =>
      let run := part.takeWhile isDigit
      if run.isEmpty then length
      else if run.length < part.length then length + 1 + run.length
      else go (length + 1 + run.length) rest

/-- Nothing may follow a number that would make it a name; a keyword may. -/
def ended (kind : String) (length : Nat) (rest : List Char) : Except ActionFault (ActionToken × Nat) :=
  let word := String.ofList (rest.takeWhile isNamePart)
  let keywords := ["and", "else", "for", "if", "in", "is", "not", "or"]
  if word.isEmpty || keywords.any (word.startsWith ·) then .ok (.number, length)
  else .error (.badNumber kind)

/-- A number in base two, eight or sixteen, whose letter has been read. -/
def based (kind : String) (isDigit : Char → Bool) (cs : List Char) :
    Except ActionFault (ActionToken × Nat) :=
  let body := match cs with
    | '_' :: rest => rest
    | rest => rest
  let skipped := 2 + (cs.length - body.length)
  let length := digitsLength isDigit body
  let rest := body.drop length
  match rest with
  | c :: _ =>
    if c.isDigit then .error (.badDigit c kind)
    else if length = 0 || c == '_' then .error (.badNumber kind)
    else ended kind (skipped + length) rest
  | [] => if length = 0 then .error (.badNumber kind) else .ok (.number, skipped + length)

/-- The exponent at the head of a text: how many characters it takes. -/
def exponentLength : List Char → Nat
  | c :: rest =>
    if c == 'e' || c == 'E' then
      let signed := match rest with
        | '+' :: ds | '-' :: ds => (2, digitsLength Char.isDigit ds)
        | ds => (1, digitsLength Char.isDigit ds)
      if signed.2 = 0 then 0 else signed.1 + signed.2
    else 0
  | [] => 0

/-- A decimal number, with a point, an exponent and the letter of an imaginary one where they stand. -/
def readDecimal (cs : List Char) : Except ActionFault (ActionToken × Nat) :=
  let whole := digitsLength Char.isDigit cs
  let fraction := match cs.drop whole with
    | '.' :: rest => 1 + digitsLength Char.isDigit rest
    | _ => 0
  let exponent := exponentLength (cs.drop (whole + fraction))
  let length := whole + fraction + exponent
  let digits := cs.take whole
  match cs.drop length with
  | 'j' :: rest | 'J' :: rest => ended "imaginary" (length + 1) rest
  | rest =>
    if fraction + exponent = 0 && digits.head? == some '0' &&
        digits.any (fun c => c != '0' && c != '_') then .error .leadingZero
    else ended "decimal" length rest

/-- The number at the head of a text. -/
def readNumber (cs : List Char) : Except ActionFault (ActionToken × Nat) :=
  match cs with
  | '0' :: 'x' :: rest | '0' :: 'X' :: rest =>
    based "hexadecimal" (fun c => (Text.hexDigit? c).isSome) rest
  | '0' :: 'o' :: rest | '0' :: 'O' :: rest => based "octal" (fun c => '0' ≤ c && c ≤ '7') rest
  | '0' :: 'b' :: rest | '0' :: 'B' :: rest => based "binary" (fun c => c == '0' || c == '1') rest
  | _ => readDecimal cs

/-- The characters of a text up to its closing quote, the quote included; a backslash goes with the
character after it. -/
def textLength (quote : Char) : List Char → Option Nat
  | [] => none
  | '\\' :: _ :: rest => (textLength quote rest).map (· + 2)
  | c :: rest =>
    if c == quote then some 1
    else if c == '\n' then none
    else (textLength quote rest).map (· + 1)

/-- The characters of a text up to its three closing quotes, the quotes included. -/
def blockLength (quote : Char) : List Char → Option Nat
  | [] => none
  | '\\' :: _ :: rest => (blockLength quote rest).map (· + 2)
  | c :: rest =>
    if c == quote && rest.take 2 == [quote, quote] then some 3
    else (blockLength quote rest).map (· + 1)

def lineBreaks (cs : List Char) : Nat := cs.count '\n'

/-- The text that a quote opens. `line` is the line of the quote. -/
def readText (line : Nat) (quote : Char) (rest : List Char) : Except ActionFault (ActionToken × Nat) :=
  if rest.take 2 == [quote, quote] then
    match blockLength quote (rest.drop 2) with
    | some length => .ok (.text, length + 3)
    | none => .error (.endlessBlock (line + lineBreaks rest))
  else match textLength quote rest with
    | some length => .ok (.text, length + 1)
    | none => .error (.endlessText line)

/-- The marks of more than one character, longest first. -/
def longMarks : List String :=
  ["...", "**=", "//=", ">>=", "<<=", "**", "//", ">>", "<<", "==", "!=", "<=", ">=", "<>", "->", ":=",
   "+=", "-=", "*=", "/=", "%=", "&=", "|=", "^=", "@="]

/-- The words that may stand before the quote of a text. -/
def textPrefixes : List String := ["r", "u", "b", "br", "rb", "f", "fr", "rf"]

/-- The token at the head of a text that starts with no blank, and the characters it takes. -/
def first (line : Nat) (c : Char) (rest : List Char) : Except ActionFault (ActionToken × Nat) :=
  if isNameStart c then
    let word := c :: rest.takeWhile isNamePart
    let lowered := String.ofList (word.map Char.toLower)
    match (c :: rest).drop word.length with
    | quote :: inner =>
      if (quote == '\'' || quote == '"') && textPrefixes.contains lowered then do
        let (token, length) ← readText line quote inner
        return (token, word.length + length)
      else .ok (.name (String.ofList word), word.length)
    | [] => .ok (.name (String.ofList word), word.length)
  else if c.isDigit || (c == '.' && (rest.head?.any Char.isDigit)) then readNumber (c :: rest)
  else if c == '\'' || c == '"' then readText line c rest
  else if c == '(' || c == '\x7b' then .ok (.opening c, 1)
  else if c == ')' || c == '\x7d' then .ok (.closing c, 1)
  else if c == '\n' then .ok (.lineEnd, 1)
  else if c == '\\' then
    if rest.head? == some '\n' then .ok (.lineEnd, 2) else .ok (.stray, rest.length + 1)
  else match longMarks.find? fun m => m.toList.isPrefixOf (c :: rest) with
    | some m => .ok (.mark m, m.length)
    | none => .ok (.mark c.toString, 1)

/-- The bracket that closes another. -/
def closer (opening : Char) : Char := if opening == '(' then ')' else '\x7d'

/-- The brackets open after a token. -/
def nest (opened : List Char) : ActionToken → Except ActionFault (List Char)
  | .opening c => .ok (c :: opened)
  | .closing c => match opened with
    | [] => .error (.unmatched c)
    | o :: outer => if closer o == c then .ok outer else .error (.mismatched c o)
  | _ => .ok opened

/-- The tokens of a text. Brackets match, as far as they are closed; within them lines do not count. -/
def ofChars (opened : List Char) (line : Nat) : List Char → Except ActionFault (List ActionToken)
  | [] => .ok []
  | c :: rest =>
    if c == ' ' || c == '\t' || c == '\x0c' then ofChars opened line rest
    else if c == '#' then ofChars opened line (rest.dropWhile (· != '\n'))
    else do
      let (token, length) ← first line c rest
      let opened ← nest opened token
      let line := line + lineBreaks ((c :: rest).take length)
      let tokens ← ofChars opened line (rest.drop (length - 1))
      return if token == .lineEnd && !opened.isEmpty then tokens else token :: tokens
termination_by cs => cs.length
decreasing_by
  · exact Nat.lt_succ_self _
  · exact Nat.lt_succ_of_le (List.dropWhile_sublist _).length_le
  · exact Nat.lt_succ_of_le (List.length_drop ▸ Nat.sub_le _ _)

end ActionToken

/-- What has been read of an action: an operand is due, at the start of an argument or within it, or
one has been read. -/
inductive ActionState where
  | due (fresh : Bool)
  | read (operand : Option ActionToken)

namespace ActionState

/-- Words that join two operands. -/
def joiners : List String := ["and", "or", "in", "is", "if", "else", "for"]

/-- Words that are no operands. -/
def reserved : List String :=
  joiners ++ ["as", "assert", "async", "await", "break", "class", "continue", "def", "del", "elif",
    "except", "finally", "from", "global", "import", "lambda", "nonlocal", "pass", "raise", "return",
    "try", "while", "with", "yield"]

/-- Marks that join two operands. -/
def operators : List String :=
  ["+", "-", "*", "/", "%", "@", "&", "|", "^", "**", "//", ">>", "<<", "==", "!=", "<", ">", "<=", ">=",
   ":="]

/-- Marks that may stand before an operand. -/
def signs : List String := ["+", "-", "~"]

/-- Whether a token starts an operand. -/
def startsOperand : ActionToken → Bool
  | .name word => !reserved.contains word
  | .number | .text | .opening _ => true
  | .mark shown => signs.contains shown
  | _ => false

/-- The fault of two operands side by side. -/
def adjoining (opened : List Char) (operand : Option ActionToken) (token : ActionToken)
    (rest : List ActionToken) : ActionFault :=
  match opened, rest, operand, token with
  | _, .stray :: _, _, _ => .strayBackslash
  | _, [], _, .opening c => .neverClosed c
  | [], _, _, _ => .malformed
  | o :: _, [], _, _ => .neverClosed o
  | _, _, some (.name _), .text => .malformed
  | _, _, _, _ => .missingComma

/-- The fault of an assignment to an operand. -/
def assigning (opened : List Char) (operand : Option ActionToken) (rest : List ActionToken) :
    ActionFault :=
  match opened, operand, rest with
  | _, _, .stray :: _ => .strayBackslash
  | o :: _, _, [] => .neverClosed o
  | _ :: _, some (.name word), next :: _ =>
    if startsOperand next && !(["None", "True", "False"].contains word) then .assigned else .malformed
  | _ :: _, some _, next :: _ => if startsOperand next then .literalAssigned else .malformed
  | _, _, _ => .malformed

/-- Goes through tokens within open brackets. -/
def check (opened : List Char) : ActionState → List ActionToken → Except ActionFault Unit
  | state, [] => match opened, state with
    | o :: _, _ => .error (.neverClosed o)
    | [], .due false => .error .malformed
    | [], _ => .ok ()
  | _, .stray :: _ => .error .strayBackslash
  | .due fresh, token :: rest =>
    let operand := if fresh then some token else none
    match token with
    | .name word =>
      if word == "not" then check opened (.due false) rest
      else if reserved.contains word then .error .malformed
      else check opened (.read operand) rest
    | .number | .text => check opened (.read operand) rest
    | .opening c => check (c :: opened) (.due true) rest
    | .closing _ => if fresh then check (opened.drop 1) (.read none) rest else .error .malformed
    | .mark shown =>
      if signs.contains shown then check opened (.due false) rest
      else if shown == "..." then check opened (.read none) rest
      else .error .malformed
    | .lineEnd | .stray => .error .malformed
  | .read operand, token :: rest =>
    match token with
    | .name word =>
      if joiners.contains word then check opened (.due false) rest
      else if reserved.contains word then .error .malformed
      else .error (adjoining opened operand token rest)
    | .text =>
      if operand == some .text then check opened (.read operand) rest
      else .error (adjoining opened operand token rest)
    | .number => .error (adjoining opened operand token rest)
    | .opening c =>
      if c == '(' then check (c :: opened) (.due true) rest
      else .error (adjoining opened operand token rest)
    | .closing _ => check (opened.drop 1) (.read none) rest
    | .mark shown =>
      if shown == "," then check opened (.due true) rest
      else if shown == "." then check opened (.due false) rest
      else if shown == "..." then .error (adjoining opened operand token rest)
      else if shown == "=" then .error (assigning opened operand rest)
      else if operators.contains shown || (shown == ":" && opened.head? == some '\x7b') then
        check opened (.due false) rest
      else .error .malformed
    | .lineEnd | .stray => .error .malformed

end ActionState

/-- Reads arguments, for what may be wrong with them. -/
def checkArguments (cs : List Char) : Except ActionFault Unit := do
  match ← ActionToken.ofChars [] 1 cs with
  | [] => .error .malformed
  | tokens => ActionState.check [] (.due true) tokens

/-- The arguments of an action: those in the round brackets behind a dotted name, or none. What starts
with no such name is all arguments. -/
def argumentsOf (cs : List Char) : List Char :=
  let arguments := cs.dropWhile fun c => ActionToken.isNamePart c || c == '.'
  match arguments with
  | [] => ['(', ')']
  | c :: rest =>
    if c == '(' && rest.getLast? == some ')' && !rest.contains '\n' then arguments else cs

end BlockGraph.Terminal
