import BlockGraph.Terminal.Action
import BlockGraph.Terminal.EmojiCode
import BlockGraph.Terminal.Style
import BlockGraph.Text.Quoted
/-!
Markup: text with style tags in square brackets, such as `[red]` and `[/red]`. Terminals without colours
show the text without its tags.
-/
namespace BlockGraph.Terminal

/-- What is wrong with marked-up text: a closing tag closes nothing, the arguments of an action cannot
be read, or a colour lacks a number. -/
inductive MarkupFault where
  | unmatched (tag : String) (position : Nat)
  | nothingOpen (position : Nat)
  | action (fault : ActionFault) (arguments given : String)
  | noNumber
deriving DecidableEq, Repr

namespace MarkupFault

/-- The kind by which a fault is told. -/
def kind : MarkupFault → String
  | noNumber => "ValueError"
  | _ => "MarkupError"

def message : MarkupFault → String
  | unmatched tag position =>
    "closing tag '[" ++ tag ++ "]' at position " ++ position.repr ++ " doesn't match any open tag"
  | nothingOpen position =>
    "closing tag '[/]' at position " ++ position.repr ++ " has nothing to close"
  | action fault arguments given =>
    "error parsing " ++ Text.quoted arguments ++ " in " ++ Text.quoted given ++ "; " ++ fault.message
  | noNumber => "invalid literal for int() with base 10: ''"

end MarkupFault

/-- The control characters that a terminal would act on. -/
def controlCodes : List Nat := [0x07, 0x08, 0x0B, 0x0C, 0x0D]

/-- A text as it is shown: emoji stand for their codes, and control characters are left out. -/
def shownChars (cs : List Char) : List Char :=
  (withEmoji cs).filter fun c => !controlCodes.contains c.toNat

/-- A text without markup as it is shown. -/
def shownText (s : String) : String := String.ofList (shownChars s.toList)

def isTagStart (c : Char) : Bool := ('a' ≤ c && c ≤ 'z') || c == '#' || c == '/' || c == '@'

/-- What a tag at the head of a text holds between its brackets. -/
def tag? : List Char → Option (List Char)
  | '[' :: c :: rest =>
    let inner := rest.takeWhile fun c => c != ']' && c != '['
    if isTagStart c && (rest.drop inner.length).head? == some ']' then some (c :: inner) else none
  | _ => none

/-- A part of a marked-up text: characters to show, or a tag with its position. -/
inductive MarkupPart where
  | shown (cs : List Char)
  | tag (inner : List Char) (position : Nat)

/-- The parts that a tag with backslashes before it stands for: two backslashes are one, and an odd one
makes the tag a text. -/
def escapedTag (slashes : Nat) (inner : List Char) (position : Nat) : List MarkupPart :=
  let kept := .shown (List.replicate (slashes / 2) '\\')
  if slashes % 2 = 1 then [kept, .shown ('[' :: inner ++ [']'])]
  else [kept, .tag inner (position + slashes)]

/-- Splits a text into parts. `done` holds the characters since the last tag in reverse; `slashes`
counts the backslashes after them, just before the rest of the text, which starts at `position`; `skip`
counts characters that belong to the tag read last. -/
def markupParts (done : List Char) : (skip slashes position : Nat) → List Char → List MarkupPart
  | _, slashes, _, [] => [.shown (done.reverse ++ List.replicate slashes '\\')]
  | skip + 1, _, position, _ :: rest => markupParts done skip 0 (position + 1) rest
  | 0, slashes, position, c :: rest =>
    if c == '\\' then markupParts done 0 (slashes + 1) (position + 1) rest
    else match tag? (c :: rest) with
      | some inner =>
        .shown done.reverse :: (escapedTag slashes inner (position - slashes) ++
          markupParts [] (inner.length + 1) 0 (position + 1) rest)
      | none =>
        let before := if c == '[' then slashes - 1 else slashes
        markupParts (c :: (List.replicate before '\\' ++ done)) 0 0 (position + 1) rest

/-- An open tag: the name of what it asks for, and what stands behind its equals sign. -/
structure OpenTag where
  name : String
  parameters : List Char

def nameOf (tag : List Char) : Except MarkupFault String :=
  match styleName (String.ofList tag) with
  | .ok name => .ok name
  | .error _ => .error .noNumber

/-- Refuses a tag for an action with unreadable arguments. -/
def OpenTag.checkAction (t : OpenTag) : Except MarkupFault Unit :=
  if t.name.startsWith "@" && !t.parameters.isEmpty then
    let arguments := argumentsOf (Text.trimChars t.parameters)
    match checkArguments arguments with
    | .ok () => .ok ()
    | .error f => .error (.action f (String.ofList arguments) (String.ofList t.parameters))
  else .ok ()

/-- Takes out the innermost open tag of a name. -/
def takeOpen (name : String) : List OpenTag → Option (OpenTag × List OpenTag)
  | [] => none
  | t :: rest =>
    if t.name == name then some (t, rest)
    else (takeOpen name rest).map fun (found, others) => (found, t :: others)

/-- The tag that a closing tag closes, and the others that are open. -/
def closed (opened : List OpenTag) (inner name : List Char) (position : Nat) :
    Except MarkupFault (OpenTag × List OpenTag) :=
  match Text.trimChars name, opened with
  | [], t :: rest => .ok (t, rest)
  | [], [] => .error (.nothingOpen position)
  | style, _ => do
    match takeOpen (← nameOf style) opened with
    | some found => .ok found
    | none => .error (.unmatched (String.ofList inner) position)

/-- The open tags after another tag, innermost first. -/
def nextOpen (opened : List OpenTag) (inner : List Char) (position : Nat) :
    Except MarkupFault (List OpenTag) := do
  let name := inner.takeWhile (· != '=')
  match name with
  | '/' :: style =>
    let (t, rest) ← closed opened inner style position
    t.checkAction
    return rest
  | _ => return ⟨← nameOf name, inner.drop (name.length + 1)⟩ :: opened

/-- What is left of a marked-up text when its tags are taken out. -/
def unmarked (markup : String) : Except MarkupFault String := do
  let put := fun ((opened, shown) : List OpenTag × List (List Char)) (part : MarkupPart) =>
    match part with
    | .shown cs => .ok (opened, shownChars cs :: shown)
    | .tag inner position => do return (← nextOpen opened inner position, shown)
  let (_, shown) ← (markupParts [] 0 0 0 markup.toList).foldlM put ([], [])
  return String.ofList shown.reverse.flatten

end BlockGraph.Terminal
