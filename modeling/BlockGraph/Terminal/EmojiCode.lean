import BlockGraph.Text.Blank
import BlockGraph.Text.Case
import BlockGraph.Text.Cluster
import BlockGraph.Text.EmojiNames
/-!
Emoji codes: the name of an emoji between colons stands for the emoji. The name may ask for the
appearance of the emoji. A name that is not known stands for itself.
-/
namespace BlockGraph.Terminal

/-- The name in a code, and the selector for the appearance that it asks for. -/
def splitAppearance (name : String) : String × List Char :=
  if name.endsWith "-emoji" then ((name.dropEnd 6).toString, [Text.emojiSelector])
  else if name.endsWith "-text" then ((name.dropEnd 5).toString, [Text.textSelector])
  else (name, [])

/-- What the name between two colons stands for. -/
def emoji? (name : List Char) : Option (List Char) :=
  let (name, selector) := splitAppearance (String.ofList name)
  (Text.emojiNames.lookup (Text.lower name)).map fun shown => shown.toList ++ selector

/-- The name that a colon opens: all up to the next colon, unless a blank comes first. -/
def codeName? (cs : List Char) : Option (List Char) :=
  let name := cs.takeWhile fun c => c != ':' && !Text.isBlank c
  if (cs.drop name.length).head? == some ':' then some name else none

/-- A text with emoji for their codes. `skip` counts characters of the code read last. -/
def emojiFrom : (skip : Nat) → List Char → List Char
  | _, [] => []
  | skip + 1, _ :: rest => emojiFrom skip rest
  | 0, c :: rest =>
    match if c == ':' then codeName? rest else none with
    | some name =>
      (emoji? name).getD (':' :: name ++ [':']) ++ emojiFrom (name.length + 1) rest
    | none => c :: emojiFrom 0 rest

/-- A text with emoji for their codes. -/
def withEmoji (cs : List Char) : List Char := emojiFrom 0 cs

end BlockGraph.Terminal
