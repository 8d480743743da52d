import BlockGraph.Text.Blank
import BlockGraph.Text.Cluster
/-!
Paragraphs: text laid out in lines of limited width. Lines are divided between words, and a word that
fits no line is either folded over several or cut with an ellipsis.
-/
namespace BlockGraph.Terminal

/-- What becomes of a word that is wider than a line. -/
inductive Overflow where
  | fold
  | ellipsis
deriving DecidableEq, Repr

/-- Blanks up to the next multiple of eight cells for each tab. -/
def expandTabs (cs : List Char) : List Char :=
  let put := fun ((done, used) : List Char × Nat) (part : List Char) =>
    let used := used + Text.width part
    let gap := 8 - used % 8
    (done ++ part ++ List.replicate gap ' ', used + gap)
  let parts := cs.splitOn '\t'
  (parts.dropLast.foldl put ([], 0)).1 ++ parts.getLastD []

/-- The clusters that fit into this many cells. A blank stands for the part of a wide one. -/
def cropped : Nat → List Text.Cluster → List Char
  | _, [] => []
  | room, k :: rest =>
    if k.cells ≤ room then k.chars ++ cropped (room - k.cells) rest
    else if room = 0 then [] else [' ']

/-- Exactly this many cells of a text, filled up with blanks. -/
def fit (width : Nat) (cs : List Char) : List Char :=
  if width = 0 then []
  else
    let used := Text.width cs
    if used ≤ width then cs ++ List.replicate (width - used) ' '
    else cropped width (Text.clusters cs)

/-- A line no wider than `width`; one that is cut shows an ellipsis where that is asked for. -/
def truncate (width : Nat) (overflow : Overflow) (cs : List Char) : List Char :=
  if Text.width cs ≤ width then cs
  else match overflow with
    | .fold => fit width cs
    | .ellipsis => fit (width - 1) cs ++ ['…']

/-- Drops blanks at the end as far as the line has more characters than `width`. -/
def dropExcessBlanks (width : Nat) (cs : List Char) : List Char :=
  let blanks := cs.length - (Text.trimEnd cs).length
  cs.take (cs.length - min blanks (cs.length - width))

/-- Words in order, each with the blanks behind it, the first one also with those before it. -/
def words (cs : List Char) : List (List Char) :=
  match cs.splitBy fun a b => !Text.isBlank a || Text.isBlank b with
  | lead :: word :: rest =>
    if lead.all Text.isBlank then (lead ++ word) :: rest else lead :: word :: rest
  | short => short

/-- Pieces of a word, each as long as the width allows. -/
def chop (width : Nat) (cs : List Char) : List (List Char) :=
  let put := fun ((done, line, used) : List (List Char) × List Char × Nat) (k : Text.Cluster) =>
    if width < used + k.cells then (done ++ [line], k.chars, k.cells)
    else (done, line ++ k.chars, used + k.cells)
  let (done, line, _) := (Text.clusters cs).foldl put ([], [], 0)
  done ++ [line]

/-- Lines being filled: those that are full, the open one, and the cells it takes. -/
structure Filling where
  full : List (List Char)
  line : List Char
  used : Nat

namespace Filling

/-- Closes the open line, unless nothing stands on it. -/
def closed (f : Filling) : List (List Char) := if f.line.isEmpty then f.full else f.full ++ [f.line]

/-- Puts a word on the open line, or on a new one when it does not fit. -/
def put (width : Nat) (overflow : Overflow) (f : Filling) (word : List Char) : Filling :=
  let needed := Text.width (Text.trimEnd word)
  if needed + f.used ≤ width then ⟨f.full, f.line ++ word, f.used + Text.width word⟩
  else if needed ≤ width || overflow == .ellipsis then ⟨f.closed, word, Text.width word⟩
  else
    let pieces := chop width word
    let last := pieces.getLastD []
    ⟨f.closed ++ pieces.dropLast, last, Text.width last⟩

end Filling

/-- A text without line breaks divided into lines of this width. -/
def divide (width : Nat) (overflow : Overflow) (cs : List Char) : List (List Char) :=
  let f := (words cs).foldl (Filling.put width overflow) ⟨[], [], 0⟩
  f.full ++ [f.line]

/-- The lines of a text at this width. -/
def paragraph (width : Nat) (overflow : Overflow) (text : String) : List String :=
  (text.splitOn "\n").flatMap fun line =>
    (divide width overflow (expandTabs line.toList)).map fun piece =>
      String.ofList (truncate width overflow (dropExcessBlanks width piece))

/-- The cells that a text takes. -/
def cells (s : String) : Nat := Text.width s.toList

/-- A text padded with blanks on the right. -/
def padRight (width : Nat) (s : String) : String :=
  s ++ String.ofList (List.replicate (width - cells s) ' ')

/-- A text with blanks before it that put it in the middle. -/
def centred (width : Nat) (s : String) : String :=
  padRight width (String.ofList (List.replicate ((width - cells s) / 2) ' ') ++ s)

end BlockGraph.Terminal
