import BlockGraph.Number.Double
import BlockGraph.Terminal.Markup
import BlockGraph.Terminal.Paragraph
/-!
Tables and panels with rounded borders. Columns are as wide as their widest cell; when that is too wide
for the terminal, the widest columns give way first.
-/
namespace BlockGraph.Terminal

/-- A table of marked-up cells; every row has a cell for each header. -/
structure Table where
  title : String
  headers : List String
  rows : List (List String)

/-- A horizontal border: its ends, what stands between columns, and the line itself. -/
structure Border where
  left : String
  between : String
  right : String

def topBorder : Border := ⟨"╭", "┬", "╮"⟩
def headBorder : Border := ⟨"├", "┼", "┤"⟩
def bottomBorder : Border := ⟨"╰", "┴", "╯"⟩

def rule (width : Nat) : String := String.join (List.replicate width "─")

def Border.line (b : Border) (widths : List Nat) : String :=
  b.left ++ b.between.intercalate (widths.map rule) ++ b.right

/-- Where a text breaks for measuring. -/
def isLineBreak (c : Char) : Bool :=
  [0x0A, 0x1C, 0x1D, 0x1E, 0x85, 0x2028, 0x2029].contains c.toNat

/-- The cells that the widest line of a text takes. -/
def naturalWidth (s : String) : Nat :=
  ((s.toList.splitOnP isLineBreak).map Text.width).foldl max 0

/-- The cells that columns take together. -/
def totalWidth (widths : List Nat) : Nat := widths.foldl (· + ·) 0

/-- Takes `excess` from the marked widths, evenly and no more than `limit` from each. -/
def reduceMarked (limit : Nat) : (excess marked : Nat) → List (Nat × Bool) → List Nat
  | _, _, [] => []
  | excess, marked, (width, true) :: rest =>
    let share := min limit (roundHalfEven excess marked)
    (width - share) :: reduceMarked limit (excess - share) (marked - 1) rest
  | excess, marked, (width, false) :: rest => width :: reduceMarked limit excess marked rest

/-- Brings the widest columns down to the next width, or as far as is needed. -/
def reduceWidest (available : Nat) (widths : List Nat) : List Nat :=
  let excess := totalWidth widths - available
  let widest := widths.foldl max 0
  let next := (widths.filter (· != widest)).foldl max 0
  reduceMarked (min excess (widest - next)) excess (widths.count widest)
    (widths.map fun w => (w, w == widest))

/-- Column widths that fit into the cells available; each round leaves fewer different widths. -/
def collapse (available : Nat) : Nat → List Nat → List Nat
  | 0, widths => widths
  | rounds + 1, widths =>
    if totalWidth widths ≤ available then widths
    else collapse available rounds (reduceWidest available widths)

namespace Table

/-- The widths of the columns of unmarked cells, the blank on either side included. -/
def widths (available : Nat) (cells : List (List String)) (columns : Nat) : List Nat :=
  let natural := (List.range columns).map fun i =>
    min available ((cells.map fun row => naturalWidth (row.getD i "")).foldl max 0 + 2)
  collapse available (columns + 1) natural

/-- The lines of a row: as many as its tallest cell has. -/
def rowLines (widths : List Nat) (row : List String) : List String :=
  let columns := (widths.zip row).map fun (w, cell) => (w, paragraph (w - 2) .ellipsis cell)
  let height := (columns.map (·.2.length)).foldl max 1
  (List.range height).map fun i =>
    let shown := columns.map fun (w, lines) => " " ++ padRight (w - 2) (lines.getD i "") ++ " "
    "│" ++ "│".intercalate shown ++ "│"

/-- A table as lines of a terminal of this width. -/
def lines (terminal : Nat) (t : Table) : Except MarkupFault (List String) := do
  let cells ← (t.headers :: t.rows).mapM fun row => row.mapM unmarked
  let title ← unmarked t.title
  let columns := t.headers.length
  let widths := Table.widths (terminal - (columns + 1)) cells columns
  let total := totalWidth widths + columns + 1
  let titleLines := (paragraph total .fold title).map fun line =>
    centred total (String.ofList (Text.trimEnd line.toList))
  return titleLines ++ [topBorder.line widths] ++ rowLines widths (cells.headD []) ++
    [headBorder.line widths] ++ (cells.drop 1).flatMap (rowLines widths) ++ [bottomBorder.line widths]

end Table

/-- A marked-up text in a box as wide as the terminal, with a title in its upper border. -/
def panel (terminal : Nat) (title text : String) : Except MarkupFault (List String) := do
  let title := " " ++ (← unmarked title) ++ " "
  let room := terminal - 4 - cells title
  let top := "╭─" ++ rule (room / 2) ++ title ++ rule (room - room / 2) ++ "─╮"
  let body := (paragraph (terminal - 4) .fold (← unmarked text)).map fun line =>
    "│ " ++ padRight (terminal - 4) line ++ " │"
  return [top] ++ body ++ [bottomBorder.line [terminal - 2]]

end BlockGraph.Terminal
