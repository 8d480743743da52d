import BlockGraph.Text.Cells
/-!
Clusters: characters that a terminal shows as one. A mark joins the character before it, a joiner also
takes the character after it, and a selector may widen what it follows. Clusters put together give the
text again.
-/
namespace BlockGraph.Text

/-- Characters shown as one, and the cells that they take together. -/
structure Cluster where
  chars : List Char
  cells : Nat
deriving DecidableEq, Repr

/-- The zero-width joiner. -/
def joiner : Char := Char.ofNat 0x200D

/-- The variation selector for emoji. -/
def emojiSelector : Char := Char.ofNat 0xFE0F

/-- The variation selector for plain text. -/
def textSelector : Char := Char.ofNat 0xFE0E

/-- Whether the selector for emoji widens a character. -/
def isWidened (c : Char) : Bool := inRanges c.toNat widenedRanges

/-- A cluster with one more character that takes these cells. -/
def Cluster.add (k : Cluster) (c : Char) (cells : Nat) : Cluster := ⟨k.chars ++ [c], k.cells + cells⟩

/-- The clusters from an open one on. `measured` is the last character that took cells, until it is
widened; `joined` tells that the next character belongs to the open cluster whatever it is. -/
def clustersFrom (k : Cluster) (measured : Option Char) (joined : Bool) : List Char → List Cluster
  | [] => [k]
  | c :: rest =>
    if joined then clustersFrom (k.add c 0) measured false rest
    else if c == joiner then clustersFrom (k.add c 0) measured true rest
    else if c == emojiSelector then
      clustersFrom (k.add c (if measured.any isWidened then 1 else 0)) none false rest
    else if cells c = 0 then clustersFrom (k.add c 0) measured false rest
    else k :: clustersFrom ⟨[c], cells c⟩ (some c) false rest

/-- The clusters of a text. A joiner or a selector at its start has nothing to join. -/
def clusters : List Char → List Cluster
  | [] => []
  | c :: rest => clustersFrom ⟨[c], cells c⟩ (if cells c = 0 then none else some c) false rest

/-- The cells of a text. A joiner at its start hides the character after it. -/
def width : List Char → Nat
  | [] => 0
  | [c] => cells c
  | c :: d :: rest =>
    if c == joiner then width rest
    else (clusters (c :: d :: rest)).foldl (fun n k => n + k.cells) 0

theorem flatMap_clustersFrom (k : Cluster) (measured : Option Char) (joined : Bool) (cs : List Char) :
    (clustersFrom k measured joined cs).flatMap Cluster.chars = k.chars ++ cs := by
  induction cs generalizing k measured joined with
  | nil => simp [clustersFrom]
  | cons c rest ih =>
    simp only [clustersFrom]
    split
    · simp [ih, Cluster.add]
    split
    · simp [ih, Cluster.add]
    split
    · simp [ih, Cluster.add]
    split
    · simp [ih, Cluster.add]
    · simp [ih]

theorem flatMap_clusters (cs : List Char) : (clusters cs).flatMap Cluster.chars = cs := by
  cases cs with
  | nil => rfl
  | cons c rest => simp [clusters, flatMap_clustersFrom]

end BlockGraph.Text
