/-!
Similarity of words: how much of two words is in common runs of characters, and which of some names a
word may have been meant for.
-/
namespace BlockGraph.Text

/-- A run of characters that two words have in common: where it starts in each, and its length. -/
structure Run where
  left : Nat
  right : Nat
  length : Nat

/-- The characters that two words have in common at their start. -/
def commonStart : List Char → List Char → Nat
  | a :: as, b :: bs => if a == b then commonStart as bs + 1 else 0
  | _, _ => 0

/-- The longest common run, of several the one that starts first in `as`, then the one that starts
first in `bs`. -/
def longestRun (as bs : List Char) : Run :=
  let runs := (List.range as.length).flatMap fun i =>
    (List.range bs.length).map fun j => Run.mk i j (commonStart (as.drop i) (bs.drop j))
  runs.foldl (fun best r => if best.length < r.length then r else best) ⟨0, 0, 0⟩

/-- The characters in common runs: the longest one, and those on either side of it. No more than
`depth` runs stand within each other. -/
def commonWithin : (depth : Nat) → List Char → List Char → Nat
  | 0, _, _ => 0
  | depth + 1, as, bs =>
    let r := longestRun as bs
    if r.length = 0 then 0
    else
      commonWithin depth (as.take r.left) (bs.take r.right) + r.length +
        commonWithin depth (as.drop (r.left + r.length)) (bs.drop (r.right + r.length))

/-- The characters in common runs of two words. -/
def common (a b : String) : Nat := commonWithin a.length a.toList b.toList

/-- A name with what it shares with a word: twice `shared` over `total` is their similarity. -/
structure Likeness where
  name : String
  shared : Nat
  total : Nat

namespace Likeness

def ofWord (word name : String) : Likeness := ⟨name, common name word, name.length + word.length⟩

/-- Whether three fifths or more are shared. -/
def isClose (l : Likeness) : Bool := 3 * l.total ≤ 10 * l.shared

/-- Whether a name comes before another: by similarity, and then from the end of the alphabet. -/
def precedes (l m : Likeness) : Bool :=
  let left := l.shared * m.total
  let right := m.shared * l.total
  right < left || (right == left && !(l.name < m.name))

end Likeness

/-- The names, three at most, that a word is closest to, in alphabetical order. -/
def closeNames (word : String) (names : List String) : List String :=
  let close := (names.map (Likeness.ofWord word)).filter Likeness.isClose
  ((close.mergeSort Likeness.precedes).take 3).map (·.name) |>.mergeSort fun a b => !(b < a)

end BlockGraph.Text
