import BlockGraph.Value.Basic
/-!
How deep values are nested, and how deep is too deep for the work that goes down into them.
-/
namespace BlockGraph.Value

mutual

/-- How deep a value is nested; one that holds no others has no depth. -/
def depth : Value → Nat
  | .list items | .tuple items | .set items | .frozenset items => itemsDepth items + 1
  | .mapping entries => entriesDepth entries + 1
  | _ => 0

def itemsDepth : List Value → Nat
  | [] => 0
  | v :: rest => max (depth v) (itemsDepth rest)

def entriesDepth : List (Value × Value) → Nat
  | [] => 0
  | (key, v) :: rest => max (max (depth key) (depth v)) (entriesDepth rest)

end

/-- How many levels a text of a value can have. -/
def textLevels : Nat := 985

/-- How many levels a copy of properties can have. -/
def copyLevels : Nat := 488

/-- How many levels a conversion to plain data can go down. -/
def plainLevels : Nat := 495

/-- A value that is nested no deeper than can be gone through. -/
def within (levels : Nat) (d : Descent) (v : Value) : Except Fault Unit :=
  if levels < v.depth then .error (.tooDeep d) else .ok ()

end BlockGraph.Value
