import BlockGraph.Value.Basic
/-!
Deep copies, and values frozen against changes. A copy is equal to its source except where a foreign value
is inside, since a copied foreign value is a new one; some foreign values refuse.
-/
namespace BlockGraph.Value

def copyForeign (f : Foreign) : Except Fault Value :=
  if f.copyable then .ok (.foreign { f with copies := f.copies + 1 }) else .error .uncopyable

mutual

/-- A deep copy. -/
def copy : Value → Except Fault Value
  | .list items => do return .list (← copyList items)
  | .tuple items => do return .tuple (← copyList items)
  | .set items => do return .set (← copyList items)
  | .frozenset items => do return .frozenset (← copyList items)
  | .mapping entries => do return .mapping (← copyEntries entries)
  | .foreign f => copyForeign f
  | v => .ok v

def copyList : List Value → Except Fault (List Value)
  | [] => .ok []
  | v :: rest => do
    let first ← copy v
    return first :: (← copyList rest)

def copyEntries : List (Value × Value) → Except Fault (List (Value × Value))
  | [] => .ok []
  | (k, v) :: rest => do
    let key ← copy k
    let value ← copy v
    return (key, value) :: (← copyEntries rest)

end

mutual

/-- A copy that may be changed: outside lists and sets every tuple is turned into a list, and every frozen
set into a set of the same items. What is in a list or a set that is not frozen is copied as it is. -/
def loosen : Value → Except Fault Value
  | .mapping entries => do return .mapping (← loosenEntries entries)
  | .tuple items => do return .list (← loosenList items)
  | .frozenset items => .ok (.set items)
  | .list items => do return .list (← copyList items)
  | .set items => do return .set (← copyList items)
  | .foreign f => copyForeign f
  | v => .ok v

def loosenList : List Value → Except Fault (List Value)
  | [] => .ok []
  | v :: rest => do
    let first ← loosen v
    return first :: (← loosenList rest)

def loosenEntries : List (Value × Value) → Except Fault (List (Value × Value))
  | [] => .ok []
  | (k, v) :: rest => do
    let value ← loosen v
    return (k, value) :: (← loosenEntries rest)

end

mutual

/-- The value as it is kept where nobody may change it: outside sets every list is turned into a tuple, and
every set into a frozen one. -/
def freeze : Value → Value
  | .mapping entries => .mapping (freezeEntries entries)
  | .list items | .tuple items => .tuple (freezeItems items)
  | .set items | .frozenset items => .frozenset items
  | v => v

def freezeItems : List Value → List Value
  | [] => []
  | v :: rest => freeze v :: freezeItems rest

def freezeEntries : List (Value × Value) → List (Value × Value)
  | [] => []
  | (k, v) :: rest => (k, freeze v) :: freezeEntries rest

end

end BlockGraph.Value
