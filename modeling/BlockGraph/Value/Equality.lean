import BlockGraph.Value.Basic
/-!
Equality of values, and mappings looked up by it. Numbers and truth values are equal when they are
the same number; lists, tuples, mappings and sets are equal when their parts are.
-/
namespace BlockGraph

namespace Value

/-- Whether two values are one not-a-number. It is no number that it equals, but containers that hold it
are equal. -/
def isSameNaN : Value → Value → Bool
  | .float x, .float y => x.isSameNaN y
  | _, _ => false

/-- Whether two values are the same number. -/
def sameNumber (a b : Value) : Bool :=
  match a.number?, b.number? with
  | some x, some y => x.eq y
  | _, _ => false

mutual

/-- Equality of values. A mapping equals one of the same size that holds an equal value under each of
its keys, and a set one of the same size that holds each of its items, be it frozen or not. -/
def eq : Value → Value → Bool
  | .null, .null => true
  | .text a, .text b => a == b
  | .list a, .list b => eqList a b
  | .tuple a, .tuple b => eqList a b
  | .set a, .set b | .set a, .frozenset b | .frozenset a, .set b | .frozenset a, .frozenset b =>
    a.length == b.length && eqAmong a b
  | .mapping a, .mapping b => a.length == b.length && eqEntries a b
  | .foreign a, .foreign b => a == b
  | a, b => sameNumber a b
termination_by structural a => a

def eqList : List Value → List Value → Bool
  | [], [] => true
  | a :: as, b :: bs => (isSameNaN a b || eq a b) && eqList as bs
  | _, _ => false
termination_by structural as => as

def eqAmong : List Value → List Value → Bool
  | [], _ => true
  | a :: as, bs => (bs.any fun b => isSameNaN a b || eq a b) && eqAmong as bs
termination_by structural as => as

def eqEntries : List (Value × Value) → List (Value × Value) → Bool
  | [], _ => true
  | (k, v) :: rest, other =>
    (match other.find? fun e => isSameNaN k e.1 || eq k e.1 with
      | some e => isSameNaN v e.2 || eq v e.2
      | none => false) && eqEntries rest other
termination_by structural entries => entries

end

mutual

/-- The type of the first part that keeps a value from being a key. -/
def unhashableKind? : Value → Option String
  | .list _ => some "list"
  | .mapping _ => some "dict"
  | .set _ => some "set"
  | .tuple items => unhashableAmong? items
  | _ => none

def unhashableAmong? : List Value → Option String
  | [] => none
  | v :: rest => unhashableKind? v <|> unhashableAmong? rest

end

/-- Whether two values are one item of a container, or one key. -/
def isSameItem (a b : Value) : Bool := isSameNaN a b || eq a b

/-- A value that may serve as a key. -/
def asKey (v : Value) : Except Fault Value :=
  match v.unhashableKind? with
  | some kind => .error (.unhashable kind)
  | none => .ok v

end Value

namespace Entries

/-- The value under a key. -/
def at? (entries : Entries) (key : Value) : Option Value :=
  (entries.find? fun e => e.1.isSameItem key).map (·.2)

/-- The value under a text key. -/
def field? (entries : Entries) (key : String) : Option Value :=
  at? entries (.text key)

/-- The value under a text key, or null. -/
def field (entries : Entries) (key : String) : Value :=
  (field? entries key).getD .null

def hasKey (entries : Entries) (key : Value) : Bool :=
  entries.any fun e => e.1.isSameItem key

/-- Writes a value under a key: a key already present keeps its place, a new one goes last. -/
def write (entries : Entries) (key value : Value) : Entries :=
  if hasKey entries key then entries.map fun e => if e.1.isSameItem key then (e.1, value) else e
  else entries ++ [(key, value)]

def writeField (entries : Entries) (key : String) (value : Value) : Entries :=
  write entries (.text key) value

/-- Entries written one after the other into an empty mapping. -/
def ofPairs (pairs : List (Value × Value)) : Entries :=
  pairs.foldl (fun entries e => write entries e.1 e.2) []

/-- All entries of the second written over the first. -/
def overlay (entries other : Entries) : Entries :=
  other.foldl (fun acc e => write acc e.1 e.2) entries

end Entries

namespace Value

/-- The entry that a pair of key and value makes. -/
def pairOf (index : Nat) (v : Value) : Except Fault (Value × Value) := do
  let parts ← match v.iterate with
    | .ok parts => pure parts
    | .error _ => .error (.notPairs index)
  match parts with
  | [key, value] => return (← key.asKey, value)
  | parts => .error (.pairLength index parts.length)

/-- The entries of a mapping, or those that pairs in a row make. -/
def toEntries (v : Value) : Except Fault Entries := do
  match v with
  | mapping entries => return entries
  | v =>
    let parts ← v.iterate
    return Entries.ofPairs (← parts.zipIdx.mapM fun (part, i) => pairOf i part)

end Value

/-- The value under a text key of a mapping; other values have no keys to ask for. -/
def Value.field (v : Value) (key : String) : Except Fault Value :=
  match v with
  | .mapping entries => .ok (Entries.field entries key)
  | v => .error (.noAttribute v.kindName "get")

end BlockGraph
