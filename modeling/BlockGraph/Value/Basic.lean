import BlockGraph.Number.Basic
import BlockGraph.Text.Blank
/-!
Values that travel through a program: what its documents hold, what blocks emit and remember.
-/
namespace BlockGraph

/-- A value of a type the library does not know. It may have a text, may refuse to be copied, and is
told apart by where it was made (`tag`) and how often it has been copied since. -/
structure Foreign where
  kind : String
  home : String
  text? : Option String
  copyable : Bool
  tag : Nat
  copies : Nat
deriving DecidableEq

/-- A dynamic value. A mapping keeps its entries in insertion order and holds no key twice. A frozen set
cannot be changed, so that it may serve as a key or lie in another set. -/
inductive Value where
  | null
  | bool (b : Bool)
  | int (n : Int)
  | float (x : Double)
  | text (s : String)
  | list (items : List Value)
  | tuple (items : List Value)
  | mapping (entries : List (Value × Value))
  | set (items : List Value)
  | frozenset (items : List Value)
  | foreign (f : Foreign)

/-- The entries of a mapping. -/
abbrev Entries := List (Value × Value)

namespace Value

instance : Inhabited Value := ⟨.null⟩

/-- The name of a value's type, as messages give it. -/
def kindName : Value → String
  | null => "NoneType"
  | bool _ => "bool"
  | int _ => "int"
  | float _ => "float"
  | text _ => "str"
  | list _ => "list"
  | tuple _ => "tuple"
  | mapping _ => "dict"
  | set _ => "set"
  | frozenset _ => "frozenset"
  | foreign f => f.kind

/-- Whether a value counts as true: not null, false, zero or empty. -/
def isTrue : Value → Bool
  | null => false
  | bool b => b
  | int n => n != 0
  | float x => !x.isZero
  | text s => !s.isEmpty
  | list items | tuple items | set items | frozenset items => !items.isEmpty
  | mapping entries => !entries.isEmpty
  | foreign _ => true

def isNull : Value → Bool
  | null => true
  | _ => false

/-- A number other than a truth value. -/
def isNumber : Value → Bool
  | int _ | float _ => true
  | _ => false

/-- The number a value is, truth values counting as one and zero. -/
def number? : Value → Option Number
  | bool b => some (.int (if b then 1 else 0))
  | int n => some (.int n)
  | float x => some (.float x)
  | _ => none

def ofNumber : Number → Value
  | .int n => .int n
  | .float x => .float x

def isMapping : Value → Bool
  | mapping _ => true
  | _ => false

def list? : Value → Option (List Value)
  | list items => some items
  | _ => none

def text? : Value → Option String
  | text s => some s
  | _ => none

/-- A text with something other than blanks in it. -/
def name? : Value → Option String
  | text s => if Text.isBlankText s then none else some s
  | _ => none

/-- The items a value yields when it is iterated: a mapping yields its keys, a text its characters. -/
def iterate : Value → Except Fault (List Value)
  | list items | tuple items | set items | frozenset items => .ok items
  | mapping entries => .ok (entries.map (·.1))
  | text s => .ok (s.toList.map fun c => text (String.singleton c))
  | v => .error (.notIterable v.kindName)

/-- The number of items of a value that has a length. -/
def length : Value → Except Fault Nat
  | list items | tuple items | set items | frozenset items => .ok items.length
  | mapping entries => .ok entries.length
  | text s => .ok s.length
  | v => .error (.noLength v.kindName)

end Value

end BlockGraph
