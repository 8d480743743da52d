import BlockGraph.Text.Surrogate
/-!
What can go wrong inside values and block logic, as causes with one wording each.
-/
namespace BlockGraph

/-- The broad kind of a fault. Block authors may name kinds of their own; a time-out is told apart
because a run reports it differently. -/
inductive FaultKind where
  | value
  | type
  | attribute
  | overflow
  | recursion
  | memory
  | timeout
  | encoding
  | authored (name : String)
deriving DecidableEq, Repr

/-- The name by which a kind of fault is told. -/
def FaultKind.name : FaultKind → String
  | .value => "ValueError"
  | .type => "TypeError"
  | .attribute => "AttributeError"
  | .overflow => "OverflowError"
  | .recursion => "RecursionError"
  | .memory => "MemoryError"
  | .timeout => "TimeoutError"
  | .encoding => "UnicodeEncodeError"
  | .authored name => name

/-- What goes down into nested values, and gives up at some depth. -/
inductive Descent where
  | readingArray
  | readingObject
  | writing
  | showing
  | copying
  | converting
deriving DecidableEq, Repr

/-- What a message says about where it was given up, if it says so. -/
def Descent.remark : Descent → String
  | .readingArray => " while decoding a JSON array from a unicode string"
  | .readingObject => " while decoding a JSON object from a unicode string"
  | .writing => " while encoding a JSON object"
  | .showing => " while getting the repr of an object"
  | .copying => " while calling a Python object"
  | .converting => ""

/-- A fault of a value, of a block's logic, or raised on purpose by a block's author. -/
inductive Fault where
  | digitLimit
  | digitLimitReading (digits : Nat)
  | integerTooLarge
  | quotientTooLarge
  | infinityToInteger
  | nanToInteger
  | indexTooLarge
  | outOfMemory
  | notIterable (kind : String)
  | noAttribute (kind name : String)
  | noLength (kind : String)
  | unhashable (kind : String)
  | uncopyable
  | noText
  | keyKind (kind : String)
  | notWritable (kind : String)
  | notFinite
  | endlessText
  | endlessJson
  | tooDeep (d : Descent)
  | notEncodable (cause : Text.HalfFault)
  | notAPair (shown : String)
  | blankPort
  | emittedTextTooLarge (limit : Nat)
  | emittedArrayTooLarge (limit : Nat)
  | blankKey
  | keyNotText
  | notPairs (index : Nat)
  | pairLength (index length : Nat)
  | notConcatenable (kind other : String)
  | notAddable (kind other : String)
  | raised (kind : FaultKind) (message : String)
deriving DecidableEq, Repr

namespace Fault

/-- Integers beyond this many digits have no text. -/
def digitLimitValue : Nat := 4300

def kind : Fault → FaultKind
  | digitLimit | digitLimitReading _ | nanToInteger | notFinite | noText | blankPort
  | emittedTextTooLarge _ | emittedArrayTooLarge _ | blankKey | pairLength .. => .value
  | integerTooLarge | quotientTooLarge | infinityToInteger | indexTooLarge => .overflow
  | outOfMemory => .memory
  | notIterable _ | noLength _ | unhashable _ | uncopyable | keyKind _ | notWritable _ | notAPair _
  | keyNotText | notPairs _ | notConcatenable .. | notAddable .. => .type
  | noAttribute .. => .attribute
  | endlessText | endlessJson | tooDeep _ => .recursion
  | notEncodable _ => .encoding
  | raised kind _ => kind

def message : Fault → String
  | digitLimit =>
    "Exceeds the limit (4300 digits) for integer string conversion; " ++
      "use sys.set_int_max_str_digits() to increase the limit"
  | digitLimitReading digits =>
    "Exceeds the limit (4300 digits) for integer string conversion: value has " ++ digits.repr ++
      " digits; use sys.set_int_max_str_digits() to increase the limit"
  | integerTooLarge => "int too large to convert to float"
  | quotientTooLarge => "integer division result too large for a float"
  | infinityToInteger => "cannot convert float infinity to integer"
  | nanToInteger => "cannot convert float NaN to integer"
  | indexTooLarge => "cannot fit 'int' into an index-sized integer"
  | outOfMemory => ""
  | notIterable kind => "'" ++ kind ++ "' object is not iterable"
  | noAttribute kind name => "'" ++ kind ++ "' object has no attribute '" ++ name ++ "'"
  | noLength kind => "object of type '" ++ kind ++ "' has no len()"
  | unhashable kind => "unhashable type: '" ++ kind ++ "'"
  | uncopyable => "cannot copy"
  | noText => "no text"
  | keyKind kind => "keys must be str, int, float, bool or None, not " ++ kind
  | notWritable kind => "Object of type " ++ kind ++ " is not JSON serializable"
  | notFinite => "Out of range float values are not JSON compliant"
  | endlessText => "maximum recursion depth exceeded while calling a Python object"
  | tooDeep d => "maximum recursion depth exceeded" ++ d.remark
  | notEncodable cause => cause.message
  | endlessJson => "maximum recursion depth exceeded"
  | notAPair shown => "Block logic must yield (port, value) pairs, got " ++ shown
  | blankPort => "Output name must be a non-empty string"
  | emittedTextTooLarge limit =>
    "Output string value too large (max " ++ limit.repr ++ " characters)"
  | emittedArrayTooLarge limit => "Output array too large (max " ++ limit.repr ++ " elements)"
  | blankKey => "Key must be a non-empty string"
  | keyNotText => "Key must be a string"
  | notPairs index =>
    "cannot convert dictionary update sequence element #" ++ index.repr ++ " to a sequence"
  | pairLength index length =>
    "dictionary update sequence element #" ++ index.repr ++ " has length " ++ length.repr ++
      "; 2 is required"
  | notConcatenable kind other =>
    "can only concatenate " ++ kind ++ " (not \"" ++ other ++ "\") to " ++ kind
  | notAddable kind other =>
    "unsupported operand type(s) for +: '" ++ kind ++ "' and '" ++ other ++ "'"
  | raised _ message => message

end Fault

end BlockGraph
