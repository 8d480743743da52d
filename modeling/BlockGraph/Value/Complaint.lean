import BlockGraph.Value.Literal
/-!
Complaints about data that callers hand over: what is wrong, and where in the data.
-/
namespace BlockGraph

/-- Why a value handed over is refused. -/
inductive Problem where
  | missing
  | floatType
  | floatParsing
  | intType
  | intParsing
  | intTooLong
  | intFromFloat
  | notFinite
  | boolType
  | boolParsing
  | notCallable
  | notAbove (limit : Nat)
  | below (limit : Nat)
  | above (limit : Nat)
  | unexpected
  | keyNotText
  | notObject
  | notDictionary
  | notList
  | notJson (cause : String)
  | notEncodable
deriving DecidableEq, Repr

namespace Problem

/-- The short name of a problem. -/
def code : Problem → String
  | missing => "missing"
  | floatType => "float_type"
  | floatParsing => "float_parsing"
  | intType => "int_type"
  | intParsing => "int_parsing"
  | intTooLong => "int_parsing_size"
  | intFromFloat => "int_from_float"
  | notFinite => "finite_number"
  | boolType => "bool_type"
  | boolParsing => "bool_parsing"
  | notCallable => "callable_type"
  | notAbove _ => "greater_than"
  | below _ => "greater_than_equal"
  | above _ => "less_than_equal"
  | unexpected => "extra_forbidden"
  | keyNotText => "invalid_key"
  | notObject => "model_attributes_type"
  | notDictionary => "dict_type"
  | notList => "list_type"
  | notJson _ => "json_invalid"
  | notEncodable => "string_unicode"

def message : Problem → String
  | missing => "Field required"
  | floatType => "Input should be a valid number"
  | floatParsing => "Input should be a valid number, unable to parse string as a number"
  | intType => "Input should be a valid integer"
  | intParsing => "Input should be a valid integer, unable to parse string as an integer"
  | intTooLong => "Unable to parse input string as an integer, exceeded maximum size"
  | intFromFloat => "Input should be a valid integer, got a number with a fractional part"
  | notFinite => "Input should be a finite number"
  | boolType => "Input should be a valid boolean"
  | boolParsing => "Input should be a valid boolean, unable to interpret input"
  | notCallable => "Input should be callable"
  | notAbove limit => "Input should be greater than " ++ limit.repr
  | below limit => "Input should be greater than or equal to " ++ limit.repr
  | above limit => "Input should be less than or equal to " ++ limit.repr
  | unexpected => "Extra inputs are not permitted"
  | keyNotText => "Keys should be strings"
  | notObject => "Input should be a valid dictionary or object to extract fields from"
  | notDictionary => "Input should be a valid dictionary"
  | notList => "Input should be a valid list"
  | notJson _ => "JSON decode error"
  | notEncodable => "Input should be a valid string, unable to parse raw data as a unicode string"

end Problem

/-- One step on the way to a part: into a field, or to an item. -/
inductive PlaceStep where
  | field (name : String)
  | item (index : Nat)
deriving DecidableEq, Repr

namespace PlaceStep

def text : PlaceStep → String
  | field name => name
  | item index => index.repr

def toValue : PlaceStep → Value
  | field name => .text name
  | item index => .int index

end PlaceStep

/-- A complaint about one part of what was handed over: where it is, what is wrong, and the part. -/
structure Complaint where
  place : List PlaceStep
  problem : Problem
  input : Value

namespace Complaint

/-- The place in one word. -/
def placeText (c : Complaint) : String := ".".intercalate (c.place.map (·.text))

/-- A literal in brief: of more than fifty characters only both ends are shown. -/
def brief (literal : String) : String :=
  let cs := literal.toList
  if 50 < cs.length then
    String.ofList (cs.take 25) ++ "..." ++ String.ofList (cs.drop (cs.length - 24))
  else literal

/-- How the part complained about is shown. -/
def shownInput (input : Value) : String :=
  match input.literal with
  | .ok s => brief s
  | .error _ => "<unprintable " ++ input.kindName ++ " object>"

/-- The complaint in two lines for a reader. -/
def text (c : Complaint) : String :=
  c.placeText ++ "\n  " ++ c.problem.message ++ " [type=" ++ c.problem.code ++ ", input_value=" ++
    shownInput c.input ++ ", input_type=" ++ c.input.kindName ++ "]"

/-- All complaints about something that has a title. -/
def summary (title : String) (cs : List Complaint) : String :=
  cs.length.repr ++ " validation error" ++ (if cs.length = 1 then "" else "s") ++ " for " ++ title ++
    String.join (cs.map ("\n" ++ ·.text))

/-- A complaint as data. -/
def toValue (c : Complaint) : Value :=
  let context := match c.problem with
    | .notJson cause => [(.text "ctx", .mapping [(.text "error", .text cause)])]
    | _ => []
  .mapping ([(.text "type", .text c.problem.code),
    (.text "loc", .list (c.place.map (·.toValue))), (.text "msg", .text c.problem.message),
    (.text "input", c.input)] ++ context)

end Complaint

end BlockGraph
