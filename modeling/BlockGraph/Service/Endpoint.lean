import BlockGraph.Text.Percent
/-!
Endpoints of the service, and the addresses at which they are found.
-/
namespace BlockGraph.Service

/-- What can be asked of the service. -/
inductive Endpoint where
  | root
  | health
  | blocks
  | stats
  | block (type : String)
  | propsCheck (type : String)
  | programCheck
  | programRun
deriving DecidableEq, Repr

namespace Endpoint

/-- The method with which an endpoint is called. -/
def method : Endpoint → String
  | propsCheck _ | programCheck | programRun => "POST"
  | _ => "GET"

/-- The endpoints at a path, the one that is preferred first. -/
def atPath (path : String) : List Endpoint :=
  match path.splitOn "/" with
  | ["", ""] => [root]
  | "" :: "api" :: "v1" :: rest => match rest with
    | ["health"] => [health]
    | ["blocks"] => [blocks]
    | ["blocks", "stats"] => [stats, block "stats"]
    | ["blocks", type] => if type.isEmpty then [] else [block type]
    | ["blocks", type, "validate"] => if type.isEmpty then [] else [propsCheck type]
    | ["programs", "validate"] => [programCheck]
    | ["programs", "execute"] => [programRun]
    | _ => []
  | _ => []

/-- A path with the slashes at its end taken away, or with one added when there is none. -/
def otherEnding (path : String) : String :=
  if path.endsWith "/" then
    String.ofList ((path.toList.reverse.dropWhile (· == '/')).reverse)
  else path ++ "/"

end Endpoint

/-- The last value of a name in a query; a plus sign stands for a blank. -/
def queryValue? (query name : String) : Option String :=
  let decoded := fun (cs : List Char) =>
    Text.percentDecoded (String.ofList (cs.map fun c => if c == '+' then ' ' else c))
  let pairs := ((query.splitOn "&").filter (!·.isEmpty)).map fun part =>
    (decoded (part.toList.takeWhile (· != '=')), decoded ((part.toList.dropWhile (· != '=')).drop 1))
  (pairs.filter (·.1 == name)).getLast?.map (·.2)

end BlockGraph.Service
