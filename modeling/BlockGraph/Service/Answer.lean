import BlockGraph.Json.Writer
import BlockGraph.Run.Event
/-!
Answers of the service: a status code and a JSON document.
-/
namespace BlockGraph.Service

/-- An answer as it is sent. -/
structure Answer where
  status : Nat
  body : String
deriving DecidableEq, Repr

/-- An answer whose content is written as it is. -/
def Answer.ofContent (status : Nat) (content : Value) : Except Fault Answer := do
  let body ← Json.text .portable Json.refuse content
  match Text.halfFault? body with
  | some cause => .error (.notEncodable cause)
  | none => return ⟨status, body⟩

mutual

/-- Content without the fields that are kept back: those whose name starts with `_sa`. -/
def published : Value → Value
  | .mapping es => .mapping (publishedEntries es)
  | .list items | .tuple items | .set items | .frozenset items => .list (publishedItems items)
  | v => v

def publishedItems : List Value → List Value
  | [] => []
  | v :: rest => published v :: publishedItems rest

def publishedEntries : List (Value × Value) → List (Value × Value)
  | [] => []
  | (key, v) :: rest =>
    if (key.text?.map (·.startsWith "_sa")).getD false then publishedEntries rest
    else (key, published v) :: publishedEntries rest

end

/-- Why a request is not answered as asked: a status with a detail. -/
structure Rejection where
  status : Nat
  detail : Value

namespace Rejection

def ofText (status : Nat) (detail : String) : Rejection := ⟨status, .text detail⟩
def notFound : Rejection := ofText 404 "Not Found"
def wrongMethod : Rejection := ofText 405 "Method Not Allowed"

def content (r : Rejection) : Value := .mapping [(.text "detail", r.detail)]

end Rejection

/-- The status that tells why a run failed. -/
def failureStatus : RunFault → Nat
  | .inProgress | .shuttingDown => 409
  | .unknownType .. | .rejected .. | .typeGone .. => 400
  | .block .. | .budget .. => 422
  | .runTimeout _ | .blockTimeout .. => 504
  | .value _ => 500

end BlockGraph.Service
