import BlockGraph.Value.Equality
import BlockGraph.Value.Literal
/-!
Plain data: values reduced to what strict JSON can hold, down to a given depth.
-/
namespace BlockGraph.Value

/-- What stands for a value below the depth limit. -/
def depthMark : String := "<max depth reached>"

/-- What stands for a foreign value: its type with its text when that is short and no placeholder
itself, else its full type name. -/
def foreignMark (f : Foreign) : String :=
  let s := f.text?.getD ""
  if !s.isEmpty && s.length < 200 && !s.startsWith "<" then "<" ++ f.kind ++ ": " ++ s ++ ">"
  else "<" ++ f.home ++ "." ++ f.kind ++ ">"

/-- A double, or the word for one that strict JSON cannot write. -/
def plainDouble : Double → Value
  | .nan _ => .text "NaN"
  | .infinite negative => .text (if negative then "-Infinity" else "Infinity")
  | x => .float x

/-- An entry written under the text of its key; keys of one text share an entry. -/
def plainEntry (plain : Value → Except Fault Value) (done : Entries) (e : Value × Value) :
    Except Fault Entries := do
  let key ← plainText e.1
  let value ← plain e.2
  return Entries.writeField done key value

/-- A value as plain data with containers nested at most `depth` deep, as long as there are levels left to go
down. -/
def plainWithin : (levels depth : Nat) → Value → Except Fault Value
  | 0, _, _ => .error (.tooDeep .converting)
  | _ + 1, 0, _ => .ok (.text depthMark)
  | _ + 1, _ + 1, .float x => .ok (plainDouble x)
  | levels + 1, depth + 1, .list items | levels + 1, depth + 1, .tuple items | levels + 1, depth + 1, .set items
  | levels + 1, depth + 1, .frozenset items => do
    return .list (← items.mapM (plainWithin levels depth))
  | levels + 1, depth + 1, .mapping entries => do
    return .mapping (← entries.foldlM (plainEntry (plainWithin levels depth)) [])
  | _ + 1, _ + 1, .foreign f => .ok (.text (foreignMark f))
  | _ + 1, _ + 1, v => .ok v

/-- A value as plain data with containers nested at most `depth` deep. -/
def plain (depth : Nat) (v : Value) : Except Fault Value := plainWithin plainLevels depth v

/-- The depth that snapshots are reduced to. -/
def plainDepth : Nat := 8

end BlockGraph.Value
