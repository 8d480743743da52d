import BlockGraph.Run.Session
import BlockGraph.Value.Plain
/-!
Snapshots: what can be seen of a session from outside.
-/
namespace BlockGraph.Session

/-- The visited elements in alphabetical order. -/
def processedSorted (s : Session) : List String := s.processed.mergeSort fun a b => !(b < a)

/-- Whether the run has an end to show; while it goes on it has none. -/
def showsEnd (s : Session) : Bool := s.ended && !s.running

/-- Whether the run has a length to show. -/
def timed (s : Session) : Bool := s.started && s.showsEnd

def optionalText (s? : Option String) : Value := s?.elim .null .text

/-- A snapshot as plain data. Readings of the clock are written as `clock`. -/
def toValue (s : Session) (clock : Value) : Except Fault Value := do
  let texts := fun (xs : List String) => Value.list (xs.map .text)
  let states ← Value.plain Value.plainDepth s.slots.toValue
  let reading := fun (shown : Bool) => if shown then clock else .null
  return .mapping [
    (.text "status", .text s.status.name),
    (.text "is_running", .bool s.running),
    (.text "start_time", reading s.started),
    (.text "end_time", reading s.showsEnd),
    (.text "duration", reading s.timed),
    (.text "step_count", .int s.steps),
    (.text "error_count", .int s.errorCount),
    (.text "success_count", .int s.successCount),
    (.text "error", optionalText s.error?),
    (.text "execution_order", texts s.processed),
    (.text "processed_elements", texts s.processedSorted),
    (.text "element_states", states),
    (.text "execution_log", texts s.log.toList)]

/-- Counters of the current or last run. -/
def stats (s : Session) (clock : Value) : Value :=
  .mapping [
    (.text "total_elements", .int s.graph.elements.length),
    (.text "processed_elements", .int s.processed.length),
    (.text "total_connections", .int s.graph.connections.length),
    (.text "execution_time", if s.started then clock else .float Double.zero),
    (.text "step_count", .int s.steps),
    (.text "error_count", .int s.errorCount),
    (.text "success_count", .int s.successCount)]

end BlockGraph.Session
