import BlockGraph.Settings
import BlockGraph.Value.Equality
import BlockGraph.Value.Lenient
/-!
Options of a run: its budgets, and which of its events its caller listens to.
-/
namespace BlockGraph

/-- What a listener may be told about. -/
inductive EventKind where
  | start
  | complete
  | traverse
  | log
  | error
deriving DecidableEq, Repr

namespace EventKind

def all : List EventKind := [.start, .complete, .traverse, .log, .error]

/-- The option under which a listener for such events is handed over. -/
def optionName : EventKind → String
  | .start => "on_element_start"
  | .complete => "on_element_complete"
  | .traverse => "on_connection_traversed"
  | .log => "on_log"
  | .error => "on_error"

end EventKind

/-- Budgets and switches of a run; times are in milliseconds. -/
structure Options where
  maxTime : Double
  maxSteps : Int
  stepDelay : Double
  blockTimeout : Double
  detectCycles : Bool
  heard : List EventKind

/-- An option as it is handed over: a value, or a function that listens. -/
inductive GivenOption where
  | value (v : Value)
  | listener

/-- Why options are refused. -/
inductive OptionsFault where
  | complaints (cs : List Complaint)
  | keysNotText
  | value (f : Fault)

namespace OptionsFault

def message : OptionsFault → String
  | complaints cs => Complaint.summary "ExecutionOptions" cs
  | keysNotText => "keywords must be strings"
  | value f => f.message

def kind : OptionsFault → FaultKind
  | complaints _ => .value
  | keysNotText => .type
  | value f => f.kind

end OptionsFault

namespace Options

def default : Options where
  maxTime := Settings.default.maxTime
  maxSteps := Settings.default.maxSteps
  stepDelay := Settings.default.stepDelay
  blockTimeout := Settings.default.blockTimeout
  detectCycles := true
  heard := []

abbrev Given := List (Value × GivenOption)

/-- The spelling of an option name that the editor uses: words joined with capital letters. -/
def editorName (name : String) : String :=
  match name.splitOn "_" with
  | first :: rest => first ++ String.join (rest.map String.capitalize)
  | [] => ""

def valueNames : List String :=
  ["max_execution_time", "max_steps", "step_delay", "block_timeout", "enable_cycle_detection"]

def names : List String := valueNames ++ EventKind.all.map (·.optionName)

def given? (g : Given) (name : String) : Option GivenOption :=
  (g.find? fun e => e.1.eq (.text name)).map (·.2)

/-- The spelling under which an option is given; the editor's wins. -/
def spelling? (g : Given) (name : String) : Option (String × GivenOption) :=
  match given? g (editorName name) with
  | some v => some (editorName name, v)
  | none => (given? g name).map fun v => (name, v)

/-- An option read by `reader`, and a complaint when it is refused. An option that is not given has its
default. -/
def read {α : Type} (g : Given) (name : String) (reader : Value → Except Problem α) (default : α) :
    α × List Complaint :=
  match spelling? g name with
  | none => (default, [])
  | some (place, v) =>
    let v := match v with
      | .value v => v
      | .listener => .foreign ⟨"function", "builtins", none, true, 0, 0⟩
    match reader v with
    | .ok a => (a, [])
    | .error p => (default, [⟨[.field place], p, v⟩])

/-- A double within limits; not-a-number exceeds every limit. -/
def limitedDouble (orZero : Bool) (limit : Nat) (v : Value) : Except Problem Double := do
  let x ← Lenient.double v
  let high := Double.compareInt? limit x
  let low := Double.compareInt? 0 x
  if high != some .gt && high != some .eq then .error (.above limit)
  else if orZero then if low == some .gt then .error (.below 0) else return x
  else if low == some .lt then return x else .error (.notAbove 0)

def limitedInt (limit : Nat) (v : Value) : Except Problem Int := do
  let n ← Lenient.int v
  if limit < n then .error (.above limit)
  else if n ≤ 0 then .error (.notAbove 0)
  else return n

/-- Whether such events are listened to; null stands for no listener. -/
def listens (g : Given) (kind : EventKind) : Bool × List Complaint :=
  match spelling? g kind.optionName with
  | none | some (_, .value .null) => (false, [])
  | some (_, .listener) => (true, [])
  | some (place, .value v) => (false, [⟨[.field place], .notCallable, v⟩])

/-- How a key that is no text is shown as a place. -/
def keyPlace (key : Value) : String :=
  match key with
  | .bool b => if b then "1" else "0"
  | key => match key.literal with
    | .ok s => s
    | .error _ => "<unprintable " ++ key.kindName ++ " object>"

/-- Complaints about entries that are no option. -/
def strays (g : Given) : List Complaint :=
  let used := names.filterMap fun name => (spelling? g name).map (·.1)
  g.filterMap fun e =>
    let input := match e.2 with
      | .value v => v
      | .listener => .foreign ⟨"function", "builtins", none, true, 0, 0⟩
    match e.1 with
    | .text key => if used.contains key then none else some ⟨[.field key], .unexpected, input⟩
    | key => some ⟨[.field (keyPlace key)], .keyNotText, input⟩

/-- Options from what was given; all complaints are reported together. -/
def ofGiven (g : Given) : Except OptionsFault Options :=
  let maxTime := read g "max_execution_time" (limitedDouble false Settings.maxTimeLimit) default.maxTime
  let maxSteps := read g "max_steps" (limitedInt Settings.maxStepsLimit) default.maxSteps
  let stepDelay := read g "step_delay" (limitedDouble true Settings.stepDelayLimit) default.stepDelay
  let blockTimeout :=
    read g "block_timeout" (limitedDouble false Settings.maxTimeLimit) default.blockTimeout
  let detectCycles := read g "enable_cycle_detection" Lenient.bool default.detectCycles
  let heard := EventKind.all.map fun kind => (kind, listens g kind)
  let complaints := maxTime.2 ++ maxSteps.2 ++ stepDelay.2 ++ blockTimeout.2 ++ detectCycles.2 ++
    heard.flatMap (·.2.2) ++ strays g
  if complaints.isEmpty then
    .ok { maxTime := maxTime.1, maxSteps := maxSteps.1, stepDelay := stepDelay.1
          blockTimeout := blockTimeout.1, detectCycles := detectCycles.1
          heard := (heard.filter (·.2.1)).map (·.1) }
  else .error (.complaints complaints)

/-- Options from a value; null asks for the defaults. -/
def ofValue (v : Value) : Except OptionsFault Options := do
  match v with
  | .null => return default
  | v => match v.toEntries with
    | .ok entries => ofGiven (entries.map fun (key, value) => (key, .value value))
    | .error f => .error (.value f)

/-- The budgets, as the run's log shows them. -/
def describe (o : Options) : String :=
  "max_execution_time=" ++ o.maxTime.briefText ++ "ms, max_steps=" ++ toString o.maxSteps ++
    ", step_delay=" ++ o.stepDelay.briefText ++ "ms, block_timeout=" ++ o.blockTimeout.briefText ++ "ms"

end Options

end BlockGraph
