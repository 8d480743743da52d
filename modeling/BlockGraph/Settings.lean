import BlockGraph.Journal
import BlockGraph.Number.Reader
import BlockGraph.Text.Quoted
import BlockGraph.Number.Decimal
/-!
Settings of an installation, read from its environment.
-/
namespace BlockGraph

/-- What an installation may set. Times are in milliseconds. -/
structure Settings where
  debug : Bool
  maxTime : Double
  maxSteps : Int
  stepDelay : Double
  blockTimeout : Double
  host : String
  port : Int

/-- Why the environment holds no settings. -/
inductive SettingsFault where
  | notNumber (text : String)
  | notInteger (text : String)
  | value (f : Fault)

def SettingsFault.message : SettingsFault → String
  | notNumber text => "could not convert string to float: " ++ Text.quoted text
  | notInteger text => "invalid literal for int() with base 10: " ++ Text.quoted text
  | value f => f.message

namespace Settings

/-- A whole number as a double. -/
def whole (n : Nat) : Double := Double.ofRatio false n 1

/-- No option may exceed these. -/
def maxTimeLimit : Nat := 300000
def maxStepsLimit : Nat := 10000
def stepDelayLimit : Nat := 5000

def default : Settings where
  debug := false
  maxTime := whole 30000
  maxSteps := 1000
  stepDelay := whole 0
  blockTimeout := whole 5000
  host := "127.0.0.1"
  port := 7780

def number (text : String) : Except SettingsFault Double :=
  match Number.double? text with
  | some x => .ok x
  | none => .error (.notNumber text)

def integer (text : String) : Except SettingsFault Int :=
  match Number.integerText? text with
  | none => .error (.notInteger text)
  | some ⟨n, digits⟩ =>
    if digits ≤ Fault.digitLimitValue then .ok n else .error (.value (.digitLimitReading digits))

/-- The name of a setting in the environment. -/
def variableName (name : String) : String := "BLOCKFLOW_" ++ name

/-- The names of all settings in the environment. -/
def names : List String :=
  ["DEBUG", "MAX_EXECUTION_TIME", "MAX_STEPS", "STEP_DELAY", "BLOCK_TIMEOUT", "HOST", "PORT"].map
    variableName

/-- A setting of the environment, or its default. -/
def read {α : Type} (env : List (String × String)) (name : String)
    (reader : String → Except SettingsFault α) (default : α) : Except SettingsFault α :=
  match env.lookup (variableName name) with
  | some text => reader text
  | none => .ok default

def isYes (text : String) : Bool :=
  ["true", "1", "yes"].contains (String.ofList (text.toList.map Char.toLower))

/-- The settings that an environment asks for. -/
def ofEnvironment (env : List (String × String)) : Except SettingsFault Settings := do
  let debug ← read env "DEBUG" (.ok ∘ isYes) default.debug
  let maxTime ← read env "MAX_EXECUTION_TIME" number default.maxTime
  let maxSteps ← read env "MAX_STEPS" integer default.maxSteps
  let stepDelay ← read env "STEP_DELAY" number default.stepDelay
  let blockTimeout ← read env "BLOCK_TIMEOUT" number default.blockTimeout
  let host ← read env "HOST" .ok default.host
  let port ← read env "PORT" integer default.port
  return { debug, maxTime, maxSteps, stepDelay, blockTimeout, host, port }

/-- Whether a number lies above zero, or at it where that is allowed, and up to a limit. -/
def within (orZero : Bool) (limit : Nat) (x : Double) : Bool :=
  let low := Double.compareInt? 0 x
  let high := Double.compareInt? limit x
  (low == some .lt || (orZero && low == some .eq)) && (high == some .gt || high == some .eq)

/-- What is wrong with settings, told to the operator. -/
def problems (s : Settings) : List JournalEntry :=
  let range := fun (name opening : String) (limit : Nat) =>
    JournalEntry.mk .error "config"
      (variableName name ++ " must be in " ++ opening ++ "0, " ++ limit.repr ++ "]")
  (if within false maxTimeLimit s.maxTime then [] else
    [range "MAX_EXECUTION_TIME" "(" maxTimeLimit]) ++
  (if 0 < s.maxSteps && s.maxSteps ≤ maxStepsLimit then [] else [range "MAX_STEPS" "(" maxStepsLimit]) ++
  (if within true stepDelayLimit s.stepDelay then [] else [range "STEP_DELAY" "[" stepDelayLimit]) ++
  (if within false maxTimeLimit s.blockTimeout then [] else
    [range "BLOCK_TIMEOUT" "(" maxTimeLimit])

end Settings

end BlockGraph
