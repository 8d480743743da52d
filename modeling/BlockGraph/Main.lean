import BlockGraph.CommandLine.Commands
import Std.Time.DateTime.Timestamp
/-!
The program: it looks at the files, settings and terminal around it, and prints what comes of its
command line.
-/
namespace BlockGraph.CommandLine

/-- What a word of the command line leads to when it is taken for a path. -/
def lookUp (word : String) : IO Found := do
  try
    let bytes ← IO.FS.readBinFile word
    return .file (Text.ofBytes (bytes.toList.map (·.toNat)))
  catch
    | .noFileOrDirectory .. => return .nothing
    | _ => return .folder

/-- A random number between zero and one. -/
def draw : IO Double := do
  return Double.ofRatio false (← IO.rand 0 (Nat.pow 2 53 - 1)) (Nat.pow 2 53)

/-- The settings that the environment asks for. -/
def findSettings : IO (Except SettingsFault Settings) := do
  let named ← Settings.names.filterMapM fun name => do
    return (← IO.getEnv name).map fun text => (name, text)
  return Settings.ofEnvironment named

/-- Everything that a command line finds around it. -/
def lookAround (words : List String) (settings : Settings) : IO Surroundings := do
  let found ← words.mapM fun word => do return (word, ← lookUp word)
  let files := fun path => (found.lookup path).getD .nothing
  let width := ((← IO.getEnv "COLUMNS").bind String.toNat?).getD 80
  let draws ← (List.range 1024).mapM fun _ => draw
  let clock := Value.float (Double.ofRatio false (← IO.monoMsNow) 1000)
  let now ← Std.Time.Timestamp.now
  let seconds := (now.toSecondsSinceUnixEpoch.val % 86400).toNat
  return { files, width, settings, draws, clock, seconds }

/-- Prints an outcome; journal and faults go to the error stream. -/
def Outcome.show (o : Outcome) : IO UInt32 := do
  for line in o.journal.flatMap (·.lines) do
    IO.eprintln line
  IO.print o.printed
  if let some (kind, message) := o.fault? then
    IO.eprintln (kind ++ ": " ++ message)
  return UInt32.ofNat o.exitCode

end BlockGraph.CommandLine

def main (words : List String) : IO UInt32 := do
  match ← BlockGraph.CommandLine.findSettings with
  | .error f =>
    IO.eprintln f.message
    return 1
  | .ok settings =>
    let surroundings ← BlockGraph.CommandLine.lookAround words settings
    (BlockGraph.CommandLine.outcome surroundings words).show
