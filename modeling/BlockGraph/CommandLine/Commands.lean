import BlockGraph.CommandLine.Outcome
import BlockGraph.CommandLine.Variables
import BlockGraph.Report
import BlockGraph.Run.Snapshot
import BlockGraph.Run.World
import BlockGraph.Standard.Library
/-!
The commands of the program: listing the standard blocks, showing settings, and checking and running
program files.
-/
namespace BlockGraph.CommandLine

/-- What a command line finds around it: the files, the width of the terminal, the settings of the
installation, random draws, what stands for a reading of the clock, and the seconds since midnight. -/
structure Surroundings where
  files : String → Found
  width : Nat
  settings : Settings
  draws : List Double
  clock : Value
  seconds : Nat

def categoryOption : CommandOption :=
  ⟨"--category", .choice (Category.all.map (·.name)), false, "Only list this category"⟩

def stepsOption : CommandOption := ⟨"--max-steps", .integer, false, "Maximum element visit attempts"⟩
def timeOption : CommandOption := ⟨"--max-time", .number, false, "Time budget for the run (ms)"⟩
def delayOption : CommandOption := ⟨"--step-delay", .number, false, "Pause after each element (ms)"⟩

def variableOption : CommandOption :=
  ⟨"--var", .text, true, "Runtime variable as key=value (repeatable)"⟩

def jsonOption : CommandOption := ⟨"--json", .flag, false, "Print the final state as JSON"⟩
def portOption : CommandOption := ⟨"--port", .integer, false, "Port to run the API server on"⟩
def hostOption : CommandOption := ⟨"--host", .text, false, "Host to bind to"⟩

/-- The value of an option as text, or a default. -/
def textOr (a : Arguments) (option : CommandOption) (default : String) : String :=
  ((a.value? option.name).bind Value.text?).getD default

/-- Lists the standard blocks in a table. -/
def blocks (s : Surroundings) (a : Arguments) : Work Unit := do
  let wanted? := (a.value? categoryOption.name).bind Category.ofValue?
  let listed := Registry.standard.blocks.filter fun b => wanted?.all (· == b.2.category)
  let ports := fun (names : List String) => if names.isEmpty then "-" else ", ".intercalate names
  let row := fun ((type, d) : String × BlockDefinition) =>
    [type, d.category.name, ports d.inputs, ports d.outputs, d.description]
  let headers := ["Type", "Category", "Inputs", "Outputs", "Description"]
  printLines (← ofMarkup (Terminal.Table.lines s.width ⟨"Block types", headers, listed.map row⟩))

/-- Shows how many standard blocks there are. -/
def stats (_ : Surroundings) (_ : Arguments) : Work Unit := do
  let found := Registry.standard.stats
  let shown := fun (v : Value) => ofExcept v.plainText
  printLine "Registry:"
  printLine ("   Total blocks: " ++ (← shown (Entries.field found "total_blocks")))
  for c in Category.all do
    printLine ("   " ++ c.name ++ ": " ++ (Registry.standard.countOf c).repr)
  printLine ("   Average inputs: " ++ (← shown (Entries.field found "average_inputs")))
  printLine ("   Average outputs: " ++ (← shown (Entries.field found "average_outputs")))

/-- Shows the settings of the installation. -/
def config (s : Surroundings) (_ : Arguments) : Work Unit :=
  List.forM [
    "Configuration:",
    "   Debug: " ++ (if s.settings.debug then "True" else "False"),
    "   Max execution time: " ++ s.settings.maxTime.briefText ++ "ms",
    "   Max steps: " ++ toString s.settings.maxSteps,
    "   Step delay: " ++ s.settings.stepDelay.briefText ++ "ms",
    "   Block timeout: " ++ s.settings.blockTimeout.briefText ++ "ms",
    "   API Host: " ++ s.settings.host,
    "   API Port: " ++ toString s.settings.port] printLine

/-- The program in the file of a command line. -/
def loaded (s : Surroundings) (a : Arguments) : Work Program := do
  match Program.ofFile a.path a.contents with
  | .ok p => return p
  | .error f =>
    if f.isRefusal then
      printMarked s.width ("[bold red]❌ Could not load program:[/bold red] " ++ f.message)
      throw (.exit 1)
    else throw (.fault f.kind.name f.message)

/-- Checks a program file without running it. -/
def validate (s : Surroundings) (a : Arguments) : Work Unit := do
  let p ← loaded s a
  let report ← ofExcept (ProgramReport.ofProgram p Registry.standard)
  for warning in report.warnings do
    printMarked s.width ("[yellow]⚠️  " ++ warning ++ "[/yellow]")
  for error in report.errors do
    printMarked s.width ("[red]❌ " ++ error ++ "[/red]")
  if report.isValid then
    let entries := if report.entryPoints.isEmpty then "none" else ", ".intercalate report.entryPoints
    printLine ("✅ Program is valid: " ++ p.elements.length.repr ++ " elements, " ++
      p.connections.length.repr ++ " connections, entry points: " ++ entries)
  else
    printLine ("Program is invalid (" ++ report.errors.length.repr ++ " error(s))")
    throw (.exit 1)

/-- The options of a run that a command line gives. -/
def runOptions (a : Arguments) : Work Options := do
  let given := [(stepsOption, "max_steps"), (timeOption, "max_execution_time"),
    (delayOption, "step_delay")].filterMap fun (option, name) =>
      (a.value? option.name).map fun v => (Value.text name, GivenOption.value v)
  match Options.ofGiven given with
  | .ok o => return o
  | .error f => throw (.usage (.badOptions f.message))

/-- The variables of a run that a command line gives. -/
def runVariables (a : Arguments) : Work Entries :=
  match bindings ((a.allValues variableOption.name).filterMap Value.text?) with
  | .ok es => pure es
  | .error (.usage f) => throw (.usage f)
  | .error (.value f) => throw (.fault f.kind.name f.message)

/-- Runs a graph, and gives the session afterwards with what made the run fail, if anything did. -/
def executed (s : Surroundings) (graph : Graph) (options : Options) (bindings : Entries) :
    Work (Session × Option RunFault) := do
  let request : Request := ⟨.ok options, .mapping bindings, Listener.silent⟩
  let (replies, final) :=
    World.play (Session.ofGraph graph Registry.standard s.draws) [(.execute request : Command Unit)]
  modify fun t => { t with journal := t.journal ++ final.journal.toList }
  match replies with
  | [.executed e] => match e.outcome with
    | .failed (.value f) => throw (.fault f.kind.name f.message)
    | .failed f => return (e.session, some f)
    | _ => return (e.session, none)
  | _ => return (final, none)

/-- Hours, minutes and seconds of a day, with two digits each. -/
def timeOfDay (seconds : Nat) : String :=
  let twoDigits := fun n => (if n < 10 then "0" else "") ++ n.repr
  ":".intercalate ([seconds / 3600 % 24, seconds / 60 % 60, seconds % 60].map twoDigits)

/-- A log entry behind the time of day. -/
def stamped (seconds : Nat) (entry : String) : String := "[" ++ timeOfDay seconds ++ "] " ++ entry

/-- Prints the log of a run and a table of what its elements remember. -/
def printRun (s : Surroundings) (session : Session) : Work Unit := do
  for entry in session.log do
    printLines (Terminal.paragraph s.width .fold (Terminal.shownText (stamped s.seconds entry)))
  printLine ""
  let rows ← session.processed.mapM fun id => do
    let values ← ofExcept (Value.plain Value.plainDepth (.mapping (session.slots.slot id)))
    return [id, ← ofExcept (Json.text .spaced Json.refuse values)]
  let table : Terminal.Table := ⟨"Element states", ["Element", "State"], rows⟩
  printLines (← ofMarkup (table.lines s.width))

/-- Runs a program file and shows the final state. -/
def run (s : Surroundings) (a : Arguments) : Work Unit := do
  let p ← loaded s a
  let options ← runOptions a
  let graph ← match Graph.ofProgram p with
    | .ok g => pure g
    | .error (.value f) => throw (.fault f.kind.name f.message)
    | .error f => do
      printMarked s.width ("[bold red]❌ Invalid program:[/bold red] " ++ f.message)
      throw (.exit 1)
  let (session, failure?) ← executed s graph options (← runVariables a)
  let asJson := (a.value? jsonOption.name).isSome
  if asJson then
    let state ← ofExcept (session.toValue s.clock)
    printLine (← ofExcept (Json.text .indented Json.refuse state))
  else printRun s session
  match failure? with
  | some f =>
    printLines (← ofMarkup
      (Terminal.panel s.width "[bold red]Execution failed[/bold red]" (f.name ++ ": " ++ f.message)))
    throw (.exit 1)
  | none =>
    unless asJson do
      printMarked s.width ("[bold green]✓[/bold green] " ++ session.status.name ++ ": " ++
        session.processed.length.repr ++ " elements in " ++ toString session.steps ++ " steps")

/-- Announces the service. -/
def serve (s : Surroundings) (a : Arguments) : Work Unit := do
  if !s.settings.problems.isEmpty then
    modify fun t => { t with journal := t.journal ++ s.settings.problems }
    printLine "❌ Configuration validation failed. Please check your environment variables."
    throw (.exit 1)
  let port := match a.value? portOption.name with
    | some (.int n) => if n = 0 then s.settings.port else n
    | _ => s.settings.port
  let host := textOr a hostOption s.settings.host
  printLine "🚀 Starting Blockflow API server..."
  printLine ("   Host: " ++ host)
  printLine ("   Port: " ++ toString port)

/-- All commands with what they do. -/
def commands : List (CommandForm × (Surroundings → Arguments → Work Unit)) :=
  [(⟨"blocks", "List the built-in block types", [categoryOption], false⟩, blocks),
   (⟨"stats", "Show block registry statistics", [], false⟩, stats),
   (⟨"config", "Show current configuration", [], false⟩, config),
   (⟨"validate", "Check a program file without running it", [], true⟩, validate),
   (⟨"run", "Execute a program file",
     [stepsOption, timeOption, delayOption, variableOption, jsonOption], true⟩, run),
   (⟨"serve", "Run the API server", [portOption, hostOption], false⟩, serve)]

/-- What the program is for. -/
def purpose : String := "Blockflow - run visual block programs"

/-- Carries out a command with its own words. -/
def perform (s : Surroundings) (form : CommandForm) (act : Surroundings → Arguments → Work Unit)
    (words : List String) : Work Unit := do
  match Sorted.ofWords form.allOptions words with
  | .error f => throw (.usage f)
  | .ok sorted =>
    if sorted.asksForHelp then print (help form)
    else match Arguments.ofSorted s.files form sorted with
      | .error f => throw (.usage f)
      | .ok a => act s a

/-- The words up to and including the first that names a command, and those behind it. -/
def splitCommand : (dashed : Bool) → List String → List String × List String
  | _, [] => ([], [])
  | dashed, word :: rest =>
    if dashed || !word.startsWith "-" || word == "-" then ([word], rest)
    else
      let (before, behind) := splitCommand (word == "--") rest
      (word :: before, behind)

/-- The words from the command on, unless the options before it ask for help. -/
def fromCommand (words : List String) : Except UsageFault (Option (List String)) := do
  let (opening, rest) := splitCommand false words
  let sorted ← Sorted.ofWords [helpOption] opening
  return if sorted.asksForHelp then none else some (sorted.others ++ rest)

/-- What comes of a command line. A word that names no command may still be an option that a double
dash hid. -/
def outcome (s : Surroundings) (words : List String) : Outcome :=
  let page := overview purpose (commands.map (·.1))
  let refuse := fun (f : UsageFault) => Work.outcome none (throw (.usage f))
  match words, fromCommand words with
  | [], _ => ⟨2, page, none, []⟩
  | _, .error f => refuse f
  | _, .ok none => Work.outcome none (print page)
  | _, .ok (some []) => refuse .noCommand
  | _, .ok (some (name :: rest)) => match commands.find? (·.1.name == name) with
    | some (form, act) => Work.outcome (some form) (perform s form act rest)
    | none => match fromCommand (name :: rest) with
      | .error f => refuse f
      | .ok none => Work.outcome none (print page)
      | .ok (some _) =>
        refuse (.unknownCommand name (Text.closeNames name (commands.map (·.1.name))))

end BlockGraph.CommandLine
