import BlockGraph.Fault
/-!
The journal: lines for the operator, apart from a run's own log.
-/
namespace BlockGraph

inductive Severity where
  | info
  | warning
  | error
deriving DecidableEq, Repr

def Severity.label : Severity → String
  | .info => "INFO"
  | .warning => "WARNING"
  | .error => "ERROR"

/-- A journal entry, told by the part of the library that wrote it. -/
structure JournalEntry where
  severity : Severity
  source : String
  message : String
deriving DecidableEq, Repr

/-- The full name of a journal source: the last part of a dotted name, under the library's own. -/
def journalName (name : String) : String :=
  "blockflow." ++ (name.splitOn ".").getLastD ""

/-- An entry as written; a message of several lines gives several. -/
def JournalEntry.lines (e : JournalEntry) : List String :=
  ("[" ++ e.severity.label ++ "] " ++ journalName e.source ++ ": " ++ e.message).splitOn "\n"

/-- Work that may fail, and writes to the journal either way. -/
abbrev Journaled (ε : Type) := ExceptT ε (StateM (List JournalEntry))

def journal {ε : Type} (severity : Severity) (source message : String) : Journaled ε Unit :=
  modify (· ++ [⟨severity, source, message⟩])

/-- The outcome of journaled work, and what it wrote. -/
def Journaled.outcome {ε α : Type} (w : Journaled ε α) : Except ε α × List JournalEntry :=
  w.run.run []

end BlockGraph
