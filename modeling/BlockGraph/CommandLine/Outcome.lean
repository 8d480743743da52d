import BlockGraph.CommandLine.Help
import BlockGraph.Journal
import BlockGraph.Terminal.Escape
import BlockGraph.Terminal.Table
/-!
What comes of a command line: the text it prints, the lines it writes to the journal, and how it ends.
-/
namespace BlockGraph.CommandLine

/-- Why a command ends before its end: with an exit code, over the command line, or over a fault that
it has no answer to. -/
inductive Ending where
  | exit (code : Nat)
  | usage (f : UsageFault)
  | fault (kind message : String)

/-- What has been printed and written to the journal so far. -/
structure Transcript where
  printed : String
  journal : List JournalEntry

/-- The work of a command. -/
abbrev Work := ExceptT Ending (StateM Transcript)

/-- Prints a text. One that cannot be encoded is refused whole, with a hint. -/
def printWith (hint s : String) : Work Unit :=
  match Text.halfFault? s with
  | some cause =>
    let f := Fault.notEncodable cause
    throw (.fault f.kind.name (f.message ++ hint))
  | none => modify fun t => { t with printed := t.printed ++ s }

def print (s : String) : Work Unit := printWith "" s

/-- Prints a message without escape sequences. -/
def printLine (s : String) : Work Unit := print (Terminal.withoutSequences s ++ "\n")

/-- What may help when a layout cannot be encoded. -/
def encodingHint : String :=
  "\n*** You may need to add PYTHONIOENCODING=utf-8 to your environment ***"

/-- Prints lines that are laid out already. -/
def printLines (lines : List String) : Work Unit :=
  printWith encodingHint (String.join (lines.map (· ++ "\n")))

/-- A computation of the library; a fault of it is passed on. -/
def ofExcept {α : Type} : Except Fault α → Work α
  | .ok a => pure a
  | .error f => throw (.fault f.kind.name f.message)

/-- Something laid out from markup. -/
def ofMarkup {α : Type} : Except Terminal.MarkupFault α → Work α
  | .ok a => pure a
  | .error f => throw (.fault f.kind f.message)

/-- Prints a marked-up text on a terminal of this width. -/
def printMarked (width : Nat) (markup : String) : Work Unit := do
  printLines (Terminal.paragraph width .fold (← ofMarkup (Terminal.unmarked markup)))

/-- A finished command line. A fault that nothing answered is told beside what was printed. -/
structure Outcome where
  exitCode : Nat
  printed : String
  fault? : Option (String × String)
  journal : List JournalEntry

/-- The outcome of a command's work. -/
def Work.outcome (form? : Option CommandForm) (work : Work Unit) : Outcome :=
  match work.run.run ⟨"", []⟩ with
  | (.ok (), t) => ⟨0, t.printed, none, t.journal⟩
  | (.error (.exit code), t) => ⟨code, t.printed, none, t.journal⟩
  | (.error (.usage f), t) =>
    let told := Text.halvesEscaped (Terminal.withoutSequences (complaint form? f))
    ⟨2, t.printed ++ told, none, t.journal⟩
  | (.error (.fault kind message), t) => ⟨1, t.printed, some (kind, message), t.journal⟩

end BlockGraph.CommandLine
