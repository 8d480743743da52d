import BlockGraph.CommandLine.Arguments
import BlockGraph.Terminal.Paragraph
/-!
Help pages, and the lines that remind of a command's usage.
-/
namespace BlockGraph.CommandLine

/-- The name under which the program is called. -/
def programName : String := "blockflow"

/-- The usage of a command, or of the program itself. -/
def usage (form? : Option CommandForm) : String :=
  "Usage: " ++ programName ++ match form? with
    | none => " [OPTIONS] COMMAND [ARGS]..."
    | some form => " " ++ form.name ++ " [OPTIONS]" ++ (if form.takesPath then " " ++ pathWord else "")

/-- What is shown when a command line is not understood. -/
def complaint (form? : Option CommandForm) (f : UsageFault) : String :=
  let called := programName ++ (form?.elim "" (" " ++ ·.name))
  usage form? ++ "\nTry '" ++ called ++ " --help' for help.\n\nError: " ++ f.message ++ "\n"

/-- How a help page shows an option. -/
def optionTerm (option : CommandOption) : String :=
  option.name ++ match option.reading with
    | .flag => ""
    | .text => " TEXT"
    | .integer => " INTEGER"
    | .number => " FLOAT"
    | .choice among => " [" ++ "|".intercalate among ++ "]"

/-- Help pages are this wide. -/
def helpWidth : Nat := 78

/-- No explanation starts further to the right than this. -/
def widestTerm : Nat := 30

/-- Terms and explanations in two columns; a term that is too wide has a line of its own. -/
def definitions (rows : List (String × String)) : String :=
  let column := min widestTerm ((rows.map (Terminal.cells ·.1)).foldl max 0) + 2
  let gap := fun n => String.ofList (List.replicate n ' ')
  String.join (rows.map fun (term, explanation) =>
    let lines := Terminal.paragraph (helpWidth - column - 2) .fold explanation
    let start := if Terminal.cells term + 2 ≤ column then gap (column - Terminal.cells term)
      else "\n" ++ gap (column + 2)
    "  " ++ term ++ start ++ ("\n" ++ gap (column + 2)).intercalate lines ++ "\n")

def helpSection (title : String) (rows : List (String × String)) : String :=
  "\n" ++ title ++ ":\n" ++ definitions rows

/-- The help page of a command. -/
def help (form : CommandForm) : String :=
  usage (some form) ++ "\n\n  " ++ form.purpose ++ "\n" ++
    helpSection "Options" (form.allOptions.map fun o => (optionTerm o, o.purpose))

/-- The help page of the program, with its commands in alphabetical order. -/
def overview (purpose : String) (forms : List CommandForm) : String :=
  let sorted := forms.mergeSort fun a b => !(b.name < a.name)
  usage none ++ "\n\n  " ++ purpose ++ "\n" ++
    helpSection "Options" [(optionTerm helpOption, helpOption.purpose)] ++
    helpSection "Commands" (sorted.map fun form => (form.name, form.purpose))

end BlockGraph.CommandLine
