import BlockGraph.Block.Definition
import BlockGraph.Number.Reader
import BlockGraph.Text.Quoted
import BlockGraph.Text.Similarity
import BlockGraph.Text.Utf8
/-!
Command lines: which commands there are, which options they take, and how the words of a command line
are read as options and a path.
-/
namespace BlockGraph.CommandLine

/-- How the word behind an option is read; a flag has none. -/
inductive Reading where
  | flag
  | text
  | integer
  | number
  | choice (among : List String)

/-- An option of a command. One that is given twice counts as given last, unless it is repeatable. -/
structure CommandOption where
  name : String
  reading : Reading
  repeatable : Bool
  purpose : String

/-- A command: its options, and whether it is about a program file. -/
structure CommandForm where
  name : String
  purpose : String
  options : List CommandOption
  takesPath : Bool

def helpOption : CommandOption := ⟨"--help", .flag, false, "Show this message and exit."⟩

/-- The options of a command and the one that asks for help, which every command has. -/
def CommandForm.allOptions (form : CommandForm) : List CommandOption := form.options ++ [helpOption]

/-- The word that stands for the program file in messages. -/
def pathWord : String := "PROGRAM_PATH"

/-- What a path leads to. The contents of a file may fail to be text. -/
inductive Found where
  | nothing
  | folder
  | file (contents : Except Text.ByteFault String)

/-- Why a command line is not understood. A word that names nothing comes with the names that it may have
been meant for. -/
inductive UsageFault where
  | noCommand
  | unknownCommand (name : String) (near : List String)
  | unknownOption (name : String) (near : List String)
  | needsWord (name : String)
  | takesNoWord (name : String)
  | notAChoice (option word : String) (among : List String)
  | notAnInteger (option word : String)
  | notANumber (option word : String)
  | noPath
  | nothingThere (path : String)
  | folderThere (path : String)
  | extraWords (words : List String)
  | badOptions (explanation : String)
  | notAnAssignment (word : String)
deriving DecidableEq

namespace UsageFault

/-- A complaint about the value of a part of the command line. -/
def invalid (part complaint : String) : String := "Invalid value for " ++ part ++ ": " ++ complaint

/-- Names that may have been meant. -/
def suggestion : List String → String
  | [] => ""
  | [name] => " Did you mean " ++ Text.quoted name ++ "?"
  | names => " (Did you mean one of: " ++ ", ".intercalate (names.map Text.quoted) ++ "?)"

def message : UsageFault → String
  | noCommand => "Missing command."
  | unknownCommand name near => "No such command " ++ Text.quoted name ++ "." ++ suggestion near
  | unknownOption name near => "No such option " ++ Text.quoted name ++ "." ++ suggestion near
  | needsWord name => "Option " ++ Text.quoted name ++ " requires an argument."
  | takesNoWord name => "Option " ++ Text.quoted name ++ " does not take a value."
  | notAChoice option word among =>
    invalid ("'" ++ option ++ "'")
      (Text.quoted word ++ " is not one of " ++ ", ".intercalate (among.map Text.quoted) ++ ".")
  | notAnInteger option word =>
    invalid ("'" ++ option ++ "'") (Text.quoted word ++ " is not a valid integer.")
  | notANumber option word =>
    invalid ("'" ++ option ++ "'") (Text.quoted word ++ " is not a valid float.")
  | noPath => "Missing argument '" ++ pathWord ++ "'."
  | nothingThere path =>
    invalid ("'" ++ pathWord ++ "'") ("File " ++ Text.quoted path ++ " does not exist.")
  | folderThere path =>
    invalid ("'" ++ pathWord ++ "'") ("File " ++ Text.quoted path ++ " is a directory.")
  | extraWords words =>
    "Got unexpected extra argument" ++ (if words.length = 1 then "" else "s") ++ " (" ++
      " ".intercalate words ++ ")"
  | badOptions explanation => "Invalid value: " ++ explanation
  | notAnAssignment word => invalid "--var" ("Expected key=value, got " ++ Text.quoted word)

end UsageFault

/-- Words sorted into options with the words that belong to them, in order, and all others. `waiting`
is an option whose word comes next; after a double dash no word is an option. -/
structure Sorted where
  options : List (CommandOption × String)
  others : List String
  waiting : Option CommandOption
  dashed : Bool

namespace Sorted

def empty : Sorted := ⟨[], [], none, false⟩

def give (s : Sorted) (option : CommandOption) (word : String) : Sorted :=
  { s with options := s.options ++ [(option, word)], waiting := none }

/-- Sorts a word that starts with a dash. -/
def dash (form : List CommandOption) (s : Sorted) (word : String) : Except UsageFault Sorted :=
  let cs := word.toList
  let name := String.ofList (cs.takeWhile (· != '='))
  match form.find? (·.name == name) with
  | none =>
    if word.startsWith "--" then
      .error (.unknownOption name (Text.closeNames name (form.map (·.name))))
    else .error (.unknownOption (String.ofList (cs.take 2)) [])
  | some option =>
    match option.reading, cs.dropWhile (· != '=') with
    | .flag, [] => .ok (s.give option "")
    | .flag, _ => .error (.takesNoWord name)
    | _, [] => .ok { s with waiting := some option }
    | _, _ :: value => .ok (s.give option (String.ofList value))

/-- Sorts the next word. -/
def word (form : List CommandOption) (s : Sorted) (word : String) : Except UsageFault Sorted :=
  match s.waiting with
  | some option => .ok (s.give option word)
  | none =>
    if s.dashed || !word.startsWith "-" || word == "-" then .ok { s with others := s.others ++ [word] }
    else if word == "--" then .ok { s with dashed := true }
    else dash form s word

/-- Sorts the words of a command line. -/
def ofWords (form : List CommandOption) (words : List String) : Except UsageFault Sorted := do
  let s ← words.foldlM (Sorted.word form) empty
  match s.waiting with
  | some option => .error (.needsWord option.name)
  | none => return s

def asksForHelp (s : Sorted) : Bool := s.options.any (·.1.name == helpOption.name)

end Sorted

/-- The value that the word behind an option stands for. -/
def readWord (option : CommandOption) (word : String) : Except UsageFault Value :=
  match option.reading with
  | .flag => .ok (.bool true)
  | .text => .ok (.text word)
  | .choice among =>
    if among.contains word then .ok (.text word) else .error (.notAChoice option.name word among)
  | .integer => match Number.integerText? word with
    | some t =>
      if t.digits ≤ Fault.digitLimitValue then .ok (.int t.value)
      else .error (.notAnInteger option.name word)
    | none => .error (.notAnInteger option.name word)
  | .number => match Number.double? word with
    | some x => .ok (.float x)
    | none => .error (.notANumber option.name word)

/-- What a command line says: the values of options, and for commands about a program the path to it
with what it leads to. -/
structure Arguments where
  values : List (String × Value)
  path : String
  contents : Except Text.ByteFault String

namespace Arguments

/-- The value of an option; of a repeatable one, the first. -/
def value? (a : Arguments) (name : String) : Option Value := a.values.lookup name

/-- All values of a repeatable option. -/
def allValues (a : Arguments) (name : String) : List Value :=
  (a.values.filter (·.1 == name)).map (·.2)

/-- Options with the words that count, in order of first mention. -/
def counted (options : List (CommandOption × String)) : List (CommandOption × List String) :=
  let mentioned := options.foldl (fun (done : List CommandOption) (option, _) =>
    if done.any (·.name == option.name) then done else done ++ [option]) []
  mentioned.map fun option =>
    let words := (options.filter (·.1.name == option.name)).map (·.2)
    (option, if option.repeatable then words else words.drop (words.length - 1))

/-- Reads the path among the other words, and what it leads to. -/
def readPath (files : String → Found) (others : List String) :
    Except UsageFault (String × Except Text.ByteFault String) :=
  match others with
  | [] => .error .noPath
  | path :: _ => match files path with
    | .nothing => .error (.nothingThere path)
    | .folder => .error (.folderThere path)
    | .file contents => .ok (path, contents)

/-- Reads sorted words as the arguments of a command. Options are read before the path, and words
that are left over are noticed last. -/
def ofSorted (files : String → Found) (form : CommandForm) (s : Sorted) :
    Except UsageFault Arguments := do
  let values ← (counted s.options).mapM fun (option, words) =>
    words.mapM fun word => do return (option.name, ← readWord option word)
  let (path, contents) ← if form.takesPath then readPath files s.others else pure ("", .ok "")
  match s.others.drop (if form.takesPath then 1 else 0) with
  | [] => return ⟨values.flatten, path, contents⟩
  | extra => .error (.extraWords extra)

end Arguments

end BlockGraph.CommandLine
