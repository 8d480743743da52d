import BlockGraph.Block.Logic
import BlockGraph.Journal
import BlockGraph.Text.Blank
import BlockGraph.Value.Copy
import BlockGraph.Value.Literal
/-!
Block definitions: what an author writes, the checks it has to pass, and the form in which a registry
keeps it.
-/
namespace BlockGraph

/-- The palette a block belongs to. -/
inductive Category where
  | data
  | control
  | math
  | io
  | logic
deriving DecidableEq, Repr

namespace Category

def all : List Category := [.data, .control, .math, .io, .logic]

def name : Category → String
  | .data => "data"
  | .control => "control"
  | .math => "math"
  | .io => "io"
  | .logic => "logic"

def ofName? (s : String) : Option Category := all.find? (·.name == s)

def ofValue? : Value → Option Category
  | .text s => ofName? s
  | _ => none

def names : String := ", ".intercalate (all.map name)

end Category

/-- What a preview function returns. -/
inductive Rendered where
  | preview (label content value : Value)
  | other (v : Value)

/-- A block drawn on the canvas. -/
structure Preview where
  label : String
  content : String
  value? : Option String
deriving DecidableEq, Repr

/-- Why a preview is refused. -/
inductive PreviewFault where
  | notAPreview
  | label
  | content
  | value
  | labelTooLong
  | contentTooLong
  | raised (f : Fault)

namespace PreviewFault

def message : PreviewFault → String
  | notAPreview => "Render function must return a RenderResult or a mapping"
  | label => "Render result must have string label property"
  | content => "Render result must have string content property"
  | value => "Render result value property must be string if provided"
  | labelTooLong => "Render result label too long (max 100 characters)"
  | contentTooLong => "Render result content too long (max 1000 characters)"
  | raised f => f.message

def kind : PreviewFault → FaultKind
  | raised f => f.kind
  | _ => .value

end PreviewFault

namespace Preview

def ofParts (label content value : Value) : Except PreviewFault Preview := do
  let some label := label.text? | .error .label
  let some content := content.text? | .error .content
  let value? ← match value with
    | .null => pure none
    | .text s => pure (some s)
    | _ => .error .value
  if 100 < label.length then .error .labelTooLong
  else if 1000 < content.length then .error .contentTooLong
  else return ⟨label, content, value?⟩

def ofRendered : Rendered → Except PreviewFault Preview
  | .preview label content value => ofParts label content value
  | .other (.mapping entries) =>
    ofParts (Entries.field entries "label") (Entries.field entries "content")
      (Entries.field entries "value")
  | .other _ => .error .notAPreview

def toEntries (p : Preview) : Entries :=
  [(.text "label", .text p.label), (.text "content", .text p.content)] ++
    match p.value? with
    | some s => [(.text "value", .text s)]
    | none => []

end Preview

/-- Checks properties; a value that counts as true is a complaint. -/
abbrev CheckFn := Entries → Except Fault Value

/-- Draws a block with given properties. -/
abbrev RenderFn := Entries → Except Fault Rendered

/-- A part of a definition that an author may supply as a function. -/
inductive Supplied (α : Type) where
  | missing
  | given (f : α)
  | notCallable

/-- A definition as its author wrote it, unchecked. -/
structure Draft where
  displayName : Value
  category : Value
  inputs : Value
  outputs : Value
  defaultProps : Value
  execute : Supplied Logic
  validate : Supplied CheckFn
  render : Supplied RenderFn
  version : Value
  description : Value
  color : Value
  icon : Value
  author : Value
  isCircular : Value

/-- Which parts of a definition its author supplied. -/
structure Capabilities where
  execute : Bool
  validate : Bool
  render : Bool
deriving DecidableEq, Repr

def Capabilities.names (c : Capabilities) : List String :=
  (if c.execute then ["execute"] else []) ++ (if c.render then ["render"] else []) ++
    (if c.validate then ["validate"] else [])

/-- A definition as a registry keeps it: checked, with every part filled in and the default properties frozen. -/
structure BlockDefinition where
  displayName : String
  category : Category
  inputs : List String
  outputs : List String
  defaultProps : Entries
  logic : Logic
  check : CheckFn
  render : RenderFn
  version : String
  description : String
  color? : Option String
  icon? : Option String
  author? : Option String
  isCircular : Bool
  supplied : Capabilities

/-- Why a block type or a definition is refused. -/
inductive RegistrationFault where
  | typeNotText
  | typeBlank
  | typeTooLong
  | typePattern
  | notADefinition
  | unknownFields (names : List String)
  | missingFields (names : List String)
  | displayName
  | displayNameTooLong
  | category
  | notPorts (kind : String)
  | tooManyPorts (kind : String)
  | blankPort (kind : String)
  | portTooLong (kind : String)
  | duplicatePorts (type kind : String)
  | conflictingPorts (type : String) (names : List String)
  | defaultProps
  | isCircular
  | notText (name : String)
  | textTooLong (name : String) (limit : Nat)
  | notCallable (name : String)
  | renderTest (type : String) (cause : PreviewFault)
  | validateTest (type : String) (cause : Fault)
  | validateResult (type : String)
  | duplicate (type : String)
  | unknownCategory
  | clearUnconfirmed
  | value (f : Fault)

namespace RegistrationFault

/-- The names of missing fields as they are listed in a sentence. -/
def missingText (names : List String) : String :=
  let quoted := names.map Text.quoted
  "BlockDefinition.__init__() missing " ++ names.length.repr ++ " required positional argument" ++
    (if names.length = 1 then "" else "s") ++ ": " ++ " and ".intercalate quoted

def singular : String → String
  | "inputs" => "input"
  | _ => "output"

def capitalized : String → String
  | "inputs" => "Input"
  | _ => "Output"

def message : RegistrationFault → String
  | typeNotText => "Block type must be a string"
  | typeBlank => "Block type cannot be empty"
  | typeTooLong => "Block type too long (max 50 characters)"
  | typePattern =>
    "Block type must start with letter and contain only alphanumeric, underscore, or dash characters"
  | notADefinition => "Block definition must be a BlockDefinition or a mapping"
  | unknownFields names => "Unknown block definition fields: " ++ ", ".intercalate names
  | missingFields names => "Invalid block definition: " ++ missingText names
  | displayName => "display_name must be a non-empty string"
  | displayNameTooLong => "display_name too long (max 100 characters)"
  | category => "category must be one of: " ++ Category.names
  | notPorts kind => kind ++ " must be a sequence of port names"
  | tooManyPorts kind => "Too many " ++ kind ++ " (max 20)"
  | blankPort kind => "All " ++ kind ++ " must be non-empty strings"
  | portTooLong kind => capitalized kind ++ " name too long (max 50 characters)"
  | duplicatePorts type kind =>
    "Block type \"" ++ type ++ "\" has duplicate " ++ singular kind ++ " names"
  | conflictingPorts type names =>
    "Block type \"" ++ type ++ "\" has conflicting input/output names: " ++ ", ".intercalate names
  | defaultProps => "default_props must be a mapping if provided"
  | isCircular => "is_circular must be a boolean if provided"
  | notText name => name ++ " must be a string if provided"
  | textTooLong name limit => name ++ " too long (max " ++ limit.repr ++ " characters)"
  | notCallable name => name ++ " must be callable if provided"
  | renderTest type cause =>
    "Render function test failed for block type \"" ++ type ++ "\": " ++ cause.message
  | validateTest type cause =>
    "Validate function test failed for block type \"" ++ type ++ "\": " ++ cause.message
  | validateResult type =>
    "Validate function test failed for block type \"" ++ type ++ "\": " ++
      "Validate function must return string or None"
  | duplicate type =>
    "Block type \"" ++ type ++ "\" already registered with different definition. " ++
      "Use unregister() first to replace, or choose a different type name."
  | unknownCategory => "Invalid category. Must be one of: " ++ Category.names
  | clearUnconfirmed => "Must explicitly confirm clear operation by passing confirm=True"
  | value f => f.message

end RegistrationFault

namespace BlockType

def maxLength : Nat := 50

def isLetter (c : Char) : Bool := ('A' ≤ c && c ≤ 'Z') || ('a' ≤ c && c ≤ 'z')

def isNameChar (c : Char) : Bool := isLetter c || ('0' ≤ c && c ≤ '9') || c == '_' || c == '-'

/-- A letter, then letters, digits, underscores and dashes. One line break may end the name. -/
def isName (cs : List Char) : Bool :=
  match cs with
  | [] => false
  | c :: rest => isLetter c && (match rest.getLast? with
    | some '\n' => rest.dropLast.all isNameChar
    | _ => rest.all isNameChar)

/-- The name of a block type, checked. -/
def ofValue (type : Value) : Except RegistrationFault String :=
  match type with
  | .text s =>
    if Text.isBlankText s then .error .typeBlank
    else if maxLength < s.length then .error .typeTooLong
    else if isName s.toList then .ok s
    else .error .typePattern
  | _ => .error .typeNotText

end BlockType

/-- One field of a definition written as a mapping. -/
inductive Field where
  | value (v : Value)
  | logic (l : Logic)
  | check (f : CheckFn)
  | render (f : RenderFn)

/-- Why fields make up no draft. -/
inductive FieldFault where
  | unknown (names : List String)
  | missing (names : List String)
  | key (f : Fault)

namespace Draft

def fieldNames : List String :=
  ["display_name", "category", "inputs", "outputs", "default_props", "execute", "validate", "render",
   "version", "description", "color", "icon", "author", "is_circular"]

def requiredNames : List String := ["display_name", "category"]

abbrev Fields := List (Value × Field)

def field? (fields : Fields) (name : String) : Option Field :=
  (fields.find? fun e => e.1.eq (.text name)).map (·.2)

/-- The value of a field; a function is no value of any use there. -/
def fieldValue (fields : Fields) (name : String) (default : Value) : Value :=
  match field? fields name with
  | some (.value v) => v
  | some _ => .foreign ⟨"function", "builtins", none, true, 0, 0⟩
  | none => default

/-- A supplied function, told from a field by `pick`; any other function counts as supplied too. -/
def fieldFunction {α : Type} (fields : Fields) (name : String) (pick : Field → Option α)
    (other : α) : Supplied α :=
  match field? fields name with
  | none | some (.value .null) => .missing
  | some (.value _) => .notCallable
  | some f => .given ((pick f).getD other)

/-- The draft that fields make up. Names no definition has are refused, then missing ones. -/
def ofFields (fields : Fields) : Except FieldFault Draft := do
  let unknown := fields.filter fun e => !fieldNames.any fun name => e.1.eq (.text name)
  if !unknown.isEmpty then
    match unknown.mapM fun e => e.1.plainText with
    | .ok names => .error (.unknown (names.mergeSort fun a b => !(b < a)))
    | .error f => .error (.key f)
  let absent := requiredNames.filter fun name => (field? fields name).isNone
  if !absent.isEmpty then .error (.missing absent)
  return {
    displayName := fieldValue fields "display_name" .null
    category := fieldValue fields "category" .null
    inputs := fieldValue fields "inputs" (.tuple [])
    outputs := fieldValue fields "outputs" (.tuple [])
    defaultProps := fieldValue fields "default_props" (.mapping [])
    execute := fieldFunction fields "execute"
      (fun | .logic l => some l | _ => none) .idle
    validate := fieldFunction fields "validate"
      (fun | .check f => some f | _ => none) fun _ => .ok .null
    render := fieldFunction fields "render"
      (fun | .render f => some f | _ => none) fun _ => .ok (.other .null)
    version := fieldValue fields "version" .null
    description := fieldValue fields "description" .null
    color := fieldValue fields "color" .null
    icon := fieldValue fields "icon" .null
    author := fieldValue fields "author" .null
    isCircular := fieldValue fields "is_circular" (.bool false) }

/-- Port names, checked one after the other. -/
def portName (kind : String) (port : Value) : Except RegistrationFault String :=
  match port.name? with
  | none => .error (.blankPort kind)
  | some s => if 50 < s.length then .error (.portTooLong kind) else .ok s

def ports (kind : String) : Value → Except RegistrationFault (List String)
  | .list items | .tuple items =>
    if 20 < items.length then .error (.tooManyPorts kind) else items.mapM (portName kind)
  | _ => .error (.notPorts kind)

/-- Whether a list holds no name twice. -/
def distinct : List String → Bool
  | [] => true
  | s :: rest => !rest.contains s && distinct rest

/-- A text that may be left out, of limited length. -/
def optionalText (name : String) (limit : Nat) : Value → Except RegistrationFault (Option String)
  | .null => .ok none
  | .text s => if limit < s.length then .error (.textTooLong name limit) else .ok (some s)
  | _ => .error (.notText name)

def supplied (name : String) {α : Type} : Supplied α → Except RegistrationFault (Option α)
  | .missing => .ok none
  | .given f => .ok (some f)
  | .notCallable => .error (.notCallable name)

/-- A draft whose parts have been checked one by one. -/
structure Checked where
  displayName : String
  category : Category
  inputs : List String
  outputs : List String
  defaultProps : Entries
  isCircular : Bool
  color? : Option String
  icon? : Option String
  description? : Option String
  version? : Option String
  author? : Option String
  execute? : Option Logic
  validate? : Option CheckFn
  render? : Option RenderFn

/-- The checks a draft has to pass, in the order in which their complaints win. -/
def check (type : String) (d : Draft) : Except RegistrationFault Checked := do
  let some displayName := d.displayName.text? | .error .displayName
  if Text.isBlankText displayName then .error .displayName
  if 100 < displayName.length then .error .displayNameTooLong
  let some category := Category.ofValue? d.category | .error .category
  let inputs ← ports "inputs" d.inputs
  let outputs ← ports "outputs" d.outputs
  if !distinct inputs then .error (.duplicatePorts type "inputs")
  if !distinct outputs then .error (.duplicatePorts type "outputs")
  let shared := inputs.filter outputs.contains
  if !shared.isEmpty then .error (.conflictingPorts type shared)
  let .mapping defaultProps := d.defaultProps | .error .defaultProps
  let .bool isCircular := d.isCircular | .error .isCircular
  let color? ← optionalText "color" 20 d.color
  let icon? ← optionalText "icon" 10 d.icon
  let description? ← optionalText "description" 500 d.description
  let version? ← optionalText "version" 20 d.version
  let author? ← optionalText "author" 100 d.author
  let execute? ← supplied "execute" d.execute
  let validate? ← supplied "validate" d.validate
  let render? ← supplied "render" d.render
  return { displayName, category, inputs, outputs, defaultProps, isCircular, color?, icon?,
           description?, version?, author?, execute?, validate?, render? }

end Draft

/-- Properties copied for use: entries whose key is no text of at most a hundred characters are left
out with a warning, long texts and arrays are cut, and tuples become lists. -/
def copyProps (props : Entries) : Journaled Fault Entries :=
  props.foldlM copyEntry []
where
  copyEntry (done : Entries) (e : Value × Value) : Journaled Fault Entries := do
    let keep := match e.1 with
      | .text s => decide (s.length ≤ 100)
      | _ => false
    if keep then
      let value ← match e.2 with
        | .text s => pure (.text (if 10000 < s.length then String.ofList (s.toList.take 10000) else s))
        | .list items | .tuple items => liftM (Value.loosen (.tuple (items.take 1000)))
        | v => liftM v.loosen
      return Entries.write done e.1 value
    else
      let shown ← liftM e.1.literal
      journal .warning "registry" ("Skipping default prop with invalid key: " ++ shown)
      return done

namespace BlockDefinition

def defaultVersion : String := "1.0.0"

/-- A checked preview of the block with given properties. -/
def preview (d : BlockDefinition) (props : Entries) : Except PreviewFault Preview :=
  match d.render props with
  | .ok r => Preview.ofRendered r
  | .error f => .error (.raised f)

/-- The preview of a block whose author drew none: its name, and its type with a capital letter. -/
def plainRender (displayName type : String) : RenderFn := fun _ =>
  .ok (.preview (.text displayName) (.text type.capitalize) .null)

/-- The definition a registry keeps for a checked draft. -/
def ofChecked (type : String) (c : Draft.Checked) : Journaled Fault BlockDefinition := do
  let copied ← copyProps c.defaultProps
  return {
    displayName := c.displayName
    category := c.category
    inputs := c.inputs
    outputs := c.outputs
    defaultProps := Value.freezeEntries copied
    logic := c.execute?.getD .idle
    check := c.validate?.getD fun _ => .ok .null
    render := c.render?.getD (plainRender c.displayName type)
    version := c.version?.getD defaultVersion
    description := c.description?.getD (c.displayName ++ " block")
    color? := c.color?
    icon? := c.icon?
    author? := c.author?
    isCircular := c.isCircular
    supplied := ⟨c.execute?.isSome, c.validate?.isSome, c.render?.isSome⟩ }

/-- A copy of the default properties, free to be changed. -/
def defaults (d : BlockDefinition) : Entries :=
  match Value.loosenEntries d.defaultProps with
  | .ok props => props
  | .error _ => d.defaultProps

/-- Equality of definitions: everything by value, the functions only by whether they were supplied. -/
def same (a b : BlockDefinition) : Bool :=
  a.displayName == b.displayName && a.category == b.category && a.isCircular == b.isCircular &&
    a.color? == b.color? && a.icon? == b.icon? && a.description == b.description &&
    a.version == b.version && a.author? == b.author? && a.inputs == b.inputs &&
    a.outputs == b.outputs && Value.eq (.mapping a.defaults) (.mapping b.defaults) &&
    a.supplied == b.supplied

/-- The draft that asks for the same definition again. -/
def toDraft (d : BlockDefinition) : Draft where
  displayName := .text d.displayName
  category := .text d.category.name
  inputs := .tuple (d.inputs.map .text)
  outputs := .tuple (d.outputs.map .text)
  defaultProps := .mapping d.defaultProps
  execute := .given d.logic
  validate := .given d.check
  render := .given d.render
  version := .text d.version
  description := .text d.description
  color := d.color?.elim .null .text
  icon := d.icon?.elim .null .text
  author := d.author?.elim .null .text
  isCircular := .bool d.isCircular

end BlockDefinition

end BlockGraph
