import BlockGraph.Block.Registry
import BlockGraph.Graph.Cycle
import BlockGraph.Run.Event
import BlockGraph.Run.Slots
/-!
Sessions: one graph with its registry, and all that is known about its current or last run. The
functions here are the single moves of which a run is made.
-/
namespace BlockGraph

/-- Random draws used in order and starting over at the end. -/
structure Draws where
  values : List Double
  position : Nat

namespace Draws

def current (d : Draws) : Double := d.values.getD d.position Double.zero

def next (d : Draws) : Draws :=
  { d with position := if d.position + 1 < d.values.length then d.position + 1 else 0 }

end Draws

/-- A session. `stores` holds the slots of every run since the session began, the current ones last:
logic of an earlier run that is still alive goes on writing to its own. `history` is what has happened
in the current run, latest first; a run never looks back at it. -/
structure Session where
  graph : Graph
  registry : Registry
  options : Options
  listener : Listener
  bindings : Entries
  running : Bool
  stopRequested : Bool
  status : Status
  stores : Array Slots
  log : Array String
  processed : List String
  steps : Nat
  started : Bool
  ended : Bool
  error? : Option String
  errorCount : Nat
  successCount : Nat
  draws : Draws
  journal : Array JournalEntry
  heard : Array (Nat × Event)
  history : List Happening

namespace Session

/-- A session before its first run. -/
def ofGraph (graph : Graph) (registry : Registry) (draws : List Double) : Session where
  graph
  registry
  options := Options.default
  listener := Listener.silent
  bindings := []
  running := false
  stopRequested := false
  status := .idle
  stores := #[[]]
  log := #[]
  processed := []
  steps := 0
  started := false
  ended := false
  error? := none
  errorCount := 0
  successCount := 0
  draws := ⟨draws, 0⟩
  journal := #[]
  heard := #[]
  history := []

/-- The number of the current run. -/
def run (s : Session) : Nat := s.stores.size - 1

/-- The slots of a run. -/
def slotsOf (s : Session) (run : Nat) : Slots := s.stores.getD run []

/-- The slots of the current run. -/
def slots (s : Session) : Slots := s.slotsOf s.run

def withSlots (s : Session) (run : Nat) (slots : Slots) : Session :=
  { s with stores := s.stores.setIfInBounds run slots }

/-- Whether new elements may be visited. -/
def active (s : Session) : Bool := s.running && !s.stopRequested

def report (s : Session) (severity : Severity) (source message : String) : Session :=
  { s with journal := s.journal.push ⟨severity, source, message⟩ }

def note (s : Session) (h : Happening) : Session := { s with history := h :: s.history }

/-- Why a session cannot be reset. -/
def resetRefusal : String := "Cannot reset while execution is in progress - call stop() first"

/-- Forgets everything about the last run; its slots stay with the logic that still writes to them. -/
def cleared (s : Session) : Session :=
  { s with
    stores := s.stores.push []
    log := #[]
    processed := []
    steps := 0
    started := false
    ended := false
    error? := none
    errorCount := 0
    successCount := 0
    stopRequested := false
    status := .idle
    history := [] }

/-- Resets a session that is not running. -/
def reset? (s : Session) : Option Session := if s.running then none else some s.cleared

def warn (s : Session) (e : Event) (kind message : String) : Session :=
  s.report .warning "engine" (e.kind.optionName ++ " raised " ++ kind ++ ": " ++ message)

/-- The reactions of the listener one by one, given what a stop comes to; the first that raises ends
them. -/
def react (stop : Session → Session) (e : Event) : Session → List Reaction → Session
  | s, [] => s
  | s, .stop :: rest => react stop e (stop s) rest
  | s, .reset :: rest =>
    match s.reset? with
    | some s => react stop e s rest
    | none => s.warn e RunFault.inProgress.name resetRefusal
  | s, .raise f :: _ => s.warn e f.kind.name f.message

/-- A way to tell a listener, which the options may or may not let hear of an event. -/
abbrev Telling := Session → Options → Listener → Event → Session

/-- Appends to the run's log and tells the session's listener. -/
def logBy (tell : Telling) (s : Session) (line : String) : Session :=
  tell { s with log := s.log.push line } s.options s.listener (.log line)

/-- Asks for a stop: logic under way goes on, but nothing new is visited. -/
def stopBy (tell : Telling) (s : Session) : Session :=
  if s.active then logBy tell { s with stopRequested := true } "Execution stopped by user request"
  else s

/-- Tells a listener, if it listens to such events, and lets it react. What it raises is reported to
the operator and goes no further. A listener may ask for a stop, which is logged and told in turn;
`depth` bounds how far such answers go, and two levels are enough because a run is stopped but once. -/
def tell : Nat → Telling
  | 0, s, _, _, _ => s
  | depth + 1, s, options, listener, e =>
    if options.heard.contains e.kind then
      react (stopBy (tell depth)) e { s with heard := s.heard.push (listener.number, e) }
        (listener.react e)
    else s

def say (s : Session) (line : String) : Session := logBy (tell 2) s line

/-- Tells the session's listener, if it listens to such events. -/
def notify (s : Session) (e : Event) : Session := tell 2 s s.options s.listener e

def stop (s : Session) : Session := stopBy (tell 2) s

/-- What an element receives: under each input port the latest value that its source recorded. A
connection that names an output port takes that port's value; otherwise, and when nothing is recorded
there, it takes the entry that the source's slot gained last. -/
def collectInputs (s : Session) (id : String) : Entries :=
  (s.graph.incoming id).foldl (fun inputs c =>
    let recorded := s.slots.slot c.source
    match recorded.getLast? with
    | none => inputs
    | some (_, latest) =>
      let value := (c.output?.bind fun port => Entries.field? recorded port).getD latest
      Entries.writeField inputs ((c.input?.filter (!·.isEmpty)).getD "input") value) []

/-- Opens the slot of an element and makes the context of its visit. Properties win over what other
elements send. -/
def contextOf (s : Session) (e : Element) : Except Fault Context × Session :=
  let s := s.withSlots s.run (s.slots.opened e.id)
  let (props, lines) := (copyProps e.props).outcome
  let s := { s with journal := s.journal ++ lines }
  match props with
  | .error f => (.error f, s)
  | .ok props =>
    let inputs := Entries.overlay (s.collectInputs e.id) props
    (.ok ⟨e.id, e.type, inputs, e.props, s.bindings, s.run⟩, s)

/-- Records an emission under its port. -/
def record (s : Session) (id : String) (e : Emission) : Session :=
  (s.withSlots s.run (s.slots.write id (.text e.port) e.value)).note (.emitted id e)

/-- The connections that an emission fires. -/
def fired (s : Session) (id : String) (e : Emission) : List Connection :=
  (s.graph.outgoing id).filter (·.carries e.port)

/-- Marks an element as done. -/
def completed (s : Session) (id : String) : Session :=
  ((s.say ("Completed element " ++ id)).note (.completed id)).notify (.complete id)

/-- Logs that the logic of an element failed. -/
def blockFailed (s : Session) (e : Element) (cause : Fault) : RunFault × Session :=
  let f := RunFault.block e.id e.type cause
  (f, s.say f.message)

/-- Logs that the logic of an element took too long. -/
def blockTimedOut (s : Session) (e : Element) : RunFault × Session :=
  let f := RunFault.blockTimeout e.id s.options.blockTimeout
  (f, s.say ("Error executing element " ++ e.id ++ " (" ++ e.type ++ "): " ++ f.message))

/-- What is worth knowing about the graph before it runs. -/
def diagnose (s : Session) : Session :=
  let cycles := s.graph.cycles
  let orphans := s.graph.orphans
  let s := if cycles.isEmpty then s else
    cycles.zipIdx.foldl (fun s (cycle, i) =>
        s.say ("Cycle " ++ (i + 1).repr ++ ": " ++ " -> ".intercalate cycle))
      (s.say ("Warning: Found " ++ cycles.length.repr ++ " cycles in the execution graph"))
  if orphans.isEmpty then s else
    s.say ("Found " ++ orphans.length.repr ++ " unconnected element(s): " ++ ", ".intercalate orphans)

/-- Whether an element may run: its type is known and its properties pass. -/
def checkElement (s : Session) (e : Element) : Except RunFault Unit :=
  match s.registry.find? e.type with
  | none => .error (.unknownType e.id e.type)
  | some d => match d.check e.props with
    | .error f => .error (.rejected e.id e.type f.message (some f))
    | .ok complaint =>
      if complaint.isTrue then
        match complaint.plainText with
        | .ok s => .error (.rejected e.id e.type s none)
        | .error f => .error (.value f)
      else .ok ()

/-- The gate every run has to pass: all elements are checked before anything runs. -/
def checkAll (s : Session) : Except RunFault Unit := s.graph.elements.forM s.checkElement

/-- The opening of a run: diagnostics, the gate, and the entry points from which elements are visited.
A graph in which every element has an incoming connection starts at its first element. -/
def opening (s : Session) : Except RunFault (List String) × Session :=
  let s := if s.options.detectCycles then s.diagnose else s
  match s.checkAll with
  | .error f => (.error f, s)
  | .ok () =>
    match s.graph.elements with
    | [] => (.ok [], s.say "No elements to execute")
    | first :: _ =>
      let (entries, s) := match s.graph.entryPoints with
        | [] => ([first.id],
          s.say ("No entry points found - falling back to element " ++ first.id))
        | entries => (entries, s)
      (.ok entries, s.say ("Starting execution from " ++ entries.length.repr ++ " entry point(s): " ++
        ", ".intercalate entries))

/-- Takes a session that is free for a run: everything about the last one is forgotten. -/
def taken (s : Session) (options : Options) (listener : Listener) (bindings : Entries) : Session :=
  let s := { s.cleared with
    options, listener, bindings, running := true, status := .running, started := true }
  let s := s.report .info "engine" ("Executing program with " ++ s.graph.elements.length.repr ++
    " elements and " ++ s.graph.connections.length.repr ++ " connections")
  s.say ("Starting execution with options - " ++ options.describe)

/-- The words that a completed or stopped run is logged with. -/
def summary (s : Session) : String :=
  s.processed.length.repr ++ " elements in " ++ s.steps.repr ++ " steps"

/-- A run whose traversal came to its end was completed, unless a stop was asked for. -/
def finished (s : Session) : Session :=
  if s.stopRequested then
    ({ s with status := .stopped }).say ("Execution stopped after processing " ++ s.summary)
  else
    ({ s with status := .completed, successCount := s.successCount + 1 }).say
      ("Execution completed successfully. Processed " ++ s.summary)

/-- A failed run is counted, logged, and told to the listener. -/
def failedWith (s : Session) (f : RunFault) : Session :=
  let s := { s with errorCount := s.errorCount + 1, status := .failed, error? := some f.message }
  let line := "Execution failed: " ++ f.message
  ((s.say line).report .error "engine" line).notify (.error f)

/-- A run that was cancelled: nothing new is visited. -/
def aborted (s : Session) : Session :=
  ({ s with stopRequested := true, status := .stopped }).say "Execution cancelled"

/-- The session no longer runs. -/
def closed (s : Session) : Session :=
  let s := { s with running := false, stopRequested := false, ended := true }
  s.report .info "engine" ("Execution " ++ s.status.name)

end Session

end BlockGraph
