import BlockGraph.Run.Process
/-!
Traversals: the depth-first walk of a run. Each emission is resolved downstream, connection by
connection, before the block that made it goes on. A traversal moves in small steps; where block logic
has to be waited for, or a delay is due, it says so and is told later how that went.
-/
namespace BlockGraph

/-- Where the emissions of an element come from. -/
inductive Source where
  /-- Logic that runs to its end first, with the items collected so far, latest first. -/
  | gathering (p : Process) (collected : List Value)
  | items (rest : List Value)
  | sequence (p : Process)
  | stream (p : Process)
  /-- Logic that is waited for as a whole. -/
  | deferred (p : Process)
  /-- Logic that is being waited for, or was given up. -/
  | busy

/-- An element under way: where its emissions come from, and the connections that the last one still
has to fire. -/
structure Frame where
  element : Element
  source : Source
  pending : List Connection

/-- A traversal: entry points still to be visited, and the elements under way, innermost first. -/
structure Traversal where
  entries : List String
  stack : List Frame

/-- What a step of a traversal comes to. -/
inductive Move where
  | go (t : Traversal)
  /-- The logic of the innermost element has to be waited for. -/
  | wait (p : Process) (t : Traversal)
  /-- An element is over, but a delay comes before it is marked so. -/
  | delay (element : String) (t : Traversal)
  | finished
  | fail (f : RunFault) (t : Traversal)

namespace Source

/-- The source that logic of some form becomes when its element is visited. -/
def ofLogic (c : Context) (logic : Logic) : Source :=
  let p : Process := ⟨c, .fresh logic⟩
  match logic.form with
  | .stream => .stream p
  | .sequence => .sequence p
  | .deferred => .deferred p
  | .immediate => .gathering p []

end Source

namespace Traversal

/-- Starts the logic of an element. -/
def start (s : Session) (e : Element) (logic : Logic) : Except RunFault (Option Frame) × Session :=
  let s := { s with processed := s.processed ++ [e.id] }
  let s := s.say ("Executing element " ++ e.id ++ " (" ++ e.type ++ ")")
  let s := (s.note (.started e.id)).notify (.start e.id)
  match s.contextOf e with
  | (.error f, s) => (.error (.value f), s)
  | (.ok c, s) => (.ok (some ⟨e, Source.ofLogic c logic, []⟩), s)

/-- Begins the visit of an element: the attempt counts, and comes to something only while the run is
active, within its budget, and for an element not visited before. -/
def begin (s : Session) (id : String) : Except RunFault (Option Frame) × Session :=
  let s := { s with steps := s.steps + 1 }.note (.attempted s.active)
  if !s.active then (.ok none, s)
  else if s.options.maxSteps < s.steps then (.error (.budget s.steps s.options.maxSteps), s)
  else if s.processed.contains id then (.ok none, s)
  else
    match s.graph.element? id with
    | none => (.ok none, s)
    | some e => match s.registry.find? e.type with
      | none => (.error (.typeGone id e.type), s)
      | some d => start s e d.logic

/-- Visits an element on top of the others. -/
def visit (t : Traversal) (s : Session) (id : String) : Move × Session :=
  match begin s id with
  | (.error f, s) => (.fail f t, s)
  | (.ok none, s) => (.go t, s)
  | (.ok (some frame), s) => (.go { t with stack := frame :: t.stack }, s)

/-- An element is over. -/
def complete (t : Traversal) (s : Session) (id : String) : Move × Session :=
  if s.options.stepDelay.isZero || !s.active then (.go t, s.completed id)
  else (.delay id t, s)

/-- Takes an item from the innermost element: it is recorded, and fires connections. -/
def accept (t : Traversal) (s : Session) (item : Value) : Move × Session :=
  match t.stack with
  | [] => (.finished, s)
  | frame :: outer => match Emission.ofItem item with
    | .error f =>
      let (f, s) := s.blockFailed frame.element f
      (.fail f t, s)
    | .ok e =>
      let id := frame.element.id
      (.go { t with stack := { frame with pending := s.fired id e } :: outer }, s.record id e)

/-- The logic of the innermost element ended by itself, or failed. Logic that fails with a time-out of
its own is reported as if the run had lost patience with it. -/
def endWith (t : Traversal) (s : Session) (e : Ending) : Move × Session :=
  match t.stack with
  | [] => (.finished, s)
  | frame :: outer => match e with
    | .fault f =>
      let (f, s) := if f.kind = .timeout then s.blockTimedOut frame.element
        else s.blockFailed frame.element f
      (.fail f t, s)
    | _ => complete { t with stack := outer } s frame.element.id

/-- Puts back the source of the innermost element. -/
def withSource (t : Traversal) (source : Source) : Traversal :=
  match t.stack with
  | [] => t
  | frame :: outer => { t with stack := { frame with source } :: outer }

/-- What awaited logic of the innermost element came to. -/
def answer (t : Traversal) (s : Session) (pause : Pause) (source : Source) : Move × Session :=
  let t := t.withSource source
  match pause with
  | .item v => accept t s v
  | .ended e => endWith t s e
  | .sleep .. => (.go t, s)

/-- Gathers the items of logic that runs to its end when it is started. Time-outs that it raises are
faults like any other. -/
def gather (t : Traversal) (s : Session) (frame : Frame) (p : Process) (collected : List Value) :
    Move × Session :=
  match p.resume s with
  | (.item v, p, s) => (.go (t.withSource (.gathering p (v :: collected))), s)
  | (.ended (.fault f), _, s) =>
    let (f, s) := s.blockFailed frame.element f
    (.fail f { t with stack := t.stack.drop 1 }, s)
  | (.ended _, _, s) => (.go (t.withSource (.items collected.reverse)), s)
  | (.sleep .., p, s) => (.go (t.withSource (.gathering p collected)), s)

/-- Goes on with the innermost element. -/
def advance (t : Traversal) (s : Session) (frame : Frame) : Move × Session :=
  match frame.source with
  | .gathering p collected => gather t s frame p collected
  | .items [] => endWith t s .normal
  | .items (v :: rest) => accept (t.withSource (.items rest)) s v
  | .sequence p => match p.resume s with
    | (.sleep .., p, s) => (.go (t.withSource (.sequence p)), s)
    | (pause, p, s) => answer t s pause (.sequence p)
  | .stream p | .deferred p => (.wait p (t.withSource .busy), s)
  | .busy => endWith t s .normal

/-- One step. -/
def step (t : Traversal) (s : Session) : Move × Session :=
  match t.stack with
  | [] => match t.entries with
    | [] => (.finished, s)
    | id :: rest =>
      if s.active then visit { t with entries := rest } (s.note (.entered id)) id else (.finished, s)
  | frame :: outer => match frame.pending with
    | [] => advance t s frame
    | c :: rest =>
      if s.active then
        visit { t with stack := { frame with pending := rest } :: outer }
          ((s.note (.traversed c.id)).notify (.traverse c.id)) c.target
      else (.go { t with stack := { frame with pending := [] } :: outer }, s)

end Traversal

end BlockGraph
