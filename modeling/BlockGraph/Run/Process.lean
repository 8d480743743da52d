import BlockGraph.Run.Session
import BlockGraph.Value.Coerce
/-!
Processes: the logic of one element under way. A process takes steps until it hands over an item,
wants to sleep, or ends; then it can be resumed, closed, or interrupted in its sleep.
-/
namespace BlockGraph

/-- How a process ends. -/
inductive Ending where
  | normal
  | fault (f : Fault)
  /-- It was closed while it rested. -/
  | closed
  /-- Its sleep was interrupted. -/
  | interrupted

/-- What one step comes to. -/
inductive Taken where
  | done
  | item (v : Value)
  /-- An item, with a step to be taken after it. -/
  | itemThen (v : Value) (next : Step)
  | sleep (length : Span) (insists : Bool)
  | fault (f : Fault)

namespace Step

def emitted (port value : Except Fault Value) : Taken :=
  match port, value with
  | .ok port, .ok value => match Emission.ofParts port value with
    | .ok e => .item e.toItem
    | .error f => .fault f
  | .error f, _ | _, .error f => .fault f

/-- Applies a change to the slots that a context writes to. -/
def withSlots (c : Context) (s : Session) (r : Except Fault Slots) : Taken × Session :=
  match r with
  | .ok slots => (.done, s.withSlots c.run slots)
  | .error f => (.fault f, s)

/-- Logs a line after which an emission follows. -/
def sayThen (c : Context) (s : Session) (line : Except Fault String)
    (next : Session → Taken × Session) : Taken × Session :=
  match line with
  | .ok line => next (s.say ("[" ++ c.elementId ++ "] " ++ line))
  | .error f => (.fault f, s)

def named (fields : List (String × Value)) : Value :=
  .mapping (fields.map fun (k, v) => (.text k, v))

/-- One turn of a counting loop, or its end. -/
def counted (c : Context) (s : Session) (next : Nat) (limit : Number) : Taken × Session :=
  if Number.lt (.int next) limit then
    let line := (Value.numberText limit).map fun total =>
      "Loop iteration " ++ (next + 1).repr ++ "/" ++ total
    sayThen c s line fun s =>
      (.itemThen (.tuple [.text "item", .int next]) (.count (next + 1) limit), s)
  else (.done, s)

/-- The summary of a conditional loop. -/
def turnsOver (c : Context) (s : Session) (done : Nat) : Taken × Session :=
  sayThen c s (.ok ("While loop completed after " ++ done.repr ++ " iterations")) fun s =>
    (.item (.tuple [.text "done", named [("iterations", .int done)]]), s)

/-- One turn of a conditional loop, or its end. -/
def turned (c : Context) (s : Session) (done : Nat) (limit : Number) (condition : Value) :
    Taken × Session :=
  if 0 < done && Number.le limit (.int done) then
    let line := (Value.numberText limit).map fun total =>
      "While loop terminated after " ++ total ++ " iterations (safety limit)"
    sayThen c s line fun s => turnsOver c s done
  else if Number.lt (.int done) limit && condition.isTrue then
    sayThen c s (.ok ("While loop iteration " ++ (done + 1).repr)) fun s =>
      (.itemThen (.tuple [.text "body",
          named [("iteration", .int (done + 1 : Nat)), ("condition", condition)]])
        (.turns (done + 1) limit condition), s)
  else turnsOver c s done

/-- Takes one step. -/
def take (c : Context) (s : Session) : Step → Taken × Session
  | emit port value => (emitted (.ok port) (.ok value), s)
  | item value => (.item value, s)
  | emitInput port name default => (emitted (.ok port) (c.input name default), s)
  | emitInputs port => (emitted (.ok port) (.ok (.mapping c.inputs)), s)
  | emitProps port => (emitted (.ok port) (.ok (.mapping c.props)), s)
  | emitStored port key default =>
    (emitted (.ok port) ((s.slotsOf c.run).stored c.elementId key default), s)
  | emitGlobal port name default =>
    (emitted (.ok port) ((s.slotsOf c.run).global name default), s)
  | emitVariable port name => (emitted (.ok port) (c.variableOf name), s)
  | emitTargets port =>
    let targets := s.graph.targets.map fun (id, ts) => (id, Value.list (ts.map .text))
    (emitted (.ok port) (.ok (named targets)), s)
  | emitSlots port => (emitted (.ok port) (.ok (s.slotsOf c.run).toValue), s)
  | emitSelf port =>
    (emitted (.ok port) (.ok (.list [.text c.elementId, .text c.blockType])), s)
  | store key value => withSlots c s ((s.slotsOf c.run).store c.elementId key value)
  | storeInput key name =>
    withSlots c s (do
      let value ← c.input name .null
      (s.slotsOf c.run).store c.elementId key value)
  | storeGlobal name value =>
    let (fault?, slots) := (s.slotsOf c.run).storeGlobal name value
    (match fault? with
      | some f => .fault f
      | none => .done, s.withSlots c.run slots)
  | log message => match c.line message with
    | .ok line => (.done, s.say line)
    | .error f => (.fault f, s)
  | sleep length => (.sleep length false, s)
  | insist length => (.sleep length true, s)
  | stop => (.done, s.stop)
  | unregister type => match type with
    | .text type => (.done, { s with registry := (s.registry.unregister type).2 })
    | _ => (.fault (.raised .type "Block type must be a string"), s)
  | raise f => (.fault f, s)
  | announce message => (.done, s.report .info "io" ("PRINT: " ++ message))
  | useDraw => (.done, { s with draws := s.draws.next })
  | count next limit => counted c s next limit
  | turns done limit condition => turned c s done limit condition

end Step

/-- Steps that are left. Those of `closing` are taken after the others, however those end; `pending?`
is set once they are being taken, and says how the process ends after them. -/
structure Cursor where
  steps : List Step
  closing : List Step
  pending? : Option Ending

/-- Where a process stands. -/
inductive Progress where
  | fresh (logic : Logic)
  | resting (cursor : Cursor)
  | over

/-- The logic of one element under way. -/
structure Process where
  context : Context
  progress : Progress

/-- Why a process pauses. -/
inductive Pause where
  | item (v : Value)
  | sleep (length : Span) (insists : Bool)
  | ended (e : Ending)

namespace Cursor

/-- Takes steps until one of them makes the process pause. Steps run out with an ending. -/
def advance (c : Context) : List Step → Session → Pause × List Step × Session
  | [], s => (.ended .normal, [], s)
  | step :: rest, s => match step.take c s with
    | (.done, s) => advance c rest s
    | (.item v, s) => (.item v, rest, s)
    | (.itemThen v next, s) => (.item v, next :: rest, s)
    | (.sleep length insists, s) => (.sleep length insists, rest, s)
    | (.fault f, s) => (.ended (.fault f), [], s)

/-- Takes the closing steps of a process that ends in a given way. A fault on the way replaces that
ending. -/
def close (c : Context) (steps : List Step) (pending : Ending) (s : Session) :
    Pause × Progress × Session :=
  match advance c steps s with
  | (.ended .normal, _, s) => (.ended pending, .over, s)
  | (.ended e, _, s) => (.ended e, .over, s)
  | (pause, rest, s) => (pause, .resting ⟨rest, [], some pending⟩, s)

/-- Goes on until the process pauses. -/
def resume (c : Context) (cursor : Cursor) (s : Session) : Pause × Progress × Session :=
  match cursor.pending? with
  | some pending => close c cursor.steps pending s
  | none => match advance c cursor.steps s with
    | (.ended e, _, s) => close c cursor.closing e s
    | (pause, rest, s) => (pause, .resting { cursor with steps := rest }, s)

/-- Breaks off the steps under way. In the closing steps nothing is left to take then. -/
def breakOff (c : Context) (cursor : Cursor) (e : Ending) (s : Session) : Pause × Progress × Session :=
  match cursor.pending? with
  | some _ => (.ended e, .over, s)
  | none => close c cursor.closing e s

end Cursor

namespace Process

/-- The items that iterating a value hands over, as steps. -/
def itemSteps (v : Value) : List Step :=
  match v with
  | .null => []
  | v => match v.iterate with
    | .ok items => items.map .item
    | .error f => [.raise f]

def sleeps : Step → Bool
  | .sleep _ | .insist _ => true
  | _ => false

/-- The kinds of fault that logic of some form could be taken to end with normally. -/
def endSignals : Form → List String
  | .stream => ["StopIteration", "StopAsyncIteration"]
  | .sequence | .deferred => ["StopIteration"]
  | .immediate => []

/-- What faults call logic of some form. -/
def formName : Form → String
  | .stream => "async generator"
  | .sequence => "generator"
  | .deferred => "coroutine"
  | .immediate => "function"

/-- A fault as it leaves logic of some form: one that looks like a normal end is told as another. -/
def leaving (form : Form) (f : Fault) : Fault :=
  if (endSignals form).contains f.kind.name then
    .raised (.authored "RuntimeError") (formName form ++ " raised " ++ f.kind.name)
  else f

/-- A step as logic of some form takes it. -/
def inForm (form : Form) : Step → Step
  | .raise f => .raise (leaving form f)
  | step => step

/-- The steps that logic of some form can take: only some forms may sleep. -/
def possible (form : Form) (steps : List Step) : List Step :=
  match form with
  | .stream | .deferred => steps.map (inForm form)
  | .sequence | .immediate => (steps.filter (!sleeps ·)).map (inForm form)

/-- The steps of logic that starts now. -/
def start (c : Context) (logic : Logic) (s : Session) : Cursor :=
  match logic with
  | .script form steps closing => ⟨possible form steps, possible form closing, none⟩
  | .constant _ v => ⟨itemSteps v, [], none⟩
  | .planned _ plan =>
    let slots := s.slotsOf c.run
    let sight : Sight := ⟨c, slots.slot c.elementId, slots.slot Slots.globalId, s.draws.current⟩
    ⟨possible logic.form (plan sight), [], none⟩

def put (p : Process) (r : Pause × Progress × Session) : Pause × Process × Session :=
  (r.1, { p with progress := r.2.1 }, r.2.2)

/-- Goes on until the process pauses. -/
def resume (p : Process) (s : Session) : Pause × Process × Session :=
  match p.progress with
  | .fresh logic => p.put ((start p.context logic s).resume p.context s)
  | .resting cursor => p.put (cursor.resume p.context s)
  | .over => (.ended .normal, p, s)

/-- Closes a resting process: its closing steps are taken. One that never started has none to take. -/
def close (p : Process) (s : Session) : Pause × Process × Session :=
  match p.progress with
  | .resting cursor => p.put (cursor.breakOff p.context .closed s)
  | _ => (.ended .closed, { p with progress := .over }, s)

/-- Interrupts a sleeping process. -/
def interrupt (p : Process) (s : Session) : Pause × Process × Session :=
  match p.progress with
  | .resting cursor => p.put (cursor.breakOff p.context .interrupted s)
  | _ => (.ended .interrupted, p, s)

end Process

end BlockGraph
