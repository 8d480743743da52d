import BlockGraph.Proofs.Stage
/-!
Traversals as a recursion: a visit of an element takes the items of its logic one by one, and visits the
targets of the connections that each of them fires before it asks for the next. There is no stack; what
is under way is what the recursion has not come back to. Logic may go on forever, so a visit may have no
result.
-/
namespace BlockGraph

namespace Process

/-- Lets logic go on until it does something else than sleep. -/
def await (p : Process) (s : Session) : Option (Pause × Process × Session) :=
  match p.resume s with
  | (.sleep _ _, p, s) => p |>.await s
  | (.item v, p, s) => some (.item v, p, s)
  | (.ended e, p, s) => some (.ended e, p, s)
partial_fixpoint

/-- Lets logic go on until it ends, and collects what it hands over. -/
def gather (p : Process) (s : Session) (collected : List Value) :
    Option (Ending × List Value × Session) :=
  match p.resume s with
  | (.sleep _ _, p, s) => p |>.gather s collected
  | (.item v, p, s) => p |>.gather s (v :: collected)
  | (.ended e, _, s) => some (e, collected.reverse, s)
partial_fixpoint

/-- Closes logic that is given up. What it hands over then is lost. -/
def shut (p : Process) (s : Session) : Option Session :=
  match p.close s with
  | (.sleep _ _, p, s) => (p.await s).map (·.2.2)
  | (_, _, s) => some s

end Process

/-- Closes the source of emissions that are not wanted any more. -/
def Source.shut (source : Source) (s : Session) : Option Session :=
  match source with
  | .stream p | .sequence p => p.shut s
  | _ => some s

/-- What the logic of an element comes to when it is asked for an item: an item and the source of the
next ones, or its end, or a failure. -/
abbrev Pulled := Except RunFault (Option (Value × Source)) × Session

namespace Session

/-- The logic of an element has ended. -/
def pulledEnd (s : Session) (e : Element) : Ending → Pulled
  | .fault f =>
    let (f, s) := if f.kind = .timeout then s.blockTimedOut e else s.blockFailed e f
    (.error f, s)
  | _ => (.ok none, s)

/-- The first of some items. -/
def pulledItems (s : Session) : List Value → Pulled
  | [] => (.ok none, s)
  | v :: rest => (.ok (some (v, .items rest)), s)

/-- The logic of an element has paused. -/
def pulledPause (s : Session) (e : Element) (source : Source) : Pause → Pulled
  | .item v => (.ok (some (v, source)), s)
  | .ended how => s.pulledEnd e how
  | .sleep _ _ => (.ok none, s)

/-- The logic of an element has been run to its end. -/
def pulledAll (s : Session) (e : Element) (items : List Value) : Ending → Pulled
  | .normal => s.pulledItems items
  | how => s.pulledEnd e how

/-- Immediate logic has been run to its end; time-outs that it raises are faults like any other. -/
def pulledNow (s : Session) (e : Element) (items : List Value) : Ending → Pulled
  | .fault f =>
    let (f, s) := s.blockFailed e f
    (.error f, s)
  | _ => s.pulledItems items

/-- Asks the logic of an element for an item. -/
def pull (s : Session) (e : Element) (source : Source) : Option Pulled :=
  match source with
  | .items vs => some (s.pulledItems vs)
  | .sequence p => (p.await s).map fun (pause, p, s) => s.pulledPause e (.sequence p) pause
  | .stream p => (p.await s).map fun (pause, p, s) => s.pulledPause e (.stream p) pause
  | .gathering p collected => (p.gather s collected).map fun (how, items, s) => s.pulledNow e items how
  | .deferred p => (p.gather s []).map fun (how, items, s) => s.pulledAll e items how
  | .busy => some (.ok none, s)

end Session

/-- How a visit came out: the failure it came to, if any, and the session after it. -/
abbrev Visit := Option RunFault × Session

namespace Visit

/-- A visit that failed. -/
def fail (f : RunFault) (s : Session) : Visit := (some f, s.note (.failed f))

end Visit

namespace Session

mutual

/-- Visits an element. The visit counts; it comes to nothing when the run is not active or the element
was visited before, and fails when the run is over its budget. -/
def visit (s : Session) (id : String) : Option Visit :=
  if s.active = false then some (none, s.counted)
  else if s.options.maxSteps < ((s.steps + 1 : Nat) : Int) then
    some (.fail (.budget ((s.steps + 1 : Nat) : Int) s.options.maxSteps) s.counted)
  else if id ∈ s.processed then some (none, s.counted)
  else match s.graph.element? id with
    | none => some (none, s.counted)
    | some e => match s.registry.find? e.type with
      | none => some (.fail (.typeGone id e.type) s.counted)
      | some d => match Traversal.start s.counted e d.logic with
        | (.error f, s) => some (.fail f s)
        | (.ok none, s) => some (none, s)
        | (.ok (some frame), s) => s |>.drive e frame.source
partial_fixpoint

/-- Takes the items of an element one by one. Each is recorded, and the connections it fires are followed
before the next is asked for. When that fails, or the item is none, the logic is closed. -/
def drive (s : Session) (e : Element) (source : Source) : Option Visit := do
  match ← s.pull e source with
  | (.error f, s) => some (.fail f s)
  | (.ok none, s) => some (none, s.completed e.id)
  | (.ok (some (item, source)), s) => match Emission.ofItem item with
    | .error f =>
      let (f, s) := s.blockFailed e f
      return (some f, ← source.shut (s.note (.failed f)))
    | .ok emission => match ← (s.record e.id emission |>.follow (s.fired e.id emission)) with
      | (none, s) => s |>.drive e source
      | (some f, s) => return (some f, ← source.shut s)
partial_fixpoint

/-- Follows connections, each with all that comes of it, while the run is active. -/
def follow (s : Session) (cs : List Connection) : Option Visit :=
  match cs with
  | [] => some (none, s)
  | c :: rest =>
    if s.active then do
      match ← ((s.note (.traversed c.id)).notify (.traverse c.id) |>.visit c.target) with
      | (none, s) => s |>.follow rest
      | (some f, s) => some (some f, s)
    else some (none, s)
partial_fixpoint

end

end Session

/-- Goes on with an element under way: the connections that it still has to fire are followed first. -/
def Frame.finish (frame : Frame) (s : Session) : Option Visit := do
  match ← s.follow frame.pending with
  | (none, s) => s.drive frame.element frame.source
  | (some f, s) => return (some f, ← frame.source.shut s)

namespace Session

/-- What is made of an answer of the logic of an element. -/
def take (e : Element) (r : Pulled) : Option Visit :=
  match r with
  | (.error f, s) => some (.fail f s)
  | (.ok none, s) => some (none, s.completed e.id)
  | (.ok (some (item, source)), s) => match Emission.ofItem item with
    | .error f =>
      let (f, s) := s.blockFailed e f
      (source.shut (s.note (.failed f))).map (some f, ·)
    | .ok emission => Frame.finish ⟨e, source, s.fired e.id emission⟩ (s.record e.id emission)

/-- An element is asked for an item, and something is made of the answer. -/
theorem drive_eq (s : Session) (e : Element) (source : Source) :
    s.drive e source = (s.pull e source).bind (take e) := by
  rw [drive]
  refine congrArg (s.pull e source).bind (funext fun r => ?_)
  obtain ⟨answer, s⟩ := r
  unfold take
  cases answer with
  | error f => rfl
  | ok item? =>
      cases item? with
      | none => rfl
      | some item =>
          simp only
          cases Emission.ofItem item.1 with
          | error f => exact Option.map_eq_bind.symm
          | ok emission => rfl

/-- Visits the entry points one after the other, while the run is active. -/
def visitAll (s : Session) (entries : List String) : Option Visit :=
  match entries with
  | [] => some (none, s)
  | id :: rest =>
    if s.active then do
      match ← visit (s.note (.entered id)) id with
      | (none, s) => visitAll s rest
      | (some f, s) => some (some f, s)
    else some (none, s)

/-- The traversal of a whole run, after its opening. -/
def explore (s : Session) : Option Visit :=
  match s.opening with
  | (.error f, s) => some (some f, s)
  | (.ok entries, s) => s.visitAll entries

end Session

end BlockGraph
