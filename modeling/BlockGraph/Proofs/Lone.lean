import BlockGraph.Proofs.Acts
import BlockGraph.Proofs.Gate
import BlockGraph.Proofs.Stores
import Mathlib.Data.List.TakeDrop
/-!
Lone executions: a session is executed while nothing else is at work. The traversal has its turn next, and
once it is over the caller is told; so a barred graph is found out in seven steps.
-/
namespace BlockGraph

/-- Whether a request is accepted, with the options and the variables it asks for. -/
structure Request.Accepts (r : Request) (options : Options) (bindings : Entries) : Prop where
  accepted : r.options = .ok options
  valid : options.Valid
  bound : (if r.bindings.isTrue then r.bindings else .mapping []).toEntries = .ok bindings

/-- Whether nothing has happened in a run. -/
structure Session.Unrun (s : Session) : Prop extends s.Unstarted where
  slots : s.slots = []

theorem Session.Unrun.kept {s s' : Session} (h : s.Unrun) (k : Kept s s') (same : s'.slots = s.slots) :
    s'.Unrun :=
  ⟨h.toUnstarted.kept k, same.trans h.slots⟩

/-- What an execution leaves behind whose run had not begun. -/
theorem Session.Unrun.concludes {s s' : Session} {st : Stage} {o : Outcome} (h : s.Unrun)
    (how : Concludes s st o s') (running : s.running = true) : s'.closed.Unrun := by
  have unrun := h.kept (how.kept running) (how.slots running)
  exact ⟨⟨unrun.processed, unrun.steps, unrun.history⟩, unrun.slots⟩

namespace World

variable {α : Type}

/-- The timer of an execution that was begun at once. -/
def patience (o : Options) : List Timer :=
  match o.maxTime.span with
  | .ms r => [⟨r, 0, 0⟩]
  | .forever => []

/-- A world in which a caller waits for an execution that was begun at once, and nothing else is at work. -/
def lone (s : Session) (o : Options) (listener : Nat) (walk : Task α) (standing : Standing)
    (round next : List Due) : World α where
  session := s
  now := 0
  round
  next
  timers := patience o
  tickets := 1
  tasks := #[⟨.caller ⟨[], .executing ⟨listener, 0, 1⟩, []⟩, standing, false, []⟩, walk]
  busy? := none
  walk? := some 1
  replies := #[]
  phase := .live

/-- The traversal of it before its first turn. -/
def unopened : Task α := ⟨.walk ⟨⟨[], []⟩, .opening⟩, .queued, false, [.release 0 0]⟩

section Lone

variable {s s' : Session} {o : Options} {listener : Nat} {walk : Task α} {standing : Standing} {d : Due}
  {f : RunFault}

theorem execute_begins {r : Request} {bindings : Entries} (accepts : r.Accepts o bindings)
    (idle : s.running = false) : (ofCommands s [Command.execute (α := α) r]).step =
      some (lone (s.taken o r.listener bindings) o r.listener.number unopened (.parked 0) [] [.turn 1]) := by
  have begins : (ofCommands s [Command.execute (α := α) r]).step =
      some (command { ofCommands s [Command.execute r] with round := [] } 0 [] [.execute r]) := rfl
  rw [begins]
  unfold command begin
  simp only [accepts.accepted, accepts.bound]
  simp only [ofCommands, idle, Bool.false_eq_true, if_false, Option.any_none]
  unfold lone patience Double.span
  cases o.maxTime.units? with
  | none => rfl
  | some u =>
      simp only
      generalize mkRat u Double.unitsPerOne = budget
      have now : (⟨budget, 0, 0⟩ : Timer) = ⟨0 + budget, 0, 0⟩ := by rw [Rat.zero_add]
      rw [now]
      rfl

end Lone

end World

end BlockGraph
