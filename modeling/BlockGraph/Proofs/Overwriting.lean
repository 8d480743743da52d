import BlockGraph.Graph.Program
import BlockGraph.Proofs.Writing
/-!
Saving over a file. The file is emptied before the document is written, so nothing of what it held is left, be the
document written whole or broken off.
-/
namespace BlockGraph.Program

variable {p : Program}

/-- How saving ends: without a fault, or with one. -/
def ended : Option Fault → Except Fault Unit
  | none => .ok ()
  | some f => .error f

/-- What the file held before plays no part. -/
theorem save_run (p : Program) (before : String) : p.save.run.run before = (ended p.saved.1, p.saved.2) := by
  have emptied : p.save.run.run before = (Json.write .indented Json.refuse 0 p.toValue).run.run "" := rfl
  rw [emptied, saved, Json.written]
  split <;> assumption

/-- A program is saved whole when all of it can be written; otherwise the fault of the first part that cannot be is
raised. Either way, what the file held before is gone. -/
theorem save_replaces (p : Program) :
    (Json.Writable .indented Json.refuse p.toValue ∧ ∃ whole, Json.text .indented Json.refuse p.toValue = .ok whole ∧
      ∀ before, p.save.run.run before = (.ok (), whole)) ∨
    ∃ f part, Json.Blocked .indented Json.refuse p.toValue f ∧ ∀ before, p.save.run.run before = (.error f, part) := by
  rcases Json.writable_or_blocked .indented Json.refuse p.toValue with writable | ⟨f, blocked⟩
  · have written : p.saved.1 = none := writable.written
    exact .inl ⟨writable, p.saved.2, writable.text_ok, fun before => by rw [save_run, written, ended]⟩
  · have fault : p.saved.1 = some f := blocked.written
    exact .inr ⟨f, p.saved.2, blocked, fun before => by rw [save_run, fault, ended]⟩

/-- A document with a set among the properties of an element. -/
def unwritable : Value :=
  .mapping [(.text "elements", .list [.mapping [(.text "id", .text "A"), (.text "type", .text "source"),
    (.text "x", .int 0), (.text "y", .int 0), (.text "props", .mapping [(.text "k", .set [.int 1])])]])]

/-- What is left of a document that breaks off before that set. -/
def remnant : String := "\x7b\n  \"elements\": [\n    \x7b\n      \"id\": \"A\",\n      \"type\": \"source\",\n" ++
  "      \"x\": 0,\n      \"y\": 0,\n      \"props\": \x7b\n        \"k\": "

/-- Saving what that document describes fails, and of what the file held nothing is left. -/
theorem save_destroys : ∃ p, ofValue unwritable = .ok p ∧
    ∀ before, p.save.run.run before = (.error (.notWritable "set"), remnant) := by
  refine ⟨⟨[⟨"A", "source", .int 0, .int 0, [(.text "k", .set [.int 1])]⟩], []⟩, rfl, fun before => ?_⟩
  have broken : saved ⟨[⟨"A", "source", .int 0, .int 0, [(.text "k", .set [.int 1])]⟩], []⟩ =
      (some (.notWritable "set"), remnant) := by decide +kernel
  rw [save_run, broken, ended]

end BlockGraph.Program
