import BlockGraph.Proofs.Alike
import BlockGraph.Proofs.Endings
import BlockGraph.Proofs.LikeWorlds
/-!
Worlds that are alike: the same tasks are at work in them at the same time, in sessions that are alike.
What was replied, and what executions that ended looked like, is left open. As long as there is room, each
turn of a task comes to the same in both.
-/
namespace BlockGraph

/-- Whether two executions ended in the same way, in sessions that are alike. -/
structure Execution.Alike (e e' : Execution) : Prop where
  outcome : e'.outcome = e.outcome
  session : e.session.Alike e'.session

/-- Whether a command comes to the same in sessions that are alike, as far as these are concerned. -/
def Command.Blind {α : Type} : Command α → Prop
  | .act f => ∀ s t : Session, s.running = true → s.Alike t → (f s).2.Alike (f t).2
  | _ => True

/-- An execution that nobody looks into. -/
def Execution.blank : Execution := ⟨.cancelled, .ofGraph ⟨[], []⟩ ⟨[]⟩ [], 0, 0⟩

/-- What a task works at, but for the execution that ended with it. -/
def Work.plain {α : Type} : Work α → Work α
  | .runner (.over _) => .runner (.over .blank)
  | x => x

/-- Tasks that look the same work at the same, unless they are over with executions. -/
theorem Work.eq_of_plain {α : Type} {x x' : Work α} (same : x'.plain = x.plain) :
    x' = x ∨ ∃ e e', x = .runner (.over e) ∧ x' = .runner (.over e') := by
  cases x with
  | runner m =>
      cases x' with
      | runner m' =>
          cases m <;> cases m' <;> first
            | exact .inr ⟨_, _, rfl, rfl⟩
            | exact .inl same
            | cases same
      | _ => cases m <;> cases same
  | _ =>
      cases x' with
      | runner m' => cases m' <;> cases same
      | _ => exact .inl same

/-- Worlds without their sessions, and without what came of executions. -/
def Lens.bare {α : Type} : Lens α := ⟨fun _ => Execution.blank.session, Work.plain, fun _ => #[]⟩

theorem Lens.bare_pair {α : Type} : (Lens.bare (α := α)).Pair .bare where
  sessions _ _ := rfl
  inner _ _ := rfl
  only x x' same inner := by
    rcases Work.eq_of_plain same with rfl | ⟨_, _, rfl, rfl⟩
    · rfl
    · rcases inner with inner | inner <;> cases inner

namespace World

variable {α : Type}

/-- Whether two worlds are alike. -/
structure Alike (w w' : World α) : Prop where
  session : w.session.Alike w'.session
  same : Lens.bare.world w' = Lens.bare.world w

theorem Like.alike {w w' : World α} (h : Like Session.Alike .bare .bare w w') : w.Alike w' := ⟨h.session, h.same⟩

namespace Alike

variable {w w' : World α}

theorem like (h : w.Alike w') : Like Session.Alike .bare .bare w w' := ⟨h.session, h.same⟩

theorem withSession (h : w.Alike w') {s t : Session} (alike : s.Alike t) :
    (w.withSession s).Alike (w'.withSession t) := ⟨alike, h.same⟩

theorem withWork (h : w.Alike w') (i : Nat) {x x' : Work α} (same : x'.plain = x.plain) :
    (w.withWork i x).Alike (w'.withWork i x') := (h.like.withWork i same).alike

theorem replied (h : w.Alike w') (r r' : Reply α) : (w.reply r).Alike (w'.reply r') := ⟨h.session, h.same⟩

/-! ### Executions -/

section Executions

variable (h : w.Alike w') (i : Nat)
include h

theorem conclude (p : Pending) (cancelled : Bool) : (w.conclude i p cancelled).1.Alike (w'.conclude i p cancelled).1 :=
  have ends := (h.like.conclude Session.Alike.likeness Lens.bare_pair i p cancelled).1
  ⟨ends.outcome, ends.session⟩

/-- An execution that is asked for while a run is under way is refused in both worlds. -/
theorem begin (r : Request) (running : w.session.running = true) :
    ∃ e e' w₁ w₁', w.begin i r = (.inl e, w₁) ∧ w'.begin i r = (.inl e', w₁') ∧ w₁.Alike w₁' := by
  have running' := h.session.running.trans running
  unfold World.begin
  cases r.options with
  | error f => exact ⟨_, _, _, _, rfl, rfl, h⟩
  | ok options =>
      simp only [running, running', if_true]
      exact ⟨_, _, _, _, rfl, rfl, h.withSession (h.session.told running options r.listener _)⟩

theorem runnerOver (e e' : Execution) :
    (World.runnerOver i (e, w)).Alike (World.runnerOver i (e', w')) := by
  have put := h.withWork i (show (Work.runner (.over e') : Work α).plain = (Work.runner (.over e)).plain from rfl)
  exact (put.like.finish i).alike

/-- A turn of an execution beside its caller that comes to nothing. -/
theorem runnerTurn {m : RunnerMode} (free : (Work.runner m : Work α).pending? = none) (cancelled : Bool)
    (running : w.session.running = true) :
    (w.runnerTurn i m cancelled).Alike (w'.runnerTurn i m cancelled) := by
  cases m with
  | «over» e => exact h
  | pending p => cases free
  | fresh r =>
      cases cancelled with
      | true => exact h.runnerOver i _ _
      | false =>
          obtain ⟨e, e', w₁, w₁', begun, begun', begins⟩ := h.begin i r running
          unfold World.runnerTurn
          simp only [begun, begun']
          exact begins.runnerOver i e e'

end Executions

/-! ### Callers -/

section Callers

variable (h : w.Alike w') (i : Nat)
include h

/-- An execution has ended in both worlds or in neither. -/
theorem execution? : (∃ e e', w.execution? i = some e ∧ w'.execution? i = some e') ∨
    w.execution? i = none ∧ w'.execution? i = none := by
  have lens : ∀ w : World α, ((Lens.bare.world w).execution? i).isSome = (w.execution? i).isSome := by
    intro w
    unfold World.execution?
    rw [Lens.tasks]
    cases w.tasks[i]? with
    | none => rfl
    | some t =>
        obtain ⟨work, _, _, _⟩ := t
        cases work with
        | runner m => cases m <;> rfl
        | _ => rfl
  have same : (w'.execution? i).isSome = (w.execution? i).isSome := by rw [← lens, h.same, lens]
  cases ended : w.execution? i with
  | none =>
      rw [ended] at same
      exact .inr ⟨rfl, Option.not_isSome_iff_eq_none.mp (Bool.eq_false_iff.mp same)⟩
  | some e =>
      rw [ended] at same
      obtain ⟨e', ended'⟩ := Option.isSome_iff_exists.mp same
      exact .inl ⟨e, e', rfl, ended'⟩

theorem putCaller (c : Caller α) : (w.withWork i (.caller c)).Alike (w'.withWork i (.caller c)) :=
  h.withWork i rfl

/-- What a caller does while a run is under way. -/
theorem command (commands : List (Command α)) (started : List Nat) (proper : ∀ x ∈ commands, x.Proper)
    (blind : ∀ x ∈ commands, x.Blind) (running : w.session.running = true) :
    (w.command i started commands).Alike (w'.command i started commands) := by
  induction commands generalizing w w' started with
  | nil => exact ((h.putCaller i _).like.finish i).alike
  | cons x rest ih =>
      have others : ∀ x ∈ rest, x.Proper := fun x member => proper x (List.mem_cons_of_mem _ member)
      have ih : ∀ {w w' : World α} (started : List Nat), w.Alike w' → w.session.running = true →
          (w.command i started rest).Alike (w'.command i started rest) := fun started h running =>
        ih h started others (fun x member => blind x (List.mem_cons_of_mem _ member)) running
      cases x with
      | act f =>
          have acted : Deeds w.session (f w.session).2 := proper (.act f) List.mem_cons_self w.session
          have alike := blind (.act f) List.mem_cons_self _ _ running h.session
          exact ih started ((h.withSession alike).replied _ _) (acted.runsOn.running.trans running)
      | wait length => exact ((h.putCaller i _).like.sleep i length).alike
      | execute r =>
          obtain ⟨e, e', w₁, w₁', begun, begun', begins⟩ := h.begin i r running
          obtain ⟨_, _, same, deeds⟩ := w.begin_running i r running
          cases begun.symm.trans same
          unfold World.command
          simp only [begun, begun']
          exact ih started (begins.replied _ _) (deeds.runsOn.running.trans running)
      | start r =>
          have fresh : Lens.bare.work (.runner (.fresh r) : Work α) = Lens.bare.work (.runner (.fresh r)) := rfl
          obtain ⟨task, spawned⟩ := h.like.spawn fresh []
          unfold World.command
          simp only [task]
          exact ih _ spawned.alike running
      | cancel =>
          cases started with
          | nil => exact ih [] h running
          | cons runner older =>
              exact ih (runner :: older) (h.like.cancel runner).alike
                ((congrArg Session.running (w.cancel_quiet runner).session).trans running)
      | join =>
          cases started with
          | nil => exact ih [] h running
          | cons runner older =>
              unfold World.command
              rcases h.execution? runner with ⟨e, e', ended, ended'⟩ | ⟨none, none'⟩
              · simp only [ended, ended']
                exact ih older (h.replied _ _) running
              · simp only [none, none']
                exact ((h.like.park i).2.watch runner _).alike.putCaller i _

/-- A turn of a caller that waits for no execution. -/
theorem callerTurn {c : Caller α} (free : (Work.caller c).pending? = none)
    (proper : ∀ x ∈ c.commands, x.Proper) (blind : ∀ x ∈ c.commands, x.Blind) (cancelled : Bool)
    (running : w.session.running = true) :
    (w.callerTurn i c cancelled).Alike (w'.callerTurn i c cancelled) := by
  obtain ⟨commands, mode, started⟩ := c
  have does : ∀ {w w' : World α}, w.Alike w' → w.session.running = true →
      (w.command i started commands).Alike (w'.command i started commands) := fun h =>
    h.command i commands started proper blind
  cases mode with
  | «over» => exact h
  | ready => exact does h running
  | waiting => exact does (h.replied _ _) running
  | executing p => cases free
  | joining runner =>
      unfold World.callerTurn
      rcases h.execution? runner with ⟨e, e', ended, ended'⟩ | ⟨none, none'⟩
      · simp only [ended, ended']
        exact does (h.replied _ _) running
      · simp only [none, none']
        exact does h running

end Callers

/-! ### Turns -/

/-- What a task does in its turn while a run is under way, if it does not wait for an execution. A traversal
that goes on has to go on alike. -/
theorem turns (h : w.Alike w') (i : Nat) {x x' : Work α} (plain : x'.plain = x.plain)
    (free : x.pending? = none) (proper : x.Proper)
    (blind : ∀ c, x = .caller c → ∀ y ∈ c.commands, y.Blind) (cancelled : Bool)
    (running : w.session.running = true)
    (goes : ∀ k, x = .walk k → k.mode = .walking → cancelled = false →
      Likens Session.Alike (k.traversal.step w.session) (k.traversal.step w'.session)) :
    (World.works w i x cancelled).Alike (World.works w' i x' cancelled) := by
  rcases Work.eq_of_plain plain with rfl | ⟨_, _, rfl, rfl⟩
  · cases x' with
    | caller c => exact h.callerTurn i free proper (blind c rfl) cancelled running
    | runner m => exact h.runnerTurn i free cancelled running
    | walk k =>
        have turns := h.like.walkTurn Session.Alike.likeness Lens.bare_pair i k cancelled
        exact (turns (fun _ _ => h.session.opening) (goes k rfl)).alike
    | attempt a => exact (h.like.attemptTurn Session.Alike.likeness Lens.bare_pair i a cancelled).alike
  · exact h

end Alike

end World

end BlockGraph
