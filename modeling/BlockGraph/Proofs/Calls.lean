import BlockGraph.Proofs.Order
/-!
What callers still have to do. Commands are only ever taken off, so what holds of each of them at first
holds of each that is left.
-/
namespace BlockGraph
namespace World

variable {α : Type} {w w' : World α} {task : Nat} {P : Command α → Prop}

/-- Whether all that the callers of a world still have to do has a property. -/
def Calls (w : World α) (P : Command α → Prop) : Prop :=
  ∀ i c, w.work? i = some (.caller c) → ∀ x ∈ c.commands, P x

namespace Calls

theorem of_work (h : w.Calls P) (work : ∀ i, w'.work? i = w.work? i) : w'.Calls P :=
  fun i c here => h i c ((work i).symm.trans here)

theorem quiet (h : w.Calls P) (quiet : Quiet w w') : w'.Calls P := h.of_work quiet.work

/-- A task comes to work at something; if that is for a caller, it is known. -/
theorem put (h : w.Calls P) {x : Work α} (known : ∀ c, x = .caller c → ∀ y ∈ c.commands, P y) :
    (w.withWork task x).Calls P := by
  intro i c here
  rw [withWork_work] at here
  split at here
  · obtain ⟨_, _, rfl⟩ := Option.map_eq_some_iff.mp here
    exact known c rfl
  · exact h i c here

theorem spawn (h : w.Calls P) {x : Work α} (other : ∀ c, x ≠ .caller c) (watchers : List Watcher) :
    (w.spawn x watchers).2.Calls P := by
  intro i c here
  rcases spawn_old here with ⟨_, same⟩ | old
  · exact absurd same.symm (other c)
  · exact h i c old

theorem runnerOver (h : w.Calls P) (task : Nat) (e : Execution) : (World.runnerOver task (e, w)).Calls P :=
  (h.put fun _ same => by cases same).quiet (w.runnerOver_quiet task e)

theorem begin (h : w.Calls P) (task : Nat) (r : Request) : (w.begin task r).2.Calls P := by
  unfold World.begin
  simp only
  split
  · exact h
  · split
    · exact h
    · split
      · exact h
      · split
        · exact h
        · rename_i options _ _ _ _ bindings _
          have taken : (w.withSession (w.session.taken options r.listener bindings)).Calls P := h
          have walks := (taken.quiet (park_quiet _ task)).spawn (x := .walk ⟨⟨[], []⟩, .opening⟩)
            (fun _ same => by cases same) [.release task w.tickets]
          refine quiet (w := { World.spawn _ _ _ |>.2 with walk? := _ }) ?_ (schedule_quiet _ task _ _)
          exact of_work walks fun _ => rfl

theorem command (commands : List (Command α)) (left : ∀ x ∈ commands, P x) (h : w.Calls P)
    (started : List Nat) : (w.command task started commands).Calls P := by
  induction commands generalizing w started with
  | nil => exact (h.put fun c same => by cases same; exact left).quiet (w.commandNil_quiet task started)
  | cons x rest ih =>
      have ih : ∀ {w : World α} (started : List Nat), w.Calls P → (w.command task started rest).Calls P :=
        fun started h => ih (fun x member => left x (List.mem_cons_of_mem _ member)) h started
      have waits : ∀ {w : World α} mode started, w.Calls P →
          (w.withWork task (.caller ⟨rest, mode, started⟩)).Calls P := fun mode started h =>
        h.put fun c same => by
          cases same
          exact fun x member => left x (List.mem_cons_of_mem _ member)
      cases x with
      | act f => exact ih started h
      | wait length => exact (waits .waiting started h).quiet (sleep_quiet _ _ _)
      | execute r =>
          have begun := h.begin task r
          unfold World.command
          split <;> rename_i same <;> rw [same] at begun
          · exact ih started begun
          · exact waits (.executing _) started begun
      | start r => exact ih _ (h.spawn (fun _ same => by cases same) [])
      | cancel =>
          cases started with
          | nil => exact ih [] h
          | cons runner older => exact ih (runner :: older) (h.quiet (w.cancel_quiet runner))
      | join =>
          cases started with
          | nil => exact ih [] h
          | cons runner older =>
              cases ceased : w.execution? runner with
              | some e =>
                  simp only [World.command, ceased]
                  exact ih older h
              | none =>
                  have quiet := (w.park_quiet task).trans (watch_quiet _ runner [.wake task])
                  simp only [World.command, ceased]
                  exact waits (.joining runner) older (h.quiet quiet)

/-- What a task does leaves callers with what they still have to do, or less. -/
theorem works (h : w.Calls P) {c : Course} (shown : Shows none w c) {x : Work α}
    (here : w.work? task = some x) (cancelled : Bool) : (w.works task x cancelled).Calls P := by
  have inner : ∀ {y s}, Puts task y s w (w.works task x cancelled) → y.Inner →
      (w.works task x cancelled).Calls P := by
    intro y s put inner i k there
    rcases put.outer inner there with within | old
    · cases within
    · exact h i k old
  cases x with
  | walk k =>
      obtain ⟨_, k', _, _, put, _⟩ :=
        (shown.walkTurn here cancelled False.elim : Walked False task k w (w.walkTurn task k cancelled) c)
      exact inner put (.walk k')
  | attempt a =>
      obtain ⟨_, a', _, _, put, _⟩ :=
        (shown.attemptTurn here cancelled False.elim : Worked False task a w (w.attemptTurn task a cancelled) c)
      exact inner put (.attempt a')
  | runner m =>
      cases m with
      | «over» e => exact h
      | pending p => exact Calls.runnerOver (h.of_work fun i => Shows.conclude_work w task p cancelled i) task _
      | fresh r =>
          cases cancelled with
          | true => exact h.runnerOver task _
          | false =>
              have begun := h.begin task r
              show (w.runnerTurn task (.fresh r) false).Calls P
              unfold runnerTurn
              simp only
              split <;> rename_i same <;> rw [same] at begun
              · exact begun.runnerOver task _
              · exact begun.put fun _ same => by cases same
  | caller k =>
      have left := h task k here
      obtain ⟨commands, mode, started⟩ := k
      cases mode with
      | «over» => exact h
      | ready => exact h.command commands left started
      | waiting => exact command commands left (w := w.reply .waited) h started
      | executing p =>
          have concluded : (w.conclude task p cancelled).2.Calls P :=
            h.of_work fun i => Shows.conclude_work w task p cancelled i
          exact command commands left (w := (w.conclude task p cancelled).2.reply _) concluded started
      | joining runner =>
          show (w.callerTurn task ⟨commands, .joining runner, started⟩ cancelled).Calls P
          unfold callerTurn
          simp only
          split
          · exact command commands left (w := w.reply _) h started
          · exact h.command commands left started

theorem step (h : w.Calls P) {c : Course} (shown : Shows none w c) (step : w.step = some w') :
    w'.Calls P := by
  rcases shown.step_works step with quiet | ⟨w₁, task, x, cancelled, quiet, shown, here, rfl⟩
  · exact h.quiet quiet
  · exact (h.quiet quiet).works shown here cancelled

end Calls

/-- What holds of all commands of a caller holds of those that it still has to do. -/
theorem Leads.calls {s : Session} {commands : List (Command α)} (stored : 0 < s.stores.size)
    (proper : ∀ x ∈ commands, x.Proper) (all : ∀ x ∈ commands, P x)
    (steps : (ofCommands s commands).Leads w) : w.Calls P := by
  induction steps with
  | refl =>
      intro i c here
      cases i with
      | zero =>
          cases here
          exact all
      | succ i => cases here
  | tail steps step ih =>
      obtain ⟨_, _, shown⟩ := (ofCommands_shows stored proper).leads steps
      exact ih.step shown step

end World

end BlockGraph
