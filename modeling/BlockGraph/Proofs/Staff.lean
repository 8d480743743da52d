import BlockGraph.Proofs.Admission
import BlockGraph.Proofs.Patience
/-!
Staff. A caller joins only executions that it has started beside it, and these stay executions until they are over. So
no caller ever waits for a traversal, or for block logic, itself.
-/
namespace BlockGraph

variable {α : Type}

/-- The executions that a caller has started beside it, with the one that it has joined. -/
def Caller.staff (k : Caller α) : List Nat := (Work.caller k).joins?.toList ++ k.started

namespace World

variable {w w₁ w' : World α} {task i : Nat} {k : Caller α} {c : Course} {tasks started : List Nat}

/-- Whether tasks are executions beside their caller. -/
def Runs (w : World α) (tasks : List Nat) : Prop := ∀ i ∈ tasks, ∃ m, w.work? i = some (.runner m)

/-- Whether what a caller has started are executions. -/
def Staffed (w : World α) (task : Nat) : Prop := ∀ k, w.work? task = some (.caller k) → w.Runs k.staff

theorem Runs.of_work (h : w.Runs tasks)
    (kept : ∀ i m, w.work? i = some (.runner m) → ∃ m', w'.work? i = some (.runner m')) : w'.Runs tasks :=
  fun i member => (h i member).elim (kept i)

theorem Runs.quiet (h : w.Runs tasks) (work : ∀ i, w'.work? i = w.work? i) : w'.Runs tasks :=
  h.of_work fun i m here => ⟨m, (work i).trans here⟩

theorem Staffed.quiet (h : w.Staffed task) (work : ∀ i, w'.work? i = w.work? i) : w'.Staffed task :=
  fun k here => (h k ((work task).symm.trans here)).quiet work

/-! ### The caller -/

/-- A caller that comes to wait, or is over. -/
theorem Runs.put {k' : Caller α} (h : w.Runs k.staff) (there : w.work? task = some (.caller k')) :
    (w.withWork task (.caller k)).Staffed task := by
  intro k'' here
  rw [withWork_work, if_pos rfl, there] at here
  cases here
  refine h.of_work fun i m found => ⟨m, ?_⟩
  rw [withWork_work, if_neg fun same => ?_, found]
  subst same
  cases there.symm.trans found

theorem Admitted.kept {r : Request} {p : Pending} (h : w.Admitted r p w') {x : Work α} (here : w.work? i = some x) :
    w'.work? i = some x := by
  rw [h.work, if_neg fun same => ?_, here]
  rw [same, work_size] at here
  cases here

theorem command_staffed (commands : List (Command α)) (there : w.work? task = some (.caller k))
    (runs : w.Runs started) : (w.command task started commands).Staffed task := by
  induction commands generalizing w started with
  | nil =>
      have put : (w.withWork task (.caller ⟨[], .over, started⟩)).Staffed task := Runs.put runs there
      exact put.quiet fun i => finish_work _ task i
  | cons x rest ih =>
      cases x with
      | act f => exact ih (w := (w.withSession (f w.session).2).reply _) there runs
      | wait length =>
          have put : (w.withWork task (.caller ⟨rest, .waiting, started⟩)).Staffed task := Runs.put runs there
          exact put.quiet (sleep_quiet _ task length).work
      | execute r =>
          unfold World.command
          rcases w.begin_cases task r with ⟨e, s, begun, _⟩ | ⟨p, w', begun, admitted⟩
          · simp only [begun]
            exact ih (w := (w.withSession s).reply _) there runs
          · simp only [begun]
            have runs : w'.Runs started := runs.of_work fun i m here => ⟨m, admitted.kept here⟩
            exact Runs.put runs (admitted.kept there)
      | start r =>
          refine ih (w := (w.spawn (.runner (.fresh r)) []).2) (spawn_kept there _ _) fun i member => ?_
          rcases List.mem_cons.mp member with rfl | old
          · exact ⟨_, (w.spawn_work _ _ _).trans (if_pos rfl)⟩
          · exact (runs i old).imp fun m here => spawn_kept here _ _
      | cancel =>
          cases started with
          | nil => exact ih there runs
          | cons runner older =>
              have work := (w.cancel_quiet runner).work
              exact ih (w := w.cancel runner) ((work task).trans there) (runs.quiet work)
      | join =>
          cases started with
          | nil => exact ih there runs
          | cons runner older =>
              have others : w.Runs older := fun i member => runs i (List.mem_cons_of_mem _ member)
              cases ceased : w.execution? runner with
              | some e =>
                  simp only [World.command, ceased]
                  exact ih (w := w.reply _) there others
              | none =>
                  simp only [World.command, ceased]
                  have work := ((w.park_quiet task).trans (watch_quiet _ runner [.wake task])).work
                  exact Runs.put (runs.quiet work) ((work task).trans there)

/-- A caller joins what it has started. -/
theorem callerTurn_staffed (h : w.Staffed task) (there : w.work? task = some (.caller k)) (cancelled : Bool) :
    (w.callerTurn task k cancelled).Staffed task := by
  have runs : w.Runs k.started := fun i member => h k there i (List.mem_append_right _ member)
  obtain ⟨commands, mode, started⟩ := k
  cases mode with
  | «over» => exact h
  | ready => exact command_staffed commands there runs
  | waiting => exact command_staffed (w := w.reply _) commands there runs
  | executing p =>
      have work := Shows.conclude_work w task p cancelled
      exact command_staffed (w := (w.conclude task p cancelled).2.reply _) commands ((work task).trans there)
        (runs.quiet work)
  | joining runner =>
      unfold World.callerTurn
      simp only
      split
      · exact command_staffed (w := w.reply _) commands there runs
      · exact command_staffed commands there runs

/-! ### Executions beside it -/

/-- An execution is one after its turn. -/
theorem runnerTurn_runs {m : RunnerMode} (there : w.work? task = some (.runner m)) (cancelled : Bool) :
    ∃ m', (w.runnerTurn task m cancelled).work? task = some (.runner m') := by
  have ends : ∀ (e : Execution) {w₁ : World α}, w₁.work? task = some (.runner m) →
      ∃ m', (runnerOver task (e, w₁)).work? task = some (.runner m') := fun e w₁ there =>
    ⟨.over e, by rw [runnerOver, finish_work, withWork_work, if_pos rfl, there]; rfl⟩
  cases m with
  | «over» e => exact ⟨_, there⟩
  | pending p => exact ends _ ((Shows.conclude_work w task p cancelled task).trans there)
  | fresh r =>
      cases cancelled with
      | true => exact ends _ there
      | false =>
          unfold World.runnerTurn
          simp only
          rcases w.begin_cases task r with ⟨e, s, begun, _⟩ | ⟨p, w', begun, admitted⟩
          · simp only [begun]
            exact ends e there
          · simp only [begun]
            exact ⟨.pending p, by rw [withWork_work, if_pos rfl, admitted.kept there]; rfl⟩

/-! ### Steps -/

/-- A step leaves what a caller has started executions. -/
theorem Staffed.step (h : w.Staffed 0) (scheduled : w.Scheduled) (shown : Shows none w c) (step : w.step = some w') :
    w'.Staffed 0 := by
  cases steps_of_step step with
  | @release task ticket rest =>
      exact h.quiet (release_quiet { w with round := rest } task ticket).work
  | idle _ idles => exact h.quiet (idles_quiet idles).work
  | @turn task w₁ leaves =>
      obtain ⟨x, here, works⟩ := leaves.turn_eq scheduled
      have quiet := leaves.quiet.trans (w₁.atTurn_quiet task)
      have staffed := h.quiet quiet.work
      have there := (quiet.work task).trans here
      have own := (leaves.turned scheduled shown).own (scheduled.atTurn leaves)
      have placed := scheduled.placed task x here
      rw [works] at own ⊢
      by_cases first : task = 0
      · subst first
        cases x with
        | caller k => exact callerTurn_staffed staffed there _
        | _ => exact absurd rfl placed.1
      · intro k found
        have stays : ∀ i y, (w₁.atTurn task).work? i = some y → i ≠ task →
            ((w₁.atTurn task).works task x (w.called task)).work? i = some y := fun i y old other => by
          rcases own.work i other with same | ⟨none, _⟩
          · exact same.trans old
          · cases none.symm.trans old
        obtain ⟨y, old⟩ : ∃ y, (w₁.atTurn task).work? 0 = some y := by
          have inside := (scheduled.atTurn leaves).scheduled.inhabited
          exact ⟨_, congrArg (Option.map Task.work) (Array.getElem?_eq_getElem inside)⟩
        cases (stays 0 y old (Ne.symm first)).symm.trans found
        refine (staffed k old).of_work fun i m runs => ?_
        by_cases own : i = task
        · subst own
          cases there.symm.trans runs
          exact runnerTurn_runs there _
        · exact ⟨m, stays i _ runs own⟩

theorem Leads.staffed {s : Session} {commands : List (Command α)} (steps : (ofCommands s commands).Leads w)
    (stored : 0 < s.stores.size) (proper : ∀ x ∈ commands, x.Proper) : w.Staffed 0 := by
  induction steps with
  | refl =>
      intro k here
      cases here
      exact nofun
  | tail steps step ih =>
      obtain ⟨c, _, shown⟩ := (ofCommands_shows stored proper).leads steps
      exact ih.step (Leads.scheduled steps stored proper) shown step

/-- A caller has joined none but an execution. -/
theorem Staffed.joins (h : w.Staffed 0) (scheduled : w.Scheduled) {x : Work α} (here : w.work? task = some x)
    (joins : x.joins? = some i) : ∃ m, w.work? i = some (.runner m) := by
  cases x with
  | caller k =>
      obtain ⟨⟨rfl, _⟩, _⟩ := scheduled.placed task _ here
      exact h k here i (List.mem_append_left _ (Option.mem_toList.mpr joins))
  | _ => cases joins

end World
end BlockGraph
