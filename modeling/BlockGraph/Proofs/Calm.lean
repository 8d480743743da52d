import BlockGraph.Proofs.Alone
import BlockGraph.Proofs.Order
/-!
Runs that are not disturbed: nobody cancels a task, and no logic is given up. Whatever callers and
listeners do beside such a run, the logic in it stays intact, and its traversal goes by itself from stage
to stage.
-/
namespace BlockGraph
namespace World

variable {α : Type} {w w₁ w' : World α} {task : Nat} {c c₁ : Course}

/-- Whether the traversals and the logic at work in a world are those at work in another. -/
structure Beside (w w' : World α) : Prop where
  walk? : w'.walk? = w.walk?
  inner : ∀ i x, x.Inner → (w'.work? i = some x ↔ w.work? i = some x)

namespace Beside

theorem refl (w : World α) : Beside w w := ⟨rfl, fun _ _ _ => .rfl⟩

theorem trans (h : Beside w w₁) (h' : Beside w₁ w') : Beside w w' :=
  ⟨h'.walk?.trans h.walk?, fun i x inner => (h'.inner i x inner).trans (h.inner i x inner)⟩

theorem quiet (q : Quiet w w') : Beside w w' := ⟨q.walk?, fun i x _ => by rw [q.work]⟩

theorem atStage (h : Beside w w') {st : Stage} (at_ : w.AtStage st) : w'.AtStage st :=
  at_.of_work h.walk? fun i x inner old => (h.inner i x inner).mpr old

/-- A task that is not at work in a run comes to work at something else that is not. -/
theorem put (there : ∀ y, w.work? task = some y → ¬y.Inner) {x : Work α} (outer : ¬x.Inner) :
    Beside w (w.withWork task x) := by
  refine ⟨rfl, fun i y inner => ?_⟩
  rw [withWork_work]
  split
  · rename_i same
    subst same
    refine ⟨fun new => ?_, fun old => absurd inner (there y old)⟩
    obtain ⟨_, _, rfl⟩ := Option.map_eq_some_iff.mp new
    exact absurd inner outer
  · exact .rfl

theorem spawn (w : World α) {x : Work α} (outer : ¬x.Inner) (watchers : List Watcher) :
    Beside w (w.spawn x watchers).2 := by
  refine ⟨rfl, fun i y inner => ⟨fun new => ?_, fun old => spawn_kept old x watchers⟩⟩
  rcases spawn_old new with ⟨_, rfl⟩ | old
  · exact absurd inner outer
  · exact old

/-- A task that is not at work in a run is not so afterwards. -/
theorem outer (h : Beside w w') (there : ∀ y, w.work? task = some y → ¬y.Inner) :
    ∀ y, w'.work? task = some y → ¬y.Inner :=
  fun y here inner => there y ((h.inner task y inner).mp here) inner

/-- An execution that is asked for while a run is under way comes to nothing. -/
theorem begin (w : World α) (task : Nat) (r : Request) (running : w.session.running = true) :
    Beside w (w.begin task r).2 := by
  unfold World.begin
  cases r.options with
  | error f => exact .refl w
  | ok options =>
      simp only [running, if_true]
      exact ⟨rfl, fun _ _ _ => .rfl⟩

/-- What a caller does while a run is under way is done beside it. -/
theorem command (commands : List (Command α)) (proper : ∀ x ∈ commands, x.Proper) (w : World α)
    (started : List Nat) (running : w.session.running = true)
    (there : ∀ y, w.work? task = some y → ¬y.Inner) : Beside w (w.command task started commands) := by
  induction commands generalizing w started with
  | nil => exact (put there (Work.caller_outer _)).trans (quiet (w.commandNil_quiet task started))
  | cons x rest ih =>
      have next : ∀ (w₁ : World α) started₁, Beside w w₁ → w₁.session.running = true →
          Beside w (w₁.command task started₁ rest) := by
        intro w₁ started₁ first running
        have others : ∀ x ∈ rest, x.Proper := fun x member => proper x (List.mem_cons_of_mem _ member)
        exact first.trans (ih others w₁ started₁ running (first.outer there))
      have waits : ∀ mode started, Beside w (w.withWork task (.caller ⟨rest, mode, started⟩)) :=
        fun _ _ => put there (Work.caller_outer _)
      cases x with
      | act f =>
          have acted : Deeds w.session (f w.session).2 := proper (.act f) List.mem_cons_self w.session
          exact next ((w.withSession _).reply _) started ⟨rfl, fun _ _ _ => .rfl⟩
            (acted.runsOn.running.trans running)
      | wait length => exact (waits .waiting started).trans (quiet (sleep_quiet _ _ _))
      | execute r =>
          obtain ⟨e, w', begun, deeds⟩ := w.begin_running task r running
          have beside := begin w task r running
          rw [begun] at beside
          unfold World.command
          simp only [begun]
          exact next (w'.reply _) started (beside.trans ⟨rfl, fun _ _ _ => .rfl⟩)
            (deeds.runsOn.running.trans running)
      | start r => exact next _ _ (spawn w (Work.runner_outer _) []) running
      | cancel =>
          cases started with
          | nil => exact next w [] (.refl w) running
          | cons runner older =>
              have cancelled := w.cancel_quiet runner
              exact next _ (runner :: older) (quiet cancelled) (cancelled.session.symm ▸ running)
      | join =>
          cases started with
          | nil => exact next w [] (.refl w) running
          | cons runner older =>
              cases ceased : w.execution? runner with
              | some e =>
                  simp only [World.command, ceased]
                  exact next (w.reply _) older ⟨rfl, fun _ _ _ => .rfl⟩ running
              | none =>
                  have watches := quiet ((w.park_quiet task).trans (watch_quiet _ runner [.wake task]))
                  simp only [World.command, ceased]
                  exact watches.trans (put (watches.outer there) (Work.caller_outer _))

theorem runnerOver (there : ∀ y, w.work? task = some y → ¬y.Inner) (e : Execution) :
    Beside w (World.runnerOver task (e, w)) :=
  (put there (Work.runner_outer _)).trans (quiet (w.runnerOver_quiet task e))

end Beside

/-- A task that waits for no execution, and is not at work in the run under way, works beside it. -/
theorem Shows.beside (h : Shows none w c) {x : Work α} (here : w.work? task = some x) (outer : ¬x.Inner)
    (cancelled : Bool) (running : w.session.running = true) (free : x.pending? = none) :
    Beside w (w.works task x cancelled) := by
  have there : ∀ y, w.work? task = some y → ¬y.Inner := fun y same =>
    Option.some.inj (here.symm.trans same) ▸ outer
  cases x with
  | walk k => exact absurd (.walk k) outer
  | attempt a => exact absurd (.attempt a) outer
  | runner m =>
      cases m with
      | «over» e => exact .refl w
      | pending p => cases free
      | fresh r =>
          cases cancelled with
          | true => exact .runnerOver there _
          | false =>
              obtain ⟨e, w', begun, _⟩ := w.begin_running task r running
              have beside := Beside.begin w task r running
              show Beside w (w.runnerTurn task (.fresh r) false)
              unfold World.runnerTurn
              simp only
              rw [begun] at beside ⊢
              exact beside.trans (.runnerOver (beside.outer there) e)
  | caller k =>
      have proper : ∀ x ∈ k.commands, x.Proper := h.proper task _ here
      have replied : ∀ r, Beside w (w.reply r) := fun _ => ⟨rfl, fun _ _ _ => .rfl⟩
      obtain ⟨commands, mode, started⟩ := k
      cases mode with
      | «over» => exact .refl w
      | ready => exact .command commands proper w started running there
      | waiting => exact (replied _).trans (.command commands proper _ started running there)
      | executing p => cases free
      | joining runner =>
          show Beside w (w.callerTurn task ⟨commands, .joining runner, started⟩ cancelled)
          unfold World.callerTurn
          simp only
          split
          · exact (replied _).trans (.command commands proper _ started running there)
          · exact .command commands proper w started running there

/-! ### Stages of runs that are not disturbed -/

/-- A world is at one stage. -/
theorem AtStage.unique {st st' : Stage} (h : w.AtStage st) (h' : w.AtStage st') : st = st' := by
  unfold AtStage at h h'
  split at h <;> rename_i walk
  · rw [walk] at h'
    exact h.trans h'.symm
  · rw [walk] at h'
    obtain ⟨k, here, shown⟩ := h
    obtain ⟨k', here', shown'⟩ := h'
    cases Option.some.inj (here.symm.trans here')
    exact Option.some.inj (shown.symm.trans shown')

/-- A step within a run that disturbs nothing. -/
structure CalmOn (w w' : World α) : Prop where
  step : w.StepsOn w'
  before : w.Undisturbed
  after : w'.Undisturbed

/-- Logic that nothing waits for leaves the stage as it is. -/
theorem AtStage.aside {st : Stage} (h : w.AtStage st) {a a' : Attempt} {s : Session}
    (here : w.work? task = some (.attempt a)) (put : Puts task (.attempt a') s w w')
    (alone : ¬w.Awaits task) : w'.AtStage st := by
  unfold AtStage at h ⊢
  rw [put.walk?]
  split <;> rename_i walk
  · rwa [walk] at h
  · rename_i i
    rw [walk] at h
    obtain ⟨k, at_, shown⟩ := h
    have other : i ≠ task := by
      rintro rfl
      rw [here] at at_
      cases at_
    refine ⟨k, put.still other at_, stageOf_of_attempts (fun j b waits old => ?_) shown⟩
    refine put.still (fun same => alone ⟨i, k, walk, at_, ?_⟩) old
    rw [waits, same]

/-- What a task does in its turn leaves intact logic intact, when nothing is given up and nobody cancelled
it. -/
theorem Shows.works_intact (h : Shows none w c) (intact : c.stage.Intact) {x : Work α}
    (here : w.work? task = some x) (running : w.session.running = true) (patient : w.Patient)
    (patient' : (w.works task x false).Patient) (free : x.pending? = none)
    (came : Shows none (w.works task x false) c₁) :
    ∃ c', Shows none (w.works task x false) c' ∧ c'.stage.Intact := by
  have goes : ∀ {c'}, Passes True c c' → c'.stage.Intact := fun passes =>
    ((Passes.leads passes .refl).explores intact).intact
  have stays : (w.works task x false).AtStage c.stage → c₁.stage.Intact := fun stage =>
    AtStage.unique stage came.stage ▸ intact
  have outside : ¬x.Inner → c₁.stage.Intact := fun outer =>
    stays ((h.beside here outer false running free).atStage h.stage)
  cases x with
  | caller k => exact ⟨c₁, came, outside (Work.caller_outer k)⟩
  | runner m => exact ⟨c₁, came, outside (Work.runner_outer m)⟩
  | walk k =>
      obtain ⟨c', _, advances, shown, _⟩ : Walked True task k w (w.walkTurn task k false) c :=
        h.walkTurn here false fun _ => ⟨rfl, patient, patient'⟩
      exact ⟨c', shown, goes advances.passes⟩
  | attempt a =>
      by_cases awaited : w.Awaits task ∨ ∃ y, a.mode = .over y
      · obtain ⟨c', _, passes, shown, _⟩ : Worked True task a w (w.attemptTurn task a false) c :=
          h.attemptTurn here false fun _ => ⟨rfl, awaited⟩
        exact ⟨c', shown, goes passes⟩
      · obtain ⟨_, _, _, _, put, _⟩ : Worked False task a w (w.attemptTurn task a false) c :=
          h.attemptTurn here false False.elim
        exact ⟨c₁, came, stays (h.stage.aside here put fun waits => awaited (.inl waits))⟩

/-- Intact logic is left intact by a step that disturbs nothing. -/
theorem CalmOn.intact (calm : w.CalmOn w') (h : Shows none w c) (intact : c.stage.Intact) :
    ∃ c', Shows none w' c' ∧ c'.stage.Intact := by
  obtain ⟨step, before, after⟩ := calm
  obtain ⟨c₁, _, came⟩ := h.step step.step
  rcases step_cases step.step with quiet | ⟨w₁, task, quiet, tasks, rfl⟩
  · exact ⟨c, h.quiet quiet, intact⟩
  cases found : w₁.tasks[task]? with
  | none =>
      have still : w₁.turn task = w₁ := by
        unfold World.turn
        simp only [found]
      rw [still]
      exact ⟨c, h.quiet quiet, intact⟩
  | some t =>
      obtain ⟨calm, standing⟩ := before.calm task t (tasks ▸ found)
      have calm : (t.cancelled || t.standing == .interrupted) = false := by
        rw [calm, Bool.false_or]
        exact beq_eq_false_iff_ne.mpr standing
      have turning := quiet.trans (w₁.atTurn_quiet task)
      have shown := h.quiet turning
      have here : (w₁.atTurn task).work? task = some t.work := by
        rw [(w₁.atTurn_quiet task).work, work?, found]
        rfl
      have running : (w₁.atTurn task).session.running = true := turning.session ▸ step.running
      have patient := after.patient
      have still := step.still
      have run := step.run
      rw [← turning.session] at run
      rw [turn_eq found, calm] at patient still run came ⊢
      exact shown.works_intact intact here running (turning.patient before.patient) patient
        (shown.unwaiting here false running still run) came

/-- Logic that is intact stays so for as long as nothing is disturbed. -/
theorem calmOn_intact (h : Shows none w c) (intact : c.stage.Intact)
    (calm : Relation.ReflTransGen CalmOn w w') : ∃ c', Shows none w' c' ∧ c'.stage.Intact := by
  induction calm with
  | refl => exact ⟨c, h, intact⟩
  | tail _ step ih =>
      obtain ⟨c₁, shown, intact⟩ := ih
      exact step.intact shown intact

end World

end BlockGraph
