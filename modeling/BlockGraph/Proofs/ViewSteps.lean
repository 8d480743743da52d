import BlockGraph.Proofs.Calls
import BlockGraph.Proofs.ViewWorld
/-!
Steps of a world under a view. While a run is under way, whatever its caller does and whatever else is
begun beside it, each step of the world comes to what it comes to without the view.
-/
namespace BlockGraph
namespace View

variable {α : Type} {v : View} {hush : (Session → α × Session) → Session → α × Session}

/-- Whether a command is done under a view as it is without it, and leaves the run to the run. -/
def Hushes (v : View) (hush : (Session → α × Session) → Session → α × Session) : Command α → Prop
  | .act f => (∀ s, v.Clear s (f s).2 → hush f (v.session s) = ((f s).1, v.session (f s).2)) ∧
    ∀ s, Deeds s (hush f s).2
  | _ => True

section Callers

variable {w : World α} {i : Nat}

theorem world_refuse {r : Request} {options : Options} {f : RunFault}
    (clear : v.Clear w.session (w.refuse r options f).2.session) :
    (v.world hush w).refuse (v.request r) options f =
      (v.execution (w.refuse r options f).1, v.world hush (w.refuse r options f).2) := by
  have told : Session.tell 2 (v.session w.session) options (v.listener r.listener) (.error f) = _ :=
    tell 2 w.session options r.listener (.error f) clear
  show ((⟨.failed f, Session.tell 2 (v.session w.session) options (v.listener r.listener) (.error f), 0,
    r.listener.number⟩ : Execution), (v.world hush w).withSession
      (Session.tell 2 (v.session w.session) options (v.listener r.listener) (.error f))) = _
  rw [told]
  rfl

/-- Beginning an execution while a run is under way. -/
theorem world_begin (running : w.session.running = true) (r : Request)
    (clear : v.Clear w.session (w.begin i r).2.session) :
    (v.world hush w).begin i (v.request r) =
      ((w.begin i r).1.map v.execution id, v.world hush (w.begin i r).2) := by
  have running' : (v.world hush w).session.running = true := running
  have asked : (v.request r).options = r.options := rfl
  unfold World.begin at clear ⊢
  rw [asked]
  cases options : r.options with
  | error f => rfl
  | ok options =>
      simp only [options, running, running', if_true] at clear ⊢
      rw [world_refuse clear]
      rfl

theorem world_runnerOver (w : World α) (i : Nat) (e : Execution) :
    World.runnerOver i (v.execution e, v.world hush w) = v.world hush (World.runnerOver i (e, w)) := by
  have put := world_withWork v hush w i (.runner (.over e))
  exact (congrArg (World.finish · i) put).trans (world_finish v hush _ i)

/-- A turn of an execution beside its caller that comes to nothing. -/
theorem world_runnerTurn (running : w.session.running = true) {m : RunnerMode}
    (free : (Work.runner m : Work α).pending? = none) (cancelled : Bool)
    (clear : v.Clear w.session (w.runnerTurn i m cancelled).session) :
    (v.world hush w).runnerTurn i (v.runner m) cancelled = v.world hush (w.runnerTurn i m cancelled) := by
  cases m with
  | «over» e => rfl
  | pending p => cases free
  | fresh r =>
      cases cancelled with
      | true => exact world_runnerOver w i ⟨.cancelled, w.session, 0, r.listener.number⟩
      | false =>
          obtain ⟨e, w', begun, _⟩ := w.begin_running i r running
          have same := @world_begin α v hush w i running r
          unfold World.runnerTurn at clear ⊢
          simp only [runner, begun] at same clear ⊢
          rw [(w'.runnerOver_quiet i e).session] at clear
          rw [same clear]
          exact world_runnerOver w' i e

/-! ### Commands -/

theorem world_caller (w : World α) (i : Nat) (c : Caller α) :
    (v.world hush w).withWork i (.caller (v.caller hush c)) = v.world hush (w.withWork i (.caller c)) :=
  world_withWork v hush w i (.caller c)

/-- What a caller does while a run is under way. -/
theorem world_command (commands : List (Command α)) (proper : ∀ x ∈ commands, x.Proper)
    (hushes : ∀ x ∈ commands, v.Hushes hush x) (w : World α) (started : List Nat)
    (running : w.session.running = true)
    (clear : v.Clear w.session (w.command i started commands).session) :
    (v.world hush w).command i started (commands.map (v.command hush)) =
      v.world hush (w.command i started commands) := by
  induction commands generalizing w started with
  | nil =>
      have put := @world_caller α v hush w i ⟨[], .over, started⟩
      exact (congrArg (World.finish · i) put).trans (world_finish v hush _ i)
  | cons x rest ih =>
      have others : ∀ x ∈ rest, x.Proper := fun x member => proper x (List.mem_cons_of_mem _ member)
      have ih := ih others fun x member => hushes x (List.mem_cons_of_mem _ member)
      -- What is done first lasts, and the rest of the commands is done after it.
      have next : ∀ (w₁ : World α) started₁, Deeds w.session w₁.session →
          v.Clear w.session (w₁.command i started₁ rest).session →
          v.Clear w.session w₁.session ∧ (v.world hush w₁).command i started₁ (rest.map (v.command hush)) =
            v.world hush (w₁.command i started₁ rest) := by
        intro w₁ started₁ deeds clear
        have running₁ := deeds.runsOn.running.trans running
        have after := (World.command_running rest others w₁ i started₁ running₁).lasts
        exact ⟨clear.first deeds.lasts after, ih w₁ started₁ running₁ (clear.rest deeds.lasts)⟩
      cases x with
      | act f =>
          have acted : Deeds w.session (f w.session).2 := proper (.act f) List.mem_cons_self w.session
          have told := world_reply v hush (w.withSession (f w.session).2) (.acted (f w.session).1)
          obtain ⟨before, same⟩ := next
            ((w.withSession (f w.session).2).reply (.acted (f w.session).1)) started acted clear
          have hushed : hush f (v.session w.session) = _ := (hushes (.act f) List.mem_cons_self).1 w.session before
          show World.command (((v.world hush w).withSession (hush f (v.session w.session)).2).reply
            (.acted (hush f (v.session w.session)).1)) i started _ = _
          rw [hushed]
          exact (congrArg (World.command · i started _) told).trans same
      | wait length =>
          have put := @world_caller α v hush w i ⟨rest, .waiting, started⟩
          exact (congrArg (World.sleep · i length) put).trans (world_sleep v hush _ i length)
      | execute r =>
          obtain ⟨e, w', begun, deeds⟩ := w.begin_running i r running
          have told := world_reply v hush w' (.executed e)
          unfold World.command at clear ⊢
          simp only [begun] at clear
          obtain ⟨before, same⟩ := next (w'.reply (.executed e)) started deeds clear
          have began := @world_begin α v hush w i running r (begun ▸ before)
          rw [begun] at began
          simp only [List.map_cons, command]
          rw [began]
          simp only [begun]
          exact (congrArg (World.command · i started _) told).trans same
      | start r =>
          have spawned := world_spawn v hush w (.runner (.fresh r)) []
          obtain ⟨_, same⟩ := next (w.spawn (.runner (.fresh r)) []).2
            ((w.spawn (.runner (.fresh r)) []).1 :: started) .refl clear
          show World.command ((v.world hush w).spawn (v.work hush (.runner (.fresh r))) []).2 i
            (((v.world hush w).spawn (v.work hush (.runner (.fresh r))) []).1 :: started) _ = _
          rw [spawned]
          exact same
      | cancel =>
          cases started with
          | nil => exact (next w [] .refl clear).2
          | cons runner older =>
              have still : Deeds w.session (w.cancel runner).session :=
                (w.cancel_quiet runner).session.symm ▸ .refl
              show World.command ((v.world hush w).cancel runner) i (runner :: older) _ = _
              rw [world_cancel]
              exact (next (w.cancel runner) (runner :: older) still clear).2
      | join =>
          cases started with
          | nil => exact (next w [] .refl clear).2
          | cons runner older =>
              unfold World.command at clear ⊢
              simp only [List.map_cons, command] at clear ⊢
              rw [world_execution?]
              cases ceased : w.execution? runner with
              | some e =>
                  simp only [ceased, Option.map_some] at clear ⊢
                  have told := world_reply v hush w (.executed e)
                  exact (congrArg (World.command · i older _) told).trans
                    (next (w.reply (.executed e)) older .refl clear).2
              | none =>
                  simp only [Option.map_none]
                  rw [world_park, world_watch]
                  exact world_caller ((w.park i).2.watch runner [.wake i]) i ⟨rest, .joining runner, older⟩

/-- A turn of a caller that waits for no execution. -/
theorem world_callerTurn {c : Caller α} (free : (Work.caller c).pending? = none)
    (proper : ∀ x ∈ c.commands, x.Proper) (hushes : ∀ x ∈ c.commands, v.Hushes hush x)
    (running : w.session.running = true) (cancelled : Bool)
    (clear : v.Clear w.session (w.callerTurn i c cancelled).session) :
    (v.world hush w).callerTurn i (v.caller hush c) cancelled =
      v.world hush (w.callerTurn i c cancelled) := by
  obtain ⟨commands, mode, started⟩ := c
  have does := world_command (i := i) commands proper hushes
  cases mode with
  | ready => exact does w started running clear
  | executing p => cases free
  | waiting =>
      have told := world_reply v hush w .waited
      exact (congrArg (World.command · i started _) told).trans (does (w.reply .waited) started running clear)
  | joining runner =>
      unfold World.callerTurn at clear ⊢
      simp only [caller] at clear ⊢
      rw [world_execution?]
      cases ceased : w.execution? runner with
      | some e =>
          simp only [ceased, Option.map_some] at clear ⊢
          have told := world_reply v hush w (.executed e)
          exact (congrArg (World.command · i started _) told).trans
            (does (w.reply (.executed e)) started running clear)
      | none =>
          simp only [ceased, Option.map_none] at clear ⊢
          exact does w started running clear
  | «over» => rfl

end Callers

/-! ### Steps -/

section Steps

variable {w w' : World α} {i : Nat} {c : Course}

/-- What a task does within a run. -/
theorem world_works (h : World.Shows none w c) {x : Work α} (here : w.work? i = some x)
    (hushed : w.Calls (v.Hushes hush)) (cancelled : Bool) (running : w.session.running = true)
    (free : x.pending? = none) (clear : v.Clear w.session (w.works i x cancelled).session) :
    (v.world hush w).works i (v.work hush x) cancelled = v.world hush (w.works i x cancelled) := by
  cases x with
  | caller k => exact world_callerTurn free (h.proper i _ here) (hushed i k here) running cancelled clear
  | runner m => exact world_runnerTurn running free cancelled clear
  | attempt a => exact world_attemptTurn here (h.session ▸ h.known i a here) cancelled clear
  | walk k =>
      refine world_walkTurn here (fun st shown => ?_) cancelled clear
      by_cases walk : w.walk? = some i
      · rw [h.came walk here] at shown
        cases shown
        exact h.session ▸ h.sound.2
      · obtain ⟨e, ceased⟩ := h.walks i k here (.inl walk)
        obtain ⟨t, mode⟩ := k
        cases ceased
        cases shown
        exact Stage.over_sound e _

theorem world_atTurn (w : World α) (i : Nat) :
    (v.world hush w).atTurn i = v.world hush (w.atTurn i) :=
  world_change w i fun _ => rfl

theorem world_release (w : World α) (task ticket : Nat) :
    (v.world hush w).due (.release task ticket) = v.world hush (w.due (.release task ticket)) := by
  unfold World.due
  simp only
  rw [world_task]
  cases w.tasks[task]? with
  | none => rfl
  | some t =>
      have released : ((v.world hush w).stand task .released).later (.turn task) =
          v.world hush ((w.stand task .released).later (.turn task)) := by rw [world_stand, world_later]
      show (if t.standing = .parked ticket then _ else _) = _
      simp only
      split
      · exact released
      · rfl

theorem world_idles (w : World α) : (v.world hush w).idles = w.idles.map (v.world hush) := by
  have «over» : (v.world hush w).callerOver = w.callerOver := world_isOver v hush w 0
  have last := world_nextRound v hush { w with phase := .lastRound }
  have cancelled : some { (v.world hush w).cancelAll with phase := .draining } =
      (some { w.cancelAll with phase := .draining }).map (v.world hush) := by
    rw [world_cancelAll]
    rfl
  have phase : (v.world hush w).phase = w.phase := rfl
  unfold World.idles
  rw [«over», phase]
  cases w.phase with
  | live =>
      cases w.callerOver with
      | false => exact world_nextRound v hush w
      | true =>
          show some ((if w.next.isEmpty then none
            else (v.world hush { w with phase := .lastRound }).nextRound).getD
              (v.world hush { w with phase := .lastRound })) = _
          rw [last]
          simp only [Option.map_some]
          cases w.next.isEmpty with
          | true => rfl
          | false => cases World.nextRound { w with phase := .lastRound } <;> rfl
  | lastRound => exact cancelled
  | draining => exact world_nextRound v hush w

/-- Under a view, a step of a world is the same quiet one, or gives the same task its turn. -/
theorem world_step (step : w.step = some w') :
    (World.Quiet w w' ∧ (v.world hush w).step = some (v.world hush w')) ∨
      ∃ w₁ task, World.Quiet w w₁ ∧ w' = w₁.turn task ∧
        (v.world hush w).step = some ((v.world hush w₁).turn task) := by
  cases busy : w.busy? with
  | some task =>
      rw [w.step_busy busy] at step
      exact .inr ⟨{ w with busy? := none }, task, { World.Quiet.refl w with }, (Option.some.inj step).symm,
        (v.world hush w).step_busy busy⟩
  | none =>
      cases round : w.round with
      | nil =>
          have under := (v.world hush w).step_idles busy round
          rw [w.step_idles busy round] at step
          rw [world_idles, step] at under
          exact .inl ⟨World.idles_quiet step, under⟩
      | cons d rest =>
          have quiet : World.Quiet w { w with round := rest } := { World.Quiet.refl w with }
          have under := (v.world hush w).step_due busy round
          rw [w.step_due busy round] at step
          cases d with
          | turn task => exact .inr ⟨_, task, quiet, (Option.some.inj step).symm, under⟩
          | release task ticket =>
              have same := @world_release α v hush { w with round := rest } task ticket
              rw [← Option.some.inj step]
              exact .inl ⟨quiet.trans (World.release_quiet _ task ticket), under.trans (congrArg some same)⟩

/-- Under a view, a step of a world is the same quiet one, or the same task does something in its turn. -/
theorem world_step_works (h : World.Shows none w c) (hushed : w.Calls (v.Hushes hush))
    (step : w.step = some w') :
    (World.Quiet w w' ∧ (v.world hush w).step = some (v.world hush w')) ∨
      ∃ w₁ task x cancelled, World.Quiet w w₁ ∧ World.Shows none w₁ c ∧ w₁.Calls (v.Hushes hush) ∧
        w₁.work? task = some x ∧ w' = w₁.works task x cancelled ∧
        (v.world hush w).step = some ((v.world hush w₁).works task (v.work hush x) cancelled) := by
  rcases @world_step α v hush w w' step with same | ⟨w₁, task, quiet, rfl, under⟩
  · exact .inl same
  · cases found : w₁.tasks[task]? with
    | none =>
        have still : ∀ w : World α, w.tasks[task]? = none → w.turn task = w := fun w none => by
          unfold World.turn
          simp only [none]
        have none : (v.world hush w₁).tasks[task]? = none := by rw [world_task, found]; rfl
        rw [still _ none] at under
        rw [still _ found]
        exact .inl ⟨quiet, under⟩
    | some t =>
        have turning := w₁.atTurn_quiet task
        have here : w₁.work? task = some t.work := by rw [World.work?, found]; rfl
        have under' : (v.world hush w₁).tasks[task]? = some (v.task hush t) := by rw [world_task, found]; rfl
        rw [World.turn_eq under', world_atTurn] at under
        exact .inr ⟨w₁.atTurn task, task, t.work, _, quiet.trans turning, (h.quiet quiet).quiet turning,
          (hushed.quiet quiet).quiet turning, (turning.work task).trans here, World.turn_eq found, under⟩

end Steps

end View

end BlockGraph
