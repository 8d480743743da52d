import BlockGraph.Proofs.Calm
import BlockGraph.Proofs.Drains
import BlockGraph.Proofs.Spared
/-!
Stops: from the moment a stop is asked for, a run starts no element and traverses no connection. What is
under way is drained, and the execution order is a prefix of what it comes to without the stop.
-/
namespace BlockGraph

/-- Elements of a run that has nothing under way are over. -/
theorem Session.Tidy.over {s : Session} (h : s.Tidy []) {id : String} (started : id ∈ s.processed) :
    .completed id ∈ s.history := by
  have perm := h.nested.perm
  rw [List.append_nil] at perm
  rw [← h.order, Session.starts, List.filterMap_reverse, List.mem_reverse, ← perm.mem_iff] at started
  obtain ⟨x, member, completes⟩ := List.mem_filterMap.mp started
  cases x with
  | completed other =>
      cases completes
      exact member
  | _ => cases completes

/-- What an execution leaves behind of a run that was asked to stop. -/
structure Execution.Halted (s : Session) (e : Execution) : Prop where
  halts : ∃ s', s.Halts s' ∧ s'.steps ≤ s.steps + 1 ∧ e.session = s'.closed
  budget : ∀ steps limit, e.outcome = .failed (.budget steps limit) →
    .failed (.budget steps limit) ∈ s.history
  /-- All elements under way were driven until they were over. -/
  driven : e.outcome = .finished → ∀ id ∈ s.processed, .completed id ∈ e.session.history

/-- Logic, listeners and callers as they are, but that they never ask for a stop. -/
def View.spared : View := ⟨true, #[]⟩

namespace World

variable {α : Type} {w w₁ w' : World α} {c : Course} {e : Execution}

/-- Whether the execution of a run ends with the next step of its world. -/
structure EndsIn (w : World α) (e : Execution) (w' : World α) : Prop where
  running : w.session.running = true
  step : w.step = some w'
  leaves : ¬w.StepsOn w'
  ended : w'.Ended e
  how : ∃ st s, w.AtStage st ∧ Concludes w.session st e.outcome s ∧ e.session = s.closed

/-- A step that leaves a run ends its execution. -/
theorem Shows.endsIn (h : Shows none w c) (running : w.session.running = true) (step : w.step = some w')
    (leaves : ¬w.StepsOn w') : ∃ e, w.EndsIn e w' := by
  have ends : ∀ {w₁ : World α}, Quiet w w₁ → GoesOnOrEnds w₁.session c.stage w' → ∃ e, w.EndsIn e w' := by
    rintro w₁ quiet (beats | ⟨e, ended, ⟨s, how, same⟩, _⟩)
    · obtain ⟨still, run⟩ := (quiet.session ▸ beats).sameRun running
      exact absurd ⟨running, step, still, run⟩ leaves
    · exact ⟨e, running, step, leaves, ended, c.stage, s, h.stage, quiet.session ▸ how, same⟩
  rcases h.step_works step with quiet | ⟨w₁, task, x, cancelled, quiet, shown, here, rfl⟩
  · exact ends quiet (.inl .refl)
  · have running₁ : w₁.session.running = true := quiet.session ▸ running
    have inside : x.pending? = none → ∃ e, w.EndsIn e (w₁.works task x cancelled) := fun free => by
      have grows := quiet.session ▸ shown.works_grows here cancelled running₁ free
      exact absurd ⟨running, step, grows.running.trans running, grows.run⟩ leaves
    cases x with
    | caller k => exact ends quiet (callerTurn_goesOnOrEnds shown here cancelled running₁)
    | runner m => exact ends quiet (runnerTurn_goesOnOrEnds shown here cancelled running₁)
    | walk k => exact inside rfl
    | attempt a => exact inside rfl

/-- A world whose session runs no more after the next step. -/
theorem Shows.endsIn_idle (h : Shows none w c) (running : w.session.running = true)
    (idle : w.step.map (·.session.running) = some false) : ∃ e w', w.EndsIn e w' := by
  obtain ⟨w', step, off⟩ := Option.map_eq_some_iff.mp idle
  obtain ⟨e, ends⟩ := h.endsIn running step fun on => by
    rw [on.still] at off
    cases off
  exact ⟨e, w', ends⟩

/-- An execution leaves the execution order as it was. -/
theorem EndsIn.order (ends : w.EndsIn e w') : e.session.processed = w.session.processed := by
  obtain ⟨_, s, _, how, same⟩ := ends.how
  rw [same]
  exact (how.kept ends.running).processed

section Run

variable {graph : Graph} {registry : Registry} {draws : List Double} {commands : List (Command α)}

/-- An execution that ends after a stop was asked for. -/
theorem EndsIn.halted (ends : w.EndsIn e w')
    (steps : (ofCommands (Session.ofGraph graph registry draws) commands).Leads w)
    (proper : ∀ x ∈ commands, x.Proper) {s : Session} (halts : s.Halts w.session)
    (once : w.session.steps ≤ s.steps + 1) : e.Halted s := by
  obtain ⟨c, shown, holds⟩ := World.Leads.shows ((lifecycle_law graph).and (budget_law graph)) proper steps
  obtain ⟨lifecycle, budgeted⟩ := holds.here (holds.started (shown.session ▸ ends.running))
  obtain ⟨st, s', stage, how, same⟩ := ends.how
  cases AtStage.unique stage shown.stage
  rw [← shown.session] at lifecycle budgeted
  have kept := how.kept ends.running
  have halts' := halts.trans (.kept halts.stopped kept)
  refine ⟨⟨s', halts', kept.steps ▸ once, same⟩, fun count limit failed => ?_, fun finished id started => ?_⟩
  · rw [failed] at how
    generalize c.stage = st at how budgeted
    cases how
    exact halts.budget (budgeted.raised count limit rfl)
  · rw [finished] at how
    generalize c.stage = st at how lifecycle
    cases how
    obtain ⟨_, underway, tidy, known⟩ := lifecycle
    obtain rfl := known [] rfl
    have history : e.session.history = w.session.history := by
      rw [same]
      exact kept.history
    rw [history]
    exact tidy.over (halts.order ▸ started)

/-- A run that is not disturbed goes on, after a stop, to drain what is under way. -/
theorem Leads.drains (steps : (ofCommands (Session.ofGraph graph registry draws) commands).Leads w)
    (proper : ∀ x ∈ commands, x.Proper) (running : w.session.running = true) (shown : Shows none w c)
    (intact : c.stage.Intact) (off : w.session.active = false) :
    (∃ how s v, Stage.Leads (c.stage, w.session) (.over how, s) ∧ how.visit? s = some v ∧
        c.stage.drained w.session = some v) ∨
      ∃ (f : Nat → Stage × Session) (id : String), f 0 = (c.stage, w.session) ∧
        (∀ n, (f n).1.next (f n).2 = some (f (n + 1))) ∧ ∀ n, ∃ m, n ≤ m ∧ (f m).1.Hands (f m).2 id := by
  obtain ⟨c', shown', holds⟩ := World.Leads.shows (lifecycle_law graph) proper steps
  have stage := AtStage.unique shown'.stage shown.stage
  have under : Stage.UnderWay graph (c.stage, w.session) := by
    rw [← stage, shown'.session]
    refine ⟨⟨holds.sound, holds.graph, holds.started, holds.here, fun e member => ?_⟩, shown'.session ▸ running⟩
    exact (List.not_mem_nil member).elim
  exact under.drains intact off

/-- No run adds to the execution order what the same run without its stops does not. -/
theorem spared_order {hush : (Session → α × Session) → Session → α × Session}
    (steps : (ofCommands (Session.ofGraph graph registry draws) commands).Leads w)
    (proper : ∀ x ∈ commands, x.Proper) (hushed : ∀ x ∈ commands, View.spared.Hushes hush x)
    (running : w.session.running = true) {w₁ w₂ w₁' w₂' : World α} {e e' : Execution} (on : w.LeadsOn w₁)
    (ends : w₁.EndsIn e w₁') (on' : (View.spared.world hush w).LeadsOn w₂) (ends' : w₂.EndsIn e' w₂') :
    e.session.processed <+: e'.session.processed := by
  have stored : 0 < (Session.ofGraph graph registry draws).stores.size := Nat.succ_pos 0
  obtain ⟨c, shown, _⟩ := Leads.settled steps proper running
  have shown' := View.shows (v := View.spared) shown (Leads.calls stored proper hushed steps)
  obtain ⟨w'', apart, order⟩ := View.leadsOn steps proper hushed running on
  have unique : Relator.RightUnique (StepsOn (α := α)) := fun _ _ _ step step' =>
    Option.some.inj (step.step.symm.trans step'.step)
  have ahead : w''.LeadsOn w₂ := by
    rcases Relation.ReflTransGen.total_of_right_unique unique apart on' with ahead | behind
    · exact ahead
    · rcases Relation.ReflTransGen.cases_head behind with same | ⟨w₃, step, _⟩
      · exact same ▸ .refl
      · cases Option.some.inj (ends'.step.symm.trans step.step)
        exact absurd step ends'.leaves
  obtain ⟨_, _, shown''⟩ := shown'.leads (LeadsOn.leads apart)
  rw [ends.order, ends'.order]
  exact order.trans (LeadsOn.grows ahead shown'').order

end Run

end World

/-- A run that is asked to stop, at whatever point that is, goes on without another element or connection,
counts at most one more visit, and does not run out of its budget. What is under way is driven to its end:
all of it is over when the execution finishes, and for as long as nothing is disturbed the traversal comes
to what draining it comes to, unless some logic hands over items forever. The execution order is a prefix
of what it comes to when the run goes on from there, and of what the same run comes to without stops. -/
theorem run_stops {α : Type} {graph : Graph} {registry : Registry} {draws : List Double}
    {commands : List (Command α)} {hush : (Session → α × Session) → Session → α × Session}
    (proper : ∀ x ∈ commands, x.Proper) (hushed : ∀ x ∈ commands, View.spared.Hushes hush x) {w : World α}
    (steps : (World.ofCommands (Session.ofGraph graph registry draws) commands).Leads w)
    (running : w.session.running = true) :
    (∀ w', w.step = some w' →
      w.StepsOn w' ∧ Beats w.session w'.session ∨ ∃ e, w.EndsIn e w') ∧
    (∀ w₁ s, w.LeadsOn w₁ → Beats w.session s → s.stopRequested = true → Beats s w₁.session →
      s.Halts w₁.session ∧ w₁.session.steps ≤ s.steps + 1 ∧ ∀ e w₁', w₁.EndsIn e w₁' → e.Halted s) ∧
    (∀ w₁ st, w.AtStage st → st.Intact → Relation.ReflTransGen World.CalmOn w w₁ →
      w₁.session.active = false → ∃ st₁, w₁.AtStage st₁ ∧
        ((∃ how s v, Stage.Leads (st₁, w₁.session) (.over how, s) ∧ how.visit? s = some v ∧
            st₁.drained w₁.session = some v) ∨
          ∃ (f : Nat → Stage × Session) (id : String), f 0 = (st₁, w₁.session) ∧
            (∀ n, (f n).1.next (f n).2 = some (f (n + 1))) ∧
            ∀ n, ∃ m, n ≤ m ∧ (f m).1.Hands (f m).2 id)) ∧
    (∀ s s', Beats w.session s → Beats s s' → s.processed <+: s'.processed) ∧
    (∀ w₁ w₁' w₂ w₂' e e', w.LeadsOn w₁ → w₁.EndsIn e w₁' → (View.spared.world hush w).LeadsOn w₂ →
      w₂.EndsIn e' w₂' → e.session.processed <+: e'.session.processed) := by
  obtain ⟨c, shown, settled⟩ := World.Leads.settled steps proper running
  refine ⟨fun w' step => ?_, fun w₁ s on before stopped after => ?_, fun w₁ st stage intact calm off => ?_,
    fun s s' before after => ?_, fun w₁ w₁' w₂ w₂' e e' on ends on' ends' => ?_⟩
  · by_cases goes : w.StepsOn w'
    · exact .inl ⟨goes, goes.beats shown settled⟩
    · exact .inr (shown.endsIn running step goes)
  · obtain ⟨halts, once⟩ := Beats.halts_once settled before after (before.sameRun running).1 stopped
    exact ⟨halts, once, fun e w₁' ends =>
      ends.halted (steps.trans (World.LeadsOn.leads on)) proper halts once⟩
  · cases World.AtStage.unique stage shown.stage
    have on : w.LeadsOn w₁ := Relation.ReflTransGen.mono (fun _ _ calm => calm.step) _ _ calm
    obtain ⟨c₁, shown₁, intact₁⟩ := World.calmOn_intact shown intact calm
    exact ⟨c₁.stage, shown₁.stage, World.Leads.drains (steps.trans (World.LeadsOn.leads on)) proper
      (World.LeadsOn.running on running) shown₁ intact₁ off⟩
  · exact (after.grows (before.sameRun running).1).order
  · exact World.spared_order steps proper hushed running on ends on' ends'

/-! ### A run that stops itself -/

/-- A block that asks for a stop, and then hands over a number. -/
def BlockDefinition.halting : BlockDefinition :=
  { BlockDefinition.one with logic := .script .stream [.stop, .emit (.text "output") (.int 1)] [] }

namespace World

/-- A world in which a run of two such elements is about to begin. -/
def halting : World Unit := ofCommands (.ofGraph .pair ⟨[("one", .halting)]⟩ []) [.execute .plain]

/-- Whether a world stays in a run for some steps. -/
def staysOn : Nat → World Unit → Bool
  | 0, _ => true
  | n + 1, w => match w.step with
    | none => false
    | some w' => w.session.running && w'.session.running && w'.session.run == w.session.run && staysOn n w'

theorem leadsOn_run {n : Nat} {w : World Unit} (h : staysOn n w = true) : w.LeadsOn (run n w) := by
  induction n generalizing w with
  | zero => exact .refl
  | succ n ih =>
      unfold staysOn at h
      unfold run
      cases step : w.step with
      | none => simp [step] at h
      | some w' =>
          simp only [step, Bool.and_eq_true, beq_iff_eq] at h
          obtain ⟨⟨⟨running, still⟩, run⟩, rest⟩ := h
          exact .head ⟨running, step, still, run⟩ (ih rest)

/-- The run goes on with the first element, and ends. -/
theorem halting_stays : staysOn 23 (run 1 halting) = true := by decide +kernel

theorem halting_order : (run 23 (run 1 halting)).session.processed = ["first"] ∧
    (run 23 (run 1 halting)).session.running = true ∧
    (run 23 (run 1 halting)).step.map (·.session.running) = some false := by decide +kernel

/-- Without the stop it comes to the second element too. -/
theorem spared_stays : staysOn 37 (View.spared.world id (run 1 halting)) = true := by decide +kernel

theorem spared_halting_order :
    (run 37 (View.spared.world id (run 1 halting))).session.processed = ["first", "second"] ∧
    (run 37 (View.spared.world id (run 1 halting))).session.running = true ∧
    (run 37 (View.spared.world id (run 1 halting))).step.map (·.session.running) = some false := by
  decide +kernel

end World

/-- The run that stops itself ends with the first element, and without the stop it goes on to the second. -/
theorem run_stops_halting : ∃ e e' w w', (World.run 23 (World.run 1 .halting)).EndsIn e w ∧
    (World.run 37 (View.spared.world id (World.run 1 .halting))).EndsIn e' w' ∧
    e.session.processed = ["first"] ∧ e'.session.processed = ["first", "second"] ∧
    e.session.processed <+: e'.session.processed := by
  have stored : 0 < (Session.ofGraph .pair ⟨[("one", .halting)]⟩ []).stores.size := Nat.succ_pos 0
  have hushed : ∀ x ∈ [Command.execute (α := Unit) .plain], View.spared.Hushes id x := by
    intro x member
    rw [List.mem_singleton.mp member]
    trivial
  have steps : World.halting.Leads (World.run 1 .halting) := World.leads_run 1 _
  have running : (World.run 1 .halting).session.running = true := by decide +kernel
  obtain ⟨order, still, idle⟩ := World.halting_order
  obtain ⟨order', still', idle'⟩ := World.spared_halting_order
  have on := World.leadsOn_run World.halting_stays
  have on' := World.leadsOn_run World.spared_stays
  obtain ⟨c, _, shown⟩ := (World.ofCommands_shows stored Request.plain_proper).leads steps
  obtain ⟨_, _, last⟩ := shown.leads (World.LeadsOn.leads on)
  have under := View.shows (v := View.spared) shown
    (World.Leads.calls stored Request.plain_proper hushed steps)
  obtain ⟨_, _, last'⟩ := under.leads (World.LeadsOn.leads on')
  obtain ⟨e, w, ends⟩ := last.endsIn_idle still idle
  obtain ⟨e', w', ends'⟩ := last'.endsIn_idle still' idle'
  obtain ⟨_, _, _, _, least⟩ := run_stops Request.plain_proper hushed steps running
  exact ⟨e, e', w, w', ends, ends', ends.order.trans order, ends'.order.trans order',
    least _ _ _ _ e e' on ends on' ends'⟩

end BlockGraph
