import BlockGraph.Proofs.Blames
import BlockGraph.Proofs.Overdue
import BlockGraph.Proofs.Starts
/-!
Logic that oversleeps. A run of civil logic loses patience with an element only when, from one time that its logic is
asked for something to the time that this hands something over, it sleeps as long as blocks may take. When it sleeps
longer the run fails at the latest when that time has passed, unless a task of the run is called before.
-/
namespace BlockGraph

theorem Span.Past.time {length : Span} {since now : Rat} (past : length.Past since now) (later : since ≤ now) :
    (since : WithTop ℚ) + length.time ≤ now := by
  cases length with
  | forever => exact past.elim
  | ms r =>
      have since_now : since + r ≤ now := past
      refine WithTop.coe_le_coe.mpr ?_
      rcases max_choice r 0 with same | same <;> rw [same]
      · exact since_now
      · exact (add_zero since).le.trans later

namespace World

variable {α : Type} {w w₀ w₁ w₂ w' : World α} {c c' : Course} {i j : Nat} {t : Traversal} {e : Element} {f : Fault}
  {g : RunFault} {frame : Frame} {outer : List Frame} {id : String} {limit : Double} {slept : WithTop ℚ}

/-! ### What logic is asked for -/

/-- Whether the traversal has just started or resumed the logic of its innermost element, and waits for what it hands
over next. -/
structure Resumes (w : World α) (i : Nat) (t : Traversal) (j : Nat) (e : Element) : Prop where
  awaits : w.AwaitsFor i t j
  fresh : ∃ a, w.work? j = some (.attempt a) ∧ a.mode = .fresh
  top : ∃ frame outer, t.stack = frame :: outer ∧ frame.element = e

/-- Any number of steps within a run in which the traversal goes on waiting for logic, and how long that wants to sleep
in them. -/
inductive Sleeps (i : Nat) (t : Traversal) (j : Nat) (w : World α) : WithTop ℚ → World α → Prop
  | rest : Sleeps i t j w 0 w
  | step {slept : WithTop ℚ} {w₁ w₂ : World α} :
      Sleeps i t j w slept w₁ → w₁.StepsOn w₂ → w₂.AwaitsFor i t j → Sleeps i t j w (slept + w₁.nap j) w₂

theorem Sleeps.leadsOn (sleeps : Sleeps i t j w slept w') : w.LeadsOn w' := by
  induction sleeps with
  | rest => exact .refl
  | step _ on _ ih => exact ih.tail on

theorem Sleeps.awaits (sleeps : Sleeps i t j w slept w') (awaits : w.AwaitsFor i t j) : w'.AwaitsFor i t j := by
  cases sleeps with
  | rest => exact awaits
  | step _ _ awaits => exact awaits

/-- Whatever waits for logic lets it sleep for some time. -/
theorem Lingers.sleeps (lingers : w.Lingers i t j w') : ∃ slept, Sleeps i t j w slept w' := by
  induction lingers with
  | refl => exact ⟨0, .rest⟩
  | tail _ goes ih =>
      obtain ⟨slept, sleeps⟩ := ih
      exact ⟨_, sleeps.step goes.1 goes.2⟩

/-- Nothing happens in a run while its traversal waits. -/
theorem Sleeps.kept (sleeps : Sleeps i t j w slept w') (awaits : w.AwaitsFor i t j)
    (peaceful : ∀ w₁, w.LeadsOn w₁ → ∃ c, w₁.Peaceful c) : Kept w.session w'.session := by
  induction sleeps with
  | rest => exact .refl _
  | step sleeps on awaits' ih =>
      obtain ⟨c, here⟩ := peaceful _ sleeps.leadsOn
      obtain ⟨c', there⟩ := peaceful _ (sleeps.leadsOn.tail on)
      obtain ⟨a, _, stage⟩ := (sleeps.awaits awaits).stage here.shown
      obtain ⟨a', _, stage'⟩ := awaits'.stage there.shown
      exact ih.trans (on.kept here.shown there.shown (.inl ⟨⟨_, _, _, stage⟩, _, _, _, stage'⟩))

section Waiting

variable {off : Prop} {since : Rat}

/-- Logic that is asked for has its time ahead. -/
theorem Resumes.waiting (h : w.Resumes i t j e) (attentive : w.Attentive) (off : Prop) :
    w.Waiting i t j w.now 0 w.allows off := by
  obtain ⟨a, fresh, mode⟩ := h.fresh
  obtain ⟨since, slept, ⟨_, began, patient, b, here, civil, rest⟩⟩ := attentive i t j h.awaits
  cases fresh.symm.trans here
  rw [mode] at rest
  have began : (since : WithTop ℚ) ≤ w.now := WithTop.coe_le_coe.mpr began
  refine ⟨h.awaits, le_refl _, patient.mono (add_le_add_left began _), _, here, civil, .inr ?_⟩
  rw [add_zero, mode]
  rcases rest with ⟨⟨y, other⟩, _⟩ | ⟨poised, wakes⟩
  · cases other
  · cases poised with
    | fresh early => exact ⟨.fresh (le_refl _), wakes.mono early⟩

/-- While a traversal waits, its logic is on time, unless it is called. -/
theorem Sleeps.waiting (sleeps : Sleeps i t j w slept w') {limit : WithTop ℚ}
    (waits : w.Waiting i t j since 0 limit off) (peaceful : ∀ w₁, w.LeadsOn w₁ → ∃ c, w₁.Peaceful c)
    (calls : ∀ w₁, w.LeadsOn w₁ → w₁.LeadsOn w' → w₁.AwaitsFor i t j → w₁.called j = true → off) :
    w'.Waiting i t j since slept limit off := by
  induction sleeps with
  | rest => exact waits
  | step sleeps on awaits ih =>
      have waiting := ih fun w₁ before after => calls w₁ before (after.tail on)
      obtain ⟨c, here⟩ := peaceful _ sleeps.leadsOn
      obtain ⟨c', there⟩ := peaceful _ (sleeps.leadsOn.tail on)
      exact waiting.step here on (waiting.apart here there on awaits)
        (calls _ sleeps.leadsOn (.single on) waiting.awaits)

end Waiting

/-! ### Runs that lose patience -/

/-- Civil logic raises no time-outs. -/
theorem Peaceful.timely (peaceful : w.Peaceful c) (kind : f.kind = .timeout) :
    ¬w.Raises e f w' (.blockTimeout id limit) := by
  intro raises
  generalize same : RunFault.blockTimeout id limit = g at raises
  cases raises with
  | gathered => cases same
  | @sequenced i frame p _ _ top _ _ source raised =>
      obtain ⟨walk, t, outer, here, stack⟩ := top
      have stage : Stage.walking t = c.stage := Option.some.inj (peaceful.shown.came walk here)
      have member : p ∈ t.processes :=
        List.mem_filterMap.mpr ⟨frame, stack ▸ List.mem_cons_self, by rw [source]; rfl⟩
      have civil : p.Civil := peaceful.civil p (stage ▸ member)
      exact civil.polite.raises _ _ raised kind
  | @awaited i j frame a r _ top _ here goes ended =>
      obtain ⟨walk, t, outer, there, _⟩ := top
      have civil := peaceful.civil_attempt ⟨walk, there⟩ here
      unfold Attempt.turn? at goes
      split at goes
      · cases goes
      · cases goes
      · cases goes
      · cases goes
        rw [civil.polite.interrupted] at ended
        cases ended
      · cases goes
        exact civil.polite.raises _ _ ended kind

/-- What took longer than blocks may was asleep for so long. -/
theorem Overruns.sleeps (overruns : w.Overruns id w') (peaceful : ∀ w₁, w.LeadsOn w₁ → ∃ c, w₁.Peaceful c)
    (attentive : w.Attentive) : ∃ i t j e slept, w.Resumes i t j e ∧ e.id = id ∧ Sleeps i t j w slept w' ∧
      w.allows ≤ slept := by
  obtain ⟨i, j, t, frame, outer, p, awaits, stack, named, fresh, lingers, unended, past⟩ := overruns
  have resumes : w.Resumes i t j frame.element := ⟨awaits, ⟨_, fresh, rfl⟩, frame, outer, stack, rfl⟩
  obtain ⟨slept, sleeps⟩ := Lingers.sleeps lingers
  have waiting := sleeps.waiting (resumes.waiting attentive True) peaceful fun _ _ _ _ _ => trivial
  refine ⟨i, t, j, frame.element, slept, resumes, named, sleeps, ?_⟩
  obtain ⟨a, _, _, ⟨_, ceased, _⟩ | ⟨_, wakes⟩⟩ := waiting.works
  · exact absurd ceased unended
  · exact WithTop.le_of_add_le_add_left WithTop.coe_ne_top ((past.time waiting.began).trans wakes.1)

/-! ### Runs that fail -/

/-- Whether a task of a run is called before some world: its traversal, or the logic that is waited for. -/
def Interrupted (i : Nat) (t : Traversal) (j : Nat) (w w' : World α) : Prop := ∃ w₁, w.LeadsOn w₁ ∧ w₁.LeadsOn w' ∧
  (w₁.called i = true ∨ w₁.AwaitsFor i t j ∧ w₁.called j = true)

theorem Interrupted.step (h : Interrupted i t j w w₁) (on : w₁.StepsOn w') : Interrupted i t j w w' := by
  obtain ⟨w₂, before, after, calls⟩ := h
  exact ⟨w₂, before, after.tail on, calls⟩

theorem Falls.closes (h : w₀.Falls w i g) (shown : Shows none w c) {how : WalkEnd} (ends : w.AtStage (.over how)) :
    how = .failed g := by
  have same := AtStage.unique ends shown.stage
  cases h with
  | abandons gives =>
      obtain ⟨a, _, stage⟩ := gives.stage shown
      cases same.trans stage
  | fails fails =>
      have fate := fails.ending shown
      rw [← same] at fate
      exact Option.some.inj fate

/-- Whether a run comes to fail because the logic of an element has slept too long since some world: the traversal still
waits for it, or has lost its patience, and nothing has happened since. -/
inductive Oversleeps (w₀ : World α) (i : Nat) (t : Traversal) (j : Nat) (g : RunFault) (w : World α) : Prop
  | waits {slept : WithTop ℚ} : w.Waiting i t j w₀.now slept w₀.allows False → w₀.allows < slept →
      Kept w₀.session w.session → Oversleeps w₀ i t j g w
  | falls : w₀.Falls w i g → (w.now : WithTop ℚ) ≤ w₀.now + w₀.allows → Oversleeps w₀ i t j g w

section Oversleeps

theorem Oversleeps.stalls (h : w₀.Oversleeps i t j g w) : w₀.session.Stalls g w.session := by
  cases h with
  | waits _ _ kept => exact kept.stalls
  | falls falls => exact falls.stalls

theorem Oversleeps.early (h : w₀.Oversleeps i t j g w) : (w.now : WithTop ℚ) ≤ w₀.now + w₀.allows := by
  cases h with
  | waits waiting => exact waiting.patient.1
  | falls _ early => exact early

theorem Oversleeps.goesOn (h : w₀.Oversleeps i t j g w) (peaceful : w.Peaceful c) : ∃ w', w.step = some w' := by
  cases h with
  | waits waiting long =>
      exact waiting.patient.goes (WithTop.add_ne_top.mpr ⟨WithTop.coe_ne_top, ne_top_of_lt long⟩)
  | falls falls =>
      obtain ⟨k, wakes⟩ := falls.wakes peaceful
      exact wakes.goes WithTop.coe_ne_top

theorem Oversleeps.closes (h : w₀.Oversleeps i t j g w) (shown : Shows none w c) {how : WalkEnd}
    (ends : w.AtStage (.over how)) : how = .failed g := by
  cases h with
  | waits waiting =>
      obtain ⟨a, _, stage⟩ := waiting.awaits.stage shown
      cases (AtStage.unique ends shown.stage).trans stage
  | falls falls => exact falls.closes shown ends

/-- A step in which no task of the run is called. -/
theorem Oversleeps.step (h : w₀.Oversleeps i t j (.blockTimeout frame.element.id w₀.session.options.blockTimeout) w)
    (peaceful : w.Peaceful c) (peaceful' : w'.Peaceful c') (on : w.StepsOn w') (stack : t.stack = frame :: outer)
    (uncalled : w.called i = false) (resting : w.AwaitsFor i t j → w.called j = false) :
    w₀.Oversleeps i t j (.blockTimeout frame.element.id w₀.session.options.blockTimeout) w' := by
  have kept := on.kept peaceful.shown peaceful'.shown
  cases h with
  | waits waiting long before =>
      obtain ⟨a, _, stage⟩ := waiting.awaits.stage peaceful.shown
      by_cases up : w.upNext? = some i
      · rcases waiting.gives peaceful on up uncalled with ⟨_, short⟩ | gives
        · exact absurd short (not_le.mpr long)
        · obtain ⟨a', _, stage'⟩ := gives.stage peaceful'.shown
          refine .falls (.abandons gives stack (before.trans (kept (.inl ⟨⟨_, _, _, stage⟩, _, _, _, stage'⟩)))) ?_
          rw [step_still up peaceful.scheduled peaceful.shown on.step]
          exact waiting.patient.1
      · have waiting' := waiting.step peaceful on up fun called => by
          cases called.symm.trans (resting waiting.awaits)
        obtain ⟨a', _, stage'⟩ := waiting'.awaits.stage peaceful'.shown
        exact .waits waiting' (lt_of_lt_of_le long (le_add_of_nonneg_right (w.nap_nonneg j)))
          (before.trans (kept (.inl ⟨⟨_, _, _, stage⟩, _, _, _, stage'⟩)))
  | falls falls early =>
      obtain ⟨k, wakes⟩ := falls.wakes peaceful
      refine .falls (falls.step peaceful peaceful' on uncalled) ?_
      rw [wakes.still peaceful.ordered peaceful.scheduled peaceful.shown on.step]
      exact early

end Oversleeps

/-! ### Runs of civil logic -/

/-- Logic that has slept too long since the world in which it was asked for. -/
theorem Sleeps.oversleeps (sleeps : Sleeps i t j w slept w₁) (resumes : w.Resumes i t j e) (long : w.allows < slept)
    (on : w₁.LeadsOn w₂) (attentive : w.Attentive) (peaceful : ∀ w₃, w.LeadsOn w₃ → ∃ c, w₃.Peaceful c) :
    Interrupted i t j w w₂ ∨ w.Oversleeps i t j (.blockTimeout e.id w.session.options.blockTimeout) w₂ := by
  obtain ⟨frame, outer, stack, rfl⟩ := resumes.top
  induction on with
  | refl =>
      refine or_iff_not_imp_left.mpr fun uninterrupted => ?_
      have waiting := sleeps.waiting (resumes.waiting attentive False) peaceful fun w₂ before after awaits called =>
        uninterrupted ⟨w₂, before, after, .inr ⟨awaits, called⟩⟩
      exact .waits waiting long (sleeps.kept resumes.awaits peaceful)
  | @tail w₂ w₃ on step ih =>
      rcases ih with interrupted | oversleeps
      · exact .inl (interrupted.step step)
      · have before := sleeps.leadsOn.trans on
        obtain ⟨c, here⟩ := peaceful w₂ before
        obtain ⟨c', there⟩ := peaceful w₃ (before.tail step)
        refine or_iff_not_imp_left.mpr fun uninterrupted => oversleeps.step here there step stack ?_ fun awaits => ?_
        · exact Bool.eq_false_iff.mpr fun called => uninterrupted ⟨w₂, before, .single step, .inl called⟩
        · exact Bool.eq_false_iff.mpr fun called => uninterrupted ⟨w₂, before, .single step, .inr ⟨awaits, called⟩⟩

end World

/-- How long blocks may take. In a run of logic that raises no time-outs, gives way when it is interrupted in its sleep
and closes at once, the run loses patience with an element only when its logic, from one time that it was started or
resumed, has slept as long as blocks may take, whatever else takes time. And when it sleeps longer nothing happens in
the run any more: until that time has passed the run goes on or is over, and it fails with that element, unless a task
of the run is called before, or its execution is cancelled or runs out of its own time. -/
theorem run_oversleeps {α : Type} {graph : Graph} {registry : Registry} {draws : List Double}
    {commands : List (Command α)} (handles : ∀ x ∈ commands, x.Handles) {w : World α}
    (steps : (World.ofCommands (Session.ofGraph graph registry draws) commands).Leads w)
    (running : w.session.running = true) (opening : w.AtStage .opening)
    (civil : ∀ w₁, w.LeadsOn w₁ → w₁.session.Civil) :
    (∀ w₁ w' x id limit, w.LeadsOn w₁ → w₁.EndsIn x w' → x.outcome = .failed (.blockTimeout id limit) →
      ∃ w₂ w₃ i t j e slept, w.LeadsOn w₂ ∧ w₂.Resumes i t j e ∧ e.id = id ∧ World.Sleeps i t j w₂ slept w₃ ∧
        w₃.LeadsOn w₁ ∧ w.allows ≤ slept) ∧
    ∀ w₁ w₂ w₃ i t j e slept, w.LeadsOn w₁ → w₁.Resumes i t j e → World.Sleeps i t j w₁ slept w₂ → w.allows < slept →
      w₂.LeadsOn w₃ → World.Interrupted i t j w₁ w₃ ∨
        w₁.session.Stalls (.blockTimeout e.id w.session.options.blockTimeout) w₃.session ∧
        (w₃.now : WithTop ℚ) ≤ w₁.now + w.allows ∧ ∃ w', w₃.step = some w' ∧
          (w₃.StepsOn w' ∨ ∃ x, w₃.EndsIn x w' ∧
            (x.outcome = .failed (.blockTimeout e.id w.session.options.blockTimeout) ∨ x.outcome = .cancelled ∨
              ∃ ms, x.outcome = .failed (.runTimeout ms))) := by
  have proper : ∀ x ∈ commands, x.Proper := fun x member => (handles x member).proper
  have attentive : ∀ {w₁}, w.LeadsOn w₁ → w₁.Attentive := fun on =>
    World.LeadsOn.attentive on steps handles running opening civil
  have peaceful : ∀ {w₁}, w.LeadsOn w₁ → ∃ c, w₁.Peaceful c := fun on =>
    World.LeadsOn.peaceful on steps handles running opening civil
  have options : ∀ {w₁}, w.LeadsOn w₁ → w₁.session.options = w.session.options := fun on =>
    (World.LeadsOn.beats on steps proper).options running
  refine ⟨fun w₁ w' x id limit on ends lost => ?_, fun w₁ w₂ w₃ i t j e slept on resumes sleeps long after => ?_⟩
  · obtain ⟨_, w₂, w₃, before, later, raised | overruns⟩ :=
      ends.explained (World.LeadsOn.explained on steps proper running opening) lost
    · obtain ⟨e, f, named, kind, raises⟩ := raised
      obtain ⟨c, here⟩ := peaceful before
      exact absurd raises (here.timely kind)
    · obtain ⟨i, t, j, e, slept, resumes, named, sleeps, long⟩ :=
        overruns.sleeps (fun w₄ on' => peaceful (before.trans on')) (attentive before)
      refine ⟨w₂, w₃, i, t, j, e, slept, before, resumes, named, sleeps, later, ?_⟩
      rwa [World.allows, options before] at long
  · have long : w₁.allows < slept := by rwa [World.allows, options on]
    refine (sleeps.oversleeps resumes long after (attentive on) fun w₄ on' => peaceful (on.trans on')).imp_right ?_
    rw [options on]
    intro oversleeps
    have before := on.trans (sleeps.leadsOn.trans after)
    obtain ⟨c, here⟩ := peaceful before
    obtain ⟨w', step⟩ := oversleeps.goesOn here
    have early := oversleeps.early
    rw [World.allows, options on] at early
    refine ⟨oversleeps.stalls, early, w', step, or_iff_not_imp_left.mpr fun leaves => ?_⟩
    obtain ⟨x, ends⟩ := here.shown.endsIn (World.LeadsOn.running before running) step leaves
    exact ⟨x, ends, ends.outcome fun how stage => .inl (oversleeps.closes here.shown stage)⟩

/-! ### A run whose element oversleeps -/

/-- Whether a step only sleeps or emits. -/
def Step.isPlain : Step → Bool
  | .sleep _ | .emit _ _ => true
  | _ => false

theorem Process.possible_plain {form : Form} {steps : List Step} (plain : steps.all Step.isPlain = true) :
    ∀ step ∈ possible form steps, step.Tame := by
  have tame : ∀ step ∈ steps, (inForm form step).Tame := fun step member => by
    have here := List.all_eq_true.mp plain step member
    cases step with
    | sleep length => exact Step.sleep_tame length
    | emit port value => exact Step.emit_tame port value
    | _ => cases here
  intro step member
  have listed : ∃ step' ∈ steps, inForm form step' = step := by
    cases form with
    | stream | deferred => exact List.mem_map.mp member
    | sequence | immediate =>
        obtain ⟨step', kept, same⟩ := List.mem_map.mp member
        exact ⟨step', (List.mem_filter.mp kept).1, same⟩
  obtain ⟨step', here, rfl⟩ := listed
  exact tame step' here

/-- Whether all blocks that a session knows are scripts that only sleep and emit. -/
def Session.isPlain (s : Session) : Bool := s.registry.blocks.all fun (_, d) => match d.logic with
  | .script _ steps [] => steps.all Step.isPlain
  | _ => false

theorem Session.civil_of_isPlain {s : Session} (plain : s.isPlain = true) : s.Civil := by
  intro e _ d found
  have here := List.all_eq_true.mp plain _ (Registry.mem_of_find? found)
  simp only at here
  split at here
  · rename_i steps logic
    rw [logic]
    exact Logic.civil_of_tame (Process.possible_plain here)
  · cases here

/-- A block that sleeps for a while before its first number, and for too long before its second. -/
def BlockDefinition.dozing : BlockDefinition :=
  { BlockDefinition.one with
    logic := .script .stream [.sleep (.ms 100), .emit (.text "output") (.int 1), .sleep (.ms 6000),
      .emit (.text "output") (.int 2)] [] }

namespace World

/-- A world in which a run of two such elements is about to begin. -/
def dozing : World Unit := ofCommands (.ofGraph .pair ⟨[("one", .dozing)]⟩ []) [.execute .plain]

/-- Whether all worlds of a run that is over after so many steps pass a test. -/
def passes (test : World Unit → Bool) : ℕ → World Unit → Bool
  | 0, _ => false
  | n + 1, w => test w && match w.step with
    | none => true
    | some w' => !(w'.session.running && w'.session.run == w.session.run) || passes test n w'

theorem LeadsOn.passes {test : World Unit → Bool} {n : ℕ} {w w₁ : World Unit} (on : w.LeadsOn w₁)
    (tested : passes test n w = true) : test w₁ = true := by
  induction on using Relation.ReflTransGen.head_induction_on generalizing n with
  | refl =>
      cases n with
      | zero => cases tested
      | succ n => exact (Bool.and_eq_true_iff.mp tested).1
  | @head w w₂ step _ ih =>
      cases n with
      | zero => cases tested
      | succ n =>
          have rest := (Bool.and_eq_true_iff.mp tested).2
          simp only [step.step, step.still, step.run, BEq.rfl, Bool.and_true, Bool.not_true, Bool.false_or] at rest
          exact ih rest

/-- What the traversal has just asked the logic of its innermost element for. -/
def resumes? (w : World Unit) : Option (ℕ × Traversal × ℕ × Element) :=
  match w.walk? with
  | none => none
  | some i => match w.work? i with
    | some (.walk ⟨t, .awaiting j⟩) => match t.stack, w.work? j with
      | frame :: _, some (.attempt ⟨_, _, .fresh⟩) => some (i, t, j, frame.element)
      | _, _ => none
    | _ => none

theorem resumes_of_resumes? {w : World Unit} (asked : w.resumes? = some (i, t, j, e)) : w.Resumes i t j e := by
  unfold resumes? at asked
  split at asked
  · cases asked
  · rename_i walk
    split at asked
    · rename_i here
      split at asked
      · rename_i stack fresh
        cases asked
        exact ⟨⟨walk, here⟩, ⟨_, fresh, rfl⟩, _, _, stack, rfl⟩
      · cases asked
    · cases asked

/-- Whether neither the traversal in a task nor the logic in another one that it waits for is called. -/
def isUncalled (i j : ℕ) (w : World Unit) : Bool := !w.called i && (!w.called j || match w.work? i with
  | some (.walk ⟨_, .awaiting k⟩) => k != j
  | _ => true)

theorem uninterrupted {w w' : World Unit} {n : ℕ} (tested : passes (isUncalled i j) n w = true) :
    ¬Interrupted i t j w w' := by
  rintro ⟨w₁, on, -, calls⟩
  have uncalled := LeadsOn.passes on tested
  rcases calls with called | ⟨⟨_, here⟩, called⟩
  · simp [isUncalled, called] at uncalled
  · simp [isUncalled, called, here] at uncalled

/-- Whether all executions that have ended pass a test. -/
def allEnded (test : Execution → Bool) (w : World Unit) : Bool :=
  (w.replies.toList.all fun
    | .executed e => test e
    | _ => true) &&
  w.tasks.toList.all fun t => match t.work with
    | .runner (.over e) => test e
    | _ => true

theorem Ended.passes {test : Execution → Bool} {w : World Unit} {x : Execution} (ended : w.Ended x)
    (tested : w.allEnded test = true) : test x = true := by
  obtain ⟨told, kept⟩ := Bool.and_eq_true_iff.mp tested
  rcases ended with reply | ⟨i, done⟩
  · exact List.all_eq_true.mp told _ (Array.mem_toList_iff.mpr reply)
  · unfold execution? at done
    split at done
    · rename_i found
      cases done
      exact List.all_eq_true.mp kept _ (Array.mem_toList_iff.mpr (Array.mem_of_getElem? found))
    · cases done

/-- The world in which the logic of the second element is asked for its second number. -/
def asking : World Unit := run 27 (run 1 dozing)

theorem dozing_asks : (run 1 dozing).isToOpen = true ∧ (run 1 dozing).session.running = true ∧
    passes (fun w => w.session.isPlain) 60 (run 1 dozing) = true ∧ staysOn 27 (run 1 dozing) = true ∧
    (asking.resumes?.map fun (i, _, j, e) => (i, j, e.id)) = some (1, 4, "second") := by
  decide +kernel

/-- It goes to sleep in the second step from there, and its run is over some steps later. -/
theorem asking_oversleeps : staysOn 1 asking = true ∧ asking.upNext? ≠ some 1 ∧
    staysOn 1 (run 1 asking) = true ∧ (run 1 asking).upNext? ≠ some 1 ∧
    (run 1 dozing).allows < 0 + asking.nap 4 + (run 1 asking).nap 4 ∧ passes (isUncalled 1 4) 60 asking = true ∧
    staysOn 16 (run 1 (run 1 asking)) = true ∧
    (run 16 (run 1 (run 1 asking))).step.map (fun w => (w.session.running, w.allEnded fun x => match x.outcome with
      | .failed (.blockTimeout _ _) => true
      | _ => false)) = some (false, true) := by
  decide +kernel

end World

/-- The run fails with the second element, and nothing has happened in it since that was asked for its second number. -/
theorem run_oversleeps_dozing : ∃ w x w' limit, World.asking.LeadsOn w ∧ w.EndsIn x w' ∧
    x.outcome = .failed (.blockTimeout "second" limit) ∧
    World.asking.session.Stalls (.blockTimeout "second" limit) w.session ∧
    (w.now : WithTop ℚ) ≤ World.asking.now + (World.run 1 .dozing).allows ∧
    ∃ (w₂ w₃ : World Unit) (i : ℕ) (t : Traversal) (j : ℕ) (e : Element) (slept : WithTop ℚ),
      w₂.Resumes i t j e ∧ e.id = "second" ∧ World.Sleeps i t j w₂ slept w₃ ∧ (World.run 1 .dozing).allows ≤ slept := by
  have handles : ∀ x ∈ [Command.execute (α := Unit) .plain], x.Handles := by
    intro x member
    rw [List.mem_singleton.mp member]
    exact Request.plain_proper _ (List.mem_singleton.mpr rfl)
  have steps : World.dozing.Leads (World.run 1 .dozing) := World.leads_run 1 _
  obtain ⟨toOpen, running, plain, stays, asks⟩ := World.dozing_asks
  obtain ⟨stays₁, apart, stays₂, apart', long, uncalled, stays', ends⟩ := World.asking_oversleeps
  have on : (World.run 1 .dozing).LeadsOn .asking := World.leadsOn_run stays
  generalize World.run 1 World.dozing = w₀ at *
  generalize World.asking = w₁ at *
  have opening := World.atStage_of_toOpen toOpen
  have civil : ∀ w, w₀.LeadsOn w → w.session.Civil := fun w on => Session.civil_of_isPlain (on.passes plain)
  obtain ⟨⟨i, t, j, e⟩, asked, same⟩ := Option.map_eq_some_iff.mp asks
  obtain ⟨rfl, rfl, named⟩ : i = 1 ∧ j = 4 ∧ e.id = "second" := by simpa only [Prod.mk.injEq] using same
  have resumes := World.resumes_of_resumes? asked
  have on₁ := World.stepsOn_run stays₁
  have on₂ := World.stepsOn_run stays₂
  have awaits {w w' : World Unit} (before : w₀.LeadsOn w) (on : w.StepsOn w') (apart : w.upNext? ≠ some 1)
      (awaits : w.AwaitsFor 1 t 4) : w'.AwaitsFor 1 t 4 := by
    obtain ⟨c, here⟩ := World.LeadsOn.peaceful before steps handles running opening civil
    obtain ⟨walk, still⟩ := on.apart here.shown here.scheduled
    exact ⟨walk.trans awaits.1, still 1 _ apart awaits.2 (.walk _)⟩
  have awaits₁ := awaits on on₁ apart resumes.awaits
  have sleeps := (World.Sleeps.rest.step on₁ awaits₁).step on₂ (awaits (on.tail on₁) on₂ apart' awaits₁)
  have after := World.leadsOn_run stays'
  have before := on.trans (sleeps.leadsOn.trans after)
  obtain ⟨loses, fails⟩ := run_oversleeps handles steps running opening civil
  have outcome := (fails _ _ _ _ _ _ _ _ on resumes sleeps long after).resolve_left (World.uninterrupted uncalled)
  rw [named] at outcome
  obtain ⟨stalls, early, w', step, outcome⟩ := outcome
  rw [step, Option.map_some, Option.some_inj, Prod.mk.injEq] at ends
  obtain ⟨idle, lost⟩ := ends
  rcases outcome with stays | ⟨x, ends, outcome⟩
  · cases idle.symm.trans stays.still
  · have impatient := ends.ended.passes lost
    have told : x.outcome = .failed (.blockTimeout "second" w₀.session.options.blockTimeout) := by
      rcases outcome with told | told | ⟨ms, told⟩
      · exact told
      · rw [told] at impatient
        cases impatient
      · rw [told] at impatient
        cases impatient
    obtain ⟨w₂, w₃, i, t, j, e, slept, -, asked, named, naps, -, long⟩ := loses _ w' x _ _ before ends told
    exact ⟨_, x, w', _, sleeps.leadsOn.trans after, ends, told, stalls, early, w₂, w₃, i, t, j, e, slept, asked, named,
      naps, long⟩

end BlockGraph
