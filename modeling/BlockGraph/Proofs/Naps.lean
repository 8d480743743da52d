import BlockGraph.Proofs.Civil
import BlockGraph.Proofs.Impatience
import BlockGraph.Proofs.Wakes
/-!
Naps. When block logic that is waited for goes to sleep in its turn, it is ready again after as long as it wanted to
sleep, and no earlier unless it is called; when it pauses for another reason its attempt goes on at once, or is over.
-/
namespace BlockGraph

/-- How long a pause lasts by itself. -/
def Pause.time : Pause → WithTop ℚ
  | .sleep length _ => length.time
  | _ => 0

/-- How long the logic of an attempt wants to sleep when it pauses in its turn. -/
def Attempt.nap (a : Attempt) (cancelled : Bool) (s : Session) : WithTop ℚ :=
  (a.turn? cancelled s).elim 0 (·.1.time)

/-- What civil logic comes to in a turn. -/
theorem Attempt.turn_civil {a : Attempt} {cancelled : Bool} {s : Session} {r : Pause × Process × Session}
    (goes : a.turn? cancelled s = some r) (civil : a.process.Civil) :
    r.2.1.Civil ∧ ∀ length, r.1 ≠ .sleep length true := by
  have interrupted : ∀ length, (a.process.interrupt s).1 ≠ .sleep length true := fun length => by
    rw [civil.polite.interrupted s]
    exact nofun
  unfold turn? at goes
  split at goes
  · cases goes
  · cases goes
  · cases goes
  · cases goes
    exact ⟨civil.interrupt s, interrupted⟩
  · cases goes
    exact ⟨civil.resume s, civil.polite.yields s⟩

theorem Span.time_nonneg (length : Span) : 0 ≤ length.time := by
  cases length with
  | ms r => exact WithTop.coe_le_coe.mpr (le_max_right r 0)
  | forever => exact le_top

theorem Attempt.nap_nonneg (a : Attempt) (cancelled : Bool) (s : Session) : 0 ≤ a.nap cancelled s := by
  unfold nap
  cases a.turn? cancelled s with
  | none => exact le_refl _
  | some r =>
      obtain ⟨pause, _⟩ := r
      cases pause with
      | sleep length insists => exact length.time_nonneg
      | _ => exact le_refl _

namespace World

variable {α : Type} {w w₁ w₂ w' : World α} {c : Course} {task i j : Nat} {x : Work α} {a : Attempt}

/-! ### Whose turn it is -/

/-- The turn of a task, from the world in which it has left its queue. -/
structure Turns (w : World α) (task : Nat) (x : Work α) (w₂ w' : World α) : Prop where
  quiet : Quiet w w₂
  atWork : w₂.AtWork task
  here : w₂.work? task = some x
  now : w₂.now = w.now
  others : ∀ k, k ≠ task → w₂.standing? k = w.standing? k
  goes : w' = w₂.works task x (w.called task)
  leaves : ∃ w₁, w.Dequeues task w₁ ∧ w₂ = w₁.atTurn task

theorem turns_of_upNext (up : w.upNext? = some task) (scheduled : w.Scheduled) (step : w.step = some w') :
    ∃ x w₂, w.work? task = some x ∧ w.Turns task x w₂ w' := by
  cases next_of_step step with
  | @turn task' w₁ up' leaves =>
      cases up.symm.trans up'
      obtain ⟨x, here, works⟩ := leaves.turn_eq scheduled
      have quiet := leaves.quiet.trans (w₁.atTurn_quiet task)
      refine ⟨x, w₁.atTurn task, here, quiet, scheduled.atTurn leaves, (quiet.work task).trans here, leaves.now,
        fun k other => ?_, works, w₁, leaves, rfl⟩
      rw [atTurn_standing, if_neg (Ne.symm other), standing?, leaves.tasks]
      rfl
  | release none => cases none.symm.trans up
  | idle none => cases none.symm.trans up

/-- A step in which no task has its turn. -/
theorem quiet_of_upNext (up : w.upNext? = none) (step : w.step = some w') : Quiet w w' := by
  cases next_of_step step with
  | turn up' => cases up.symm.trans up'
  | @release task ticket rest _ _ round =>
      have popped : Quiet w { w with round := rest } := { Quiet.refl w with }
      exact popped.trans (release_quiet _ _ _)
  | idle _ _ _ idles => exact idles_quiet idles

/-- A step within a run leaves a traversal or logic as it is whose turn it is not. -/
theorem StepsOn.apart (on : w.StepsOn w') (h : Shows none w c) (scheduled : w.Scheduled) :
    w'.walk? = w.walk? ∧ ∀ i x, w.upNext? ≠ some i → w.work? i = some x → x.Inner → w'.work? i = some x := by
  have beside : Beside w w' → w'.walk? = w.walk? ∧
      ∀ i x, w.upNext? ≠ some i → w.work? i = some x → x.Inner → w'.work? i = some x := fun beside =>
    ⟨beside.walk?, fun i x _ here inner => (beside.inner i x inner).mpr here⟩
  cases up : w.upNext? with
  | none => exact up ▸ beside (.quiet (quiet_of_upNext up on.step))
  | some task =>
      obtain ⟨y, w₂, here, turn⟩ := turns_of_upNext up scheduled on.step
      have shown := h.quiet turn.quiet
      have put : ∀ {y' : Work α} {s : Session}, Puts task y' s w₂ w' → w'.walk? = w.walk? ∧
          ∀ i x, some task ≠ some i → w.work? i = some x → x.Inner → w'.work? i = some x := fun put =>
        ⟨put.walk?.trans turn.quiet.walk?, fun i x apart here _ =>
          put.still (fun same => apart (congrArg some same.symm)) ((turn.quiet.work i).trans here)⟩
      have outside : ¬y.Inner → Beside w w' := fun outer => by
        have running : w₂.session.running = true := turn.quiet.session ▸ on.running
        have still := on.still
        have run := on.run
        rw [turn.goes] at still run ⊢
        have free := shown.unwaiting turn.here _ running still (turn.quiet.session ▸ run)
        exact (Beside.quiet turn.quiet).trans (shown.beside turn.here outer _ running free)
      cases y with
      | caller k => exact up ▸ beside (outside (Work.caller_outer k))
      | runner m => exact up ▸ beside (outside (Work.runner_outer m))
      | walk k =>
          obtain ⟨c', k', _, _, walked, _⟩ : Walked False task k w₂ (w₂.walkTurn task k (w.called task)) c :=
            shown.walkTurn turn.here _ nofun
          rw [← show w' = w₂.walkTurn task k (w.called task) from turn.goes] at walked
          exact put walked
      | attempt a =>
          obtain ⟨c', a', _, _, worked, _⟩ : Worked False task a w₂ (w₂.attemptTurn task a (w.called task)) c :=
            shown.attemptTurn turn.here _ nofun
          rw [← show w' = w₂.attemptTurn task a (w.called task) from turn.goes] at worked
          exact put worked

/-! ### Tasks that are over -/

/-- A task that is over has no turn. -/
theorem upNext?_alive (up : w.upNext? = some i) (scheduled : w.Scheduled) (step : w.step = some w') :
    w.standing? i ≠ some .over := by
  obtain ⟨_, _, _, turn⟩ := turns_of_upNext up scheduled step
  obtain ⟨w₁, leaves, _⟩ := turn.leaves
  obtain ⟨s, standing, alive, _⟩ := leaves.standing scheduled
  exact fun ceased => alive (Option.some.inj (standing.symm.trans ceased))

/-- A task that is over stays so. -/
theorem step_ceased (scheduled : w.Scheduled) (shown : Shows none w c) (step : w.step = some w')
    (ceased : w.standing? i = some .over) : w'.standing? i = some .over := by
  cases next_of_step step with
  | @turn task w₁ up leaves =>
      obtain ⟨s, standing, alive, _⟩ := leaves.standing scheduled
      have other : i ≠ task := by
        rintro rfl
        exact alive (Option.some.inj (standing.symm.trans ceased))
      refine (leaves.turned scheduled shown).ceased (scheduled.atTurn leaves) other ?_
      rw [atTurn_standing, if_neg (Ne.symm other), standing?, leaves.tasks]
      exact ceased
  | @release task ticket rest _ _ round =>
      have popped : { w with round := rest }.standing? i = some .over := ceased
      exact release_ceased _ task ticket popped
  | idle _ _ _ idles =>
      cases idles_cases idles with
      | still => exact ceased
      | round phase _ next =>
          rw [standing?, (nextRound_eq next).tasks]
          exact ceased
      | drain => exact w.cancelAll_ceased ceased

/-! ### Turns of civil logic -/

/-- Whether block logic is to have its turn at some time: at once when it is about to start or to go on, and when its
nap is over when it is asleep. -/
inductive Poised (w : World α) (j : Nat) (due : WithTop ℚ) : AttemptMode → Prop
  | fresh : due ≤ w.now → Poised w j due .fresh
  | working : due ≤ w.now → w.busy? = some j → Poised w j due .working
  | asleep : w.Late j due → Poised w j due (.asleep none)

/-- Whether civil logic at work in a task is on time: it is to have its next turn then, or is over, and something
holds. -/
def OnTime (w : World α) (j : Nat) (due : WithTop ℚ) (ended : Prop) : Prop :=
  ∃ a, w.work? j = some (.attempt a) ∧ a.process.Civil ∧
    ((∃ y, a.mode = .over y) ∧ w.standing? j = some .over ∧ ended ∨ w.Poised j due a.mode ∧ w.WakesBy j due)

section Attempt

variable {due : WithTop ℚ}

theorem AtWork.outer (h : w.AtWork j) (here : w.work? j = some (.attempt a)) : j ≠ 0 :=
  (h.scheduled.placed j _ here).1

theorem AtWork.attempt (h : w.AtWork j) (here : w.work? j = some (.attempt a)) (b : Attempt) (s : Session) :
    ((w.withSession s).withWork j (.attempt b)).AtWork j :=
  Act.atWork (.work _ (attempt_placed (h.outer here) b)) (Act.atWork (.session s) h)

theorem AtWork.attemptOver_ceased (h : w.AtWork j) (here : w.work? j = some (.attempt a)) (b : Attempt) (s : Session)
    (y : Yield) : ((w.withSession s).attemptOver j b y).standing? j = some .over :=
  (h.attempt here { b with mode := .over y } s).finish_ceased (.inl rfl)

/-- Civil logic that pauses is over, or is to have its turn again when its nap is over. -/
theorem AtWork.pauses (h : w.AtWork j) (here : w.work? j = some (.attempt a)) {r : Pause × Process × Session}
    (yields : ∀ length, r.1 ≠ .sleep length true) :
    (∃ y, (a.paused r.1 r.2.1).mode = .over y) ∧ (w.attemptPaused j a r).standing? j = some .over ∧ r.1.time = 0 ∨
      (w.attemptPaused j a r).Poised j (w.now + r.1.time) (a.paused r.1 r.2.1).mode ∧
        (w.attemptPaused j a r).WakesBy j (w.now + r.1.time) := by
  obtain ⟨pause, p, s⟩ := r
  have ceased := fun y => h.attemptOver_ceased here { a with process := p } s y
  obtain ⟨q, collected?, mode⟩ := a
  cases pause with
  | item v =>
      cases collected? with
      | none => exact .inl ⟨⟨_, rfl⟩, ceased _, rfl⟩
      | some collected =>
          right
          have due : (w.now : WithTop ℚ) + (Pause.item v).time = w.now := add_zero _
          rw [due]
          exact ⟨.working (le_refl _) rfl, le_refl _, .inl (.inl (.inl rfl))⟩
  | sleep length insists =>
      cases insists with
      | true => exact absurd rfl (yields length)
      | false =>
          have atWork := h.attempt here ⟨p, collected?, .asleep none⟩ s
          exact .inr ⟨.asleep (atWork.sleep_late length), atWork.sleep_wakes length⟩
  | ended e => cases e <;> cases collected? <;> exact .inl ⟨⟨_, rfl⟩, ceased _, rfl⟩

/-- Civil logic that is called before it has begun, or in its nap, is over. -/
theorem AtWork.attempt_called (h : w.AtWork j) (here : w.work? j = some (.attempt a)) (civil : a.process.Civil)
    (rests : a.mode = .fresh ∨ a.mode = .asleep none) :
    ∃ a', (w.attemptTurn j a true).work? j = some (.attempt a') ∧ a'.process.Civil ∧
      a'.mode = .over (.pause (.ended .interrupted)) ∧ (w.attemptTurn j a true).standing? j = some .over ∧
      a.nap true w.session = 0 := by
  have ceased := fun b s => h.attemptOver_ceased here b s (.pause (.ended .interrupted))
  obtain ⟨p, collected?, mode⟩ := a
  rcases rests with same | same <;> cases same
  · have put := (withWork_puts here (.attempt ⟨p, collected?, .over (.pause (.ended .interrupted))⟩) w.session).finish
      (Work.attempt_rests _)
    exact ⟨_, put.here, civil, rfl, ceased ⟨p, collected?, .fresh⟩ w.session, rfl⟩
  · have ends := civil.polite.interrupted w.session
    have civil := civil.interrupt w.session
    have turn : Attempt.turn? ⟨p, collected?, .asleep none⟩ true w.session = some (p.interrupt w.session) := rfl
    rw [w.attemptTurn_of_turn j turn, Attempt.nap, turn]
    generalize p.interrupt w.session = r at ends civil
    obtain ⟨pause, q, s⟩ := r
    cases ends
    refine ⟨_, (attemptPaused_puts here _ _).here, (Attempt.paused_process ..).symm ▸ civil, ?_, ?_, rfl⟩
    · cases collected? <;> rfl
    · cases collected? <;> exact ceased ⟨q, _, .asleep none⟩ s

/-- A turn of civil logic that comes when it should: the logic is over then, or naps. -/
theorem AtWork.attempt_goes (h : w.AtWork j) (here : w.work? j = some (.attempt a)) (civil : a.process.Civil)
    (poised : w₁.Poised j due a.mode) (cancelled : Bool)
    (now : due = w.now ∨ cancelled = true ∧ a.mode = .asleep none) :
    (w.attemptTurn j a cancelled).OnTime j (due + a.nap cancelled w.session) (a.nap cancelled w.session = 0) := by
  have called : cancelled = true → (a.mode = .fresh ∨ a.mode = .asleep none) →
      (w.attemptTurn j a cancelled).OnTime j (due + a.nap cancelled w.session)
        (a.nap cancelled w.session = 0) := by
    rintro rfl rests
    obtain ⟨a', there, civil, mode, ceased, nap⟩ := h.attempt_called here civil rests
    exact ⟨a', there, civil, .inl ⟨⟨_, mode⟩, ceased, nap⟩⟩
  rcases now with rfl | ⟨calls, asleep⟩
  · cases goes : a.turn? cancelled w.session with
    | none =>
        have rests : cancelled = true ∧ a.mode = .fresh := by
          obtain ⟨p, collected?, mode⟩ := a
          cases poised with
          | fresh => cases cancelled <;> first | exact ⟨rfl, rfl⟩ | cases goes
          | working => cases goes
          | asleep => cases cancelled <;> cases goes
        exact called rests.1 (.inl rests.2)
    | some r =>
        have nap : a.nap cancelled w.session = r.1.time := by rw [Attempt.nap, goes]; rfl
        obtain ⟨civil, yields⟩ := Attempt.turn_civil goes civil
        rw [w.attemptTurn_of_turn j goes, nap]
        exact ⟨_, (attemptPaused_puts here a r).here, (a.paused_process r.1 r.2.1).symm ▸ civil, h.pauses here yields⟩
  · exact called calls (.inr asleep)

end Attempt

/-! ### Steps -/

/-- How long the logic at work in a task wants to sleep in the next step. -/
def nap (w : World α) (j : Nat) : WithTop ℚ :=
  match w.work? j with
  | some (.attempt a) => if w.upNext? = some j then a.nap (w.called j) w.session else 0
  | _ => 0

theorem nap_apart (apart : w.upNext? ≠ some j) : w.nap j = 0 := by
  unfold nap
  split
  · exact if_neg apart
  · rfl

theorem nap_upNext (here : w.work? j = some (.attempt a)) (up : w.upNext? = some j) :
    w.nap j = a.nap (w.called j) w.session := by
  unfold nap
  rw [here]
  exact if_pos up

theorem nap_nonneg (w : World α) (j : Nat) : 0 ≤ w.nap j := by
  unfold nap
  split
  · split
    · exact Attempt.nap_nonneg _ _ _
    · exact le_refl _
  · exact le_refl _

section Step

variable {due : WithTop ℚ} {ended ended' : Prop} {mode : AttemptMode}

theorem Poised.step (h : w.Poised j due mode) (scheduled : w.Scheduled) (shown : Shows none w c)
    (step : w.step = some w') (apart : w.upNext? ≠ some j) : w'.Poised j due mode := by
  cases h with
  | fresh early => exact .fresh (le_trans early (WithTop.coe_le_coe.mpr (step_now scheduled shown step)))
  | working _ busy => exact absurd (upNext?_busy busy) apart
  | asleep late => exact .asleep (late.step scheduled shown step apart)

/-- A task that has its turn and is not called has it when it should. -/
theorem Poised.now (h : w.Poised j due mode) (wakes : w.WakesBy j due) (scheduled : w.Scheduled)
    (leaves : w.Dequeues j w₁) : due = w.now ∨ w.called j = true ∧ mode = .asleep none := by
  cases h with
  | fresh early => exact .inl (le_antisymm early wakes.1)
  | working early => exact .inl (le_antisymm early wakes.1)
  | asleep late =>
      cases called : w.called j with
      | true => exact .inr ⟨rfl, rfl⟩
      | false => exact .inl (le_antisymm (late.turn scheduled leaves called) wakes.1)

/-- Logic that is on time is so after a step, later by as long as it wants to sleep. -/
theorem OnTime.step (h : w.OnTime j due ended) (on : w.StepsOn w') (shown : Shows none w c)
    (scheduled : w.Scheduled) (ordered : w.Ordered)
    (ends : w.nap j = 0 → ended ∨ w.called j = true ∨ due = w.now → ended') :
    w'.OnTime j (due + w.nap j) ended' := by
  obtain ⟨a, here, civil, rest⟩ := h
  by_cases up : w.upNext? = some j
  · obtain ⟨x, w₂, here', turn⟩ := turns_of_upNext up scheduled on.step
    cases here.symm.trans here'
    obtain ⟨w₁, leaves, _⟩ := turn.leaves
    obtain ⟨poised, wakes⟩ := rest.resolve_left fun ⟨_, ceased, _⟩ => upNext?_alive up scheduled on.step ceased
    have now := poised.now wakes scheduled leaves
    obtain ⟨a', there, civil, rest⟩ := turn.atWork.attempt_goes turn.here civil poised (w.called j)
      (now.imp_left (·.trans (congrArg _ turn.now.symm)))
    have nap : w.nap j = a.nap (w.called j) w₂.session := turn.quiet.session ▸ nap_upNext here up
    have goes : w' = w₂.attemptTurn j a (w.called j) := turn.goes
    rw [goes, nap]
    exact ⟨a', there, civil, rest.imp_left fun ⟨mode, ceased, still⟩ =>
      ⟨mode, ceased, ends (nap.trans still) (.inr (now.symm.imp_left And.left))⟩⟩
  · have none := nap_apart up
    rw [none, add_zero]
    refine ⟨a, (on.apart shown scheduled).2 j _ up here (.attempt a), civil, ?_⟩
    rcases rest with ⟨mode, ceased, ended⟩ | ⟨poised, wakes⟩
    · exact .inl ⟨mode, step_ceased scheduled shown on.step ceased, ends none (.inl ended)⟩
    · exact .inr ⟨poised.step scheduled shown on.step up, wakes.step ordered scheduled shown on.step up⟩

end Step

end World
end BlockGraph
