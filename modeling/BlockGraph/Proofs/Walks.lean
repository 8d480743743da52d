import BlockGraph.Proofs.Shown
/-!
The turns of a traversal's task: each shows the next stage of the traversal, or a cut of it.
-/
namespace BlockGraph

/-- A length of time that an option allows for. -/
def Double.span (x : Double) : Span :=
  match x.units? with
  | some u => .ms (mkRat u unitsPerOne)
  | none => .forever

namespace World

variable {α : Type} {w w' : World α} {task : Nat} {k : Walk} {y : Work α} {s : Session}

/-- Whether no traversal of a world has given up the logic it waited for. -/
def Patient (w : World α) : Prop :=
  ∀ i k, w.work? i = some (.walk k) → ∀ attempt outOfTime, k.mode ≠ .abandoning attempt outOfTime

/-- Whether the task of a traversal has come to a stage, with a session beside it. -/
def Comes (task : Nat) (w w' : World α) (r : Stage × Session) : Prop :=
  ∃ k, Puts task (.walk k) r.2 w w' ∧ w'.stageOf k = some r.1

theorem busy_quiet (w : World α) (task : Nat) : Quiet w { w with busy? := some task } :=
  { Quiet.refl w with }

/-- A traversal goes on at once. -/
theorem walkOn_comes (there : w.work? task = some y) (s : Session) (t : Traversal) {mode : WalkMode}
    {st : Stage} (shown : ∀ w : World α, w.stageOf ⟨t, mode⟩ = some st) (old : WalkMode) :
    Comes task w ((w.withSession s).walkOn task ⟨t, old⟩ mode) (st, s) :=
  ⟨⟨t, mode⟩, (withWork_puts there _ s).quiet (busy_quiet _ _), shown _⟩

theorem walkOver_comes (there : w.work? task = some y) (s : Session) (e : WalkEnd) :
    Comes task w ((w.withSession s).walkOver task e) (.over e, s) := by
  refine ⟨⟨⟨[], []⟩, .over e⟩, (withWork_puts there _ s).finish fun k same => ?_, rfl⟩
  cases same
  exact ⟨e, rfl⟩

theorem sleep_comes (there : w.work? task = some y) (s : Session) (t : Traversal) {mode : WalkMode}
    {st : Stage} (shown : ∀ w : World α, w.stageOf ⟨t, mode⟩ = some st) (old : WalkMode)
    (length : Span) :
    Comes task w (((w.withSession s).walkMode task ⟨t, old⟩ mode).sleep task length) (st, s) :=
  ⟨⟨t, mode⟩, (withWork_puts there _ s).quiet (sleep_quiet _ _ _), shown _⟩

/-- The session after a move of a traversal. -/
theorem walkMove_session (w : World α) (i : Nat) (r : Move × Session) :
    (w.walkMove i r).session = (Stage.settle r).2 := by
  obtain ⟨m, s⟩ := r
  cases m with
  | wait p t => exact (schedule_quiet _ i _ _).session
  | delay id t => exact (sleep_quiet _ i _).session
  | _ => rfl

theorem walkMove_comes (there : w.work? task = some y) (r : Move × Session)
    (sound : (Stage.settle r).1.Sound (Stage.settle r).2) :
    Comes task w (w.walkMove task r) (Stage.settle r) := by
  obtain ⟨m, s⟩ := r
  cases m with
  | go t => exact walkOn_comes there s t (fun _ => rfl) .walking
  | wait p t =>
      have there : (w.withSession s).work? task = some y := there
      have known : p.Known (w.withSession s).session := sound.2.1
      obtain ⟨i, put, new⟩ := walkWait_puts there t known
      refine ⟨⟨t, .awaiting i⟩, { put with }, ?_⟩
      have found := (attempt?_eq _ i _).mpr new
      show (Option.map _ _) = _
      rw [walkMove, found]
      rfl
  | delay id t => exact sleep_comes there s t (fun _ => rfl) .walking _
  | finished => exact walkOn_comes there s ⟨[], []⟩ (fun _ => rfl) .walking
  | fail f t => exact walkOn_comes there (s.note (.failed f)) t (fun _ => rfl) .walking

theorem walkClosed_comes (there : w.work? task = some y) (t : Traversal) (e : WalkEnd)
    (r : Pause × Process × Session) (old : WalkMode) :
    Comes task w (w.walkClosed task ⟨t, old⟩ e r) (Stage.closed t e r) := by
  obtain ⟨pause, p, s⟩ := r
  cases pause with
  | item v => exact walkOn_comes there s t (fun _ => rfl) old
  | sleep length insists => exact sleep_comes there s t (fun _ => rfl) old length
  | ended how =>
      cases how with
      | interrupted => exact walkOver_comes there s .cancelled
      | _ => exact walkOn_comes there s t (fun _ => rfl) old

theorem walkTake_comes (there : w.work? task = some y) (k : Walk) {a : Attempt} {outOfTime : Bool}
    {yield : Yield} (ceased : a.mode = .over yield)
    (sound : (Stage.took k.traversal a outOfTime yield w.session).1.Sound
      (Stage.took k.traversal a outOfTime yield w.session).2) :
    Comes task w (w.walkTake task k a outOfTime)
      (Stage.took k.traversal a outOfTime yield w.session) := by
  obtain ⟨p, collected?, mode⟩ := a
  cases ceased
  have cancelled := fun (t : Traversal) =>
    walkOn_comes there w.session t (fun _ => (rfl : stageOf _ ⟨t, .unwinding .cancelled⟩ = _)) .walking
  cases yield with
  | items vs => exact walkOn_comes there w.session _ (fun _ => rfl) .walking
  | pause pause =>
      cases pause with
      | item v => exact walkMove_comes there _ sound
      | sleep length insists => exact walkMove_comes there _ sound
      | ended e =>
          cases e with
          | interrupted =>
              unfold walkTake
              unfold Stage.took at sound ⊢
              simp only at sound ⊢
              cases outOfTime with
              | false => exact cancelled _
              | true =>
                  simp only [if_true]
                  split
                  · rename_i frame outer stack
                    simp only [stack] at sound ⊢
                    exact walkMove_comes there _ sound
                  · rename_i stack
                    simp only [stack]
                    exact cancelled _
          | _ => exact walkMove_comes there _ sound

theorem walkUnwind_comes (there : w.work? task = some y) (t : Traversal) (e : WalkEnd)
    (old : WalkMode) : ∃ r, (Stage.unwinding t e).next w.session = some r ∧
      Comes task w (w.walkUnwind task ⟨t, old⟩ e) r := by
  obtain ⟨entries, stack⟩ := t
  cases stack with
  | nil => exact ⟨_, rfl, walkOver_comes there w.session e⟩
  | cons frame outer =>
      have on := walkOn_comes there w.session ⟨entries, outer⟩
        (fun _ => (rfl : stageOf _ ⟨⟨entries, outer⟩, .unwinding e⟩ = _)) old
      unfold Stage.next walkUnwind
      simp only
      cases frame.source with
      | stream p => exact ⟨_, rfl, walkClosed_comes there _ e (p.close w.session) old⟩
      | sequence p => exact ⟨_, rfl, walkClosed_comes there _ e (p.close w.session) old⟩
      | _ => exact ⟨_, rfl, on⟩

theorem opening_comes (there : w.work? task = some y) (k : Walk) (mode : k.mode = .opening) :
    ∃ r, Stage.opening.next w.session = some r ∧ Comes task w (w.walkTurn task k false) r := by
  unfold Stage.next walkTurn
  simp only [mode]
  cases w.session.opening with
  | mk opened s =>
      cases opened with
      | ok entries => exact ⟨_, rfl, walkOn_comes there s ⟨entries, []⟩ (fun _ => rfl) .walking⟩
      | error f => exact ⟨_, rfl, walkOver_comes there s (.failed f)⟩

/-! ### Turns of a traversal -/

/-- A turn of the traversal itself. -/
inductive Advances (calm : Prop) : Course → Course → Prop
  | rest (c : Course) : Advances calm c c
  | next {s s' : Session} {st st' : Stage} (ended : List Execution) :
      st.next s = some (st', s') → Advances calm ⟨s, st, ended⟩ ⟨s', st', ended⟩
  | cut {s s' : Session} {st st' : Stage} (ended : List Execution) : ¬calm →
      Cut st s st' s' → Advances calm ⟨s, st, ended⟩ ⟨s', st', ended⟩

theorem Advances.passes {calm : Prop} {c c' : Course} (h : Advances calm c c') : Passes calm c c' := by
  cases h with
  | rest => exact .rest c
  | next ended next => exact .next ended next
  | cut ended disturbed cut => exact .cut ended disturbed cut

/-- Whether a task works at an attempt that is over. -/
def AttemptOver (w : World α) (i : Nat) : Prop :=
  ∃ a y, w.work? i = some (.attempt a) ∧ a.mode = .over y

/-- What a turn of a traversal comes to: the course advances, and the task comes to work at the traversal as
it is then. One that is over stays as it is, and one that waits for logic goes on doing so until that is over,
unless it was disturbed and is torn down. -/
def Walked (calm : Prop) (task : Nat) (k : Walk) (w w' : World α) (c : Course) : Prop :=
  ∃ c' k', Advances calm c c' ∧ Shows none w' c' ∧ Puts task (.walk k') c'.session w w' ∧
    (∀ e, k.mode = .over e → k' = k) ∧ ∀ i, k.mode.awaits? = some i →
      k'.mode.awaits? = some i ∨ w.AttemptOver i ∨ ¬calm ∧ ∃ e, c'.stage.ending? = some e

section Turn

variable {c : Course} {calm : Prop}

/-- A quiet move comes before the turn. -/
theorem Walked.after {w₁ : World α} (h : Walked calm task k w₁ w' c) (q : Quiet w w₁)
    (awake : w₁.hasEnded task = true → w.hasEnded task = true) : Walked calm task k w w' c := by
  obtain ⟨c', k', advances, shown, put, ceased, left⟩ := h
  refine ⟨c', k', advances, shown, put.after q awake, ceased, fun i waits => ?_⟩
  refine (left i waits).imp_right (.imp_left fun ⟨a, y, here, ceased⟩ => ?_)
  exact ⟨a, y, (q.work i).symm.trans here, ceased⟩

/-- A traversal that is not over yet has come to a stage. -/
theorem Shows.came {except? : Option Nat} (h : Shows except? w c) (walk : w.walk? = some task)
    (here : w.work? task = some (.walk k)) : w.stageOf k = some c.stage := by
  have stage := h.stage
  unfold AtStage at stage
  rw [walk] at stage
  obtain ⟨k', here', shown⟩ := stage
  cases Option.some.inj (here.symm.trans here')
  exact shown

theorem Shows.comes (h : Shows none w c) (walk : w.walk? = some task)
    (here : w.work? task = some (.walk k)) (alive : ∀ e, k.mode ≠ .over e) {r : Stage × Session}
    (advances : Advances calm c ⟨r.2, r.1, c.ended⟩) {k' : Walk} (put : Puts task (.walk k') r.2 w w')
    (shown : w'.stageOf k' = some r.1) (left : ∀ i, k.mode.awaits? = some i →
      k'.mode.awaits? = some i ∨ w.AttemptOver i ∨ ¬calm ∧ ∃ e, r.1.ending? = some e) :
    Walked calm task k w w' c := by
  obtain ⟨sound, retains, runs, _⟩ := advances.passes.lasting h.sound
  refine ⟨_, k', advances, h.puts put sound retains runs.running rfl ?_ (.walk k') ?_ ?_, put,
    fun e ceased => absurd ceased (alive e), left⟩
  · unfold AtStage
    rw [put.walk?, walk]
    exact ⟨k', put.here, shown⟩
  · intro k'' same
    refine ⟨walk, Bool.eq_false_iff.mpr fun ceased => ?_⟩
    obtain ⟨e, ceased⟩ := h.walks task k here (.inr ceased)
    exact alive e ceased
  · intro a same
    cases same

/-- The next stage of a traversal. -/
theorem Shows.next (h : Shows none w c) (walk : w.walk? = some task)
    (here : w.work? task = some (.walk k)) (alive : ∀ e, k.mode ≠ .over e) {r : Stage × Session}
    (next : c.stage.next w.session = some r)
    (comes : r.1.Sound r.2 → Comes task w w' r)
    (left : ∀ i, k.mode.awaits? = some i → w.AttemptOver i) : Walked calm task k w w' c := by
  have advances : Advances calm c ⟨r.2, r.1, c.ended⟩ := .next c.ended (h.session ▸ next)
  obtain ⟨k', put, shown⟩ := comes (advances.passes.lasting h.sound).1.2
  exact h.comes walk here alive advances put shown fun i waits => .inr (.inl (left i waits))

/-- A traversal that is cut stops waiting only when it is torn down. -/
theorem Shows.cut (h : Shows none w c) (walk : w.walk? = some task)
    (here : w.work? task = some (.walk k)) (alive : ∀ e, k.mode ≠ .over e) (disturbed : ¬calm)
    {st' : Stage} {s' : Session} (cut : Cut c.stage w.session st' s') (comes : Comes task w w' (st', s'))
    (left : ∀ i, k.mode.awaits? = some i → ∃ e, st'.ending? = some e) : Walked calm task k w w' c := by
  have advances : Advances calm c ⟨s', st', c.ended⟩ := .cut c.ended disturbed (h.session ▸ cut)
  obtain ⟨k', put, shown⟩ := comes
  exact h.comes walk here alive advances put shown fun i waits => .inr (.inr ⟨disturbed, left i waits⟩)

/-- A traversal gives up the logic it waits for. -/
theorem walkAbandon_puts (there : w.work? task = some y) (t : Traversal) (old : WalkMode) (i : Nat)
    (outOfTime : Bool) : Puts task (.walk ⟨t, .abandoning i outOfTime⟩) w.session w
      (w.walkAbandon task ⟨t, old⟩ i outOfTime) := by
  have parked := w.park_quiet task
  have awake := w.park_awake task
  have there₁ := (parked.work task).trans there
  have put := withWork_puts there₁ (.walk ⟨t, .abandoning i outOfTime⟩) (w.park task).2.session
  have asleep : (w.park task).2.hasEnded task = true → w.hasEnded task = true := by
    rw [awake]
    exact nofun
  have given := (put.quiet (watch_quiet _ i [.release task (w.park task).1])).quiet (cancel_quiet _ i)
  exact parked.session ▸ given.after parked asleep

/-- Logic that is over is taken; other logic is not waited for any longer. -/
theorem walkTurn_awaiting {i : Nat} {a : Attempt} (t : Traversal) (found : w.attempt? i = some a)
    (cancelled : Bool) : w.walkTurn task ⟨t, .awaiting i⟩ cancelled =
      if (w.unschedule task).isOver i then
        (w.unschedule task).walkTake task ⟨t, .awaiting i⟩ a false
      else (w.unschedule task).walkAbandon task ⟨t, .awaiting i⟩ i (!cancelled) := by
  have kept : (w.unschedule task).attempt? i = some a := found
  unfold walkTurn
  simp only [kept]
  cases (w.unschedule task).isOver i <;> rfl

theorem Shows.walkAwaiting (h : Shows none w c) (walk : w.walk? = some task) {t : Traversal}
    {i : Nat} (here : w.work? task = some (.walk ⟨t, .awaiting i⟩)) (cancelled : Bool)
    (patient : calm → (w.walkTurn task ⟨t, .awaiting i⟩ cancelled).Patient) :
    Walked calm task ⟨t, .awaiting i⟩ w (w.walkTurn task ⟨t, .awaiting i⟩ cancelled) c := by
  have alive : ∀ e, WalkMode.awaiting i ≠ .over e := fun _ => nofun
  obtain ⟨a, found, stage⟩ := Option.map_eq_some_iff.mp (h.came walk here)
  have waiting := w.unschedule_quiet task
  have shown := h.quiet waiting
  have there := (waiting.work task).trans here
  rw [walkTurn_awaiting t found] at patient ⊢
  refine Walked.after ?_ waiting fun ceased => ceased
  have attempt : (w.unschedule task).work? i = some (.attempt a) := (attempt?_eq w i a).mp found
  split
  · cases mode : a.mode with
    | «over» yield =>
        have next : c.stage.next w.session = some (Stage.took t a false yield w.session) := by
          rw [← stage]
          unfold Stage.next
          simp only [mode]
          rfl
        refine shown.next walk there alive next (fun sound => walkTake_comes there _ mode sound) ?_
        intro j waits
        cases waits
        exact ⟨a, yield, attempt, mode⟩
    | _ =>
        unfold walkTake
        simp only [mode]
        exact ⟨c, _, .rest c, shown, shown.session ▸ .of_quiet there (.refl _), fun _ _ => rfl,
          fun _ => .inl⟩
  · rename_i working
    rw [if_neg working] at patient
    have given := walkAbandon_puts there t (.awaiting i) i (!cancelled)
    have disturbed : ¬calm := fun calm => patient calm task _ given.here i _ rfl
    have cut : Cut c.stage w.session (.awaiting t a (some !cancelled)) w.session :=
      stage ▸ .giveUp t a w.session _
    have other : i ≠ task := by
      intro same
      rw [same, there] at attempt
      cases attempt
    have advances : Advances calm c ⟨w.session, .awaiting t a (some !cancelled), c.ended⟩ :=
      .cut c.ended disturbed (h.session ▸ cut)
    refine shown.comes walk there alive (r := (.awaiting t a _, w.session)) advances given ?_ fun _ => .inl
    have found := (attempt?_eq _ i a).mpr (given.still other attempt)
    unfold stageOf
    simp only [found, Option.map_some]

theorem Shows.walkAbandoning (h : Shows none w c) (walk : w.walk? = some task) {t : Traversal}
    {i : Nat} {outOfTime : Bool} (here : w.work? task = some (.walk ⟨t, .abandoning i outOfTime⟩))
    (disturbed : ¬calm) : Walked calm task ⟨t, .abandoning i outOfTime⟩ w
      (w.walkTurn task ⟨t, .abandoning i outOfTime⟩ false) c := by
  have alive : ∀ e, WalkMode.abandoning i outOfTime ≠ .over e := fun _ => nofun
  obtain ⟨a, found, stage⟩ := Option.map_eq_some_iff.mp (h.came walk here)
  unfold walkTurn
  simp only [found]
  cases outOfTime with
  | false =>
      have cut : Cut c.stage w.session (.unwinding (t.withSource (sourceOf a)) .cancelled) w.session :=
        stage ▸ .leave t a _ _
      exact h.cut walk here alive disturbed cut (walkOn_comes here w.session _ (fun _ => rfl) .walking)
        fun _ _ => ⟨_, rfl⟩
  | true =>
      simp only [if_true]
      have attempt := (attempt?_eq w i a).mp found
      cases mode : a.mode with
      | «over» yield =>
          have next : c.stage.next w.session = some (Stage.took t a true yield w.session) := by
            rw [← stage]
            unfold Stage.next
            simp only [mode]
            rfl
          refine h.next walk here alive next (fun sound => walkTake_comes here _ mode sound) ?_
          intro j waits
          cases waits
          exact ⟨a, yield, attempt, mode⟩
      | _ =>
          unfold walkTake
          simp only [mode]
          exact ⟨c, _, .rest c, h, h.session ▸ .of_quiet here (.refl w), fun _ _ => rfl, fun _ => .inl⟩

/-- A turn of a traversal. One that is left to itself is never cancelled and gives up no logic. -/
theorem Shows.walkTurn (h : Shows none w c) (here : w.work? task = some (.walk k)) (cancelled : Bool)
    (undisturbed : calm → cancelled = false ∧ w.Patient ∧ (w.walkTurn task k cancelled).Patient) :
    Walked calm task k w (w.walkTurn task k cancelled) c := by
  by_cases ceased : ∃ e, k.mode = .over e
  · obtain ⟨t, mode⟩ := k
    obtain ⟨e, rfl⟩ := ceased
    exact ⟨c, _, .rest c, h, h.session ▸ .of_quiet here (.refl w), fun _ _ => rfl, fun _ => .inl⟩
  have alive : ∀ e, k.mode ≠ .over e := fun e ends => ceased ⟨e, ends⟩
  have walk : w.walk? = some task := Decidable.byContradiction fun other =>
    ceased (h.walks task k here (.inl other))
  have came := h.came walk here
  have disturbed : cancelled = true → ¬calm := by
    rintro rfl calm
    cases (undisturbed calm).1
  obtain ⟨t, mode⟩ := k
  have unwound : ∀ old, cancelled = true → c.stage.traversal = t →
      Walked calm task ⟨t, mode⟩ w (w.walkOn task ⟨t, old⟩ (.unwinding .cancelled)) c := by
    intro old cancelled same
    have cut : Cut c.stage w.session (.unwinding t .cancelled) w.session := same ▸ .cancel _ _
    exact h.cut walk here alive (disturbed cancelled) cut
      (walkOn_comes here w.session t (fun _ => rfl) old) fun _ _ => ⟨_, rfl⟩
  cases mode with
  | «over» e => exact absurd rfl (alive e)
  | awaiting i => exact h.walkAwaiting walk here cancelled fun calm => (undisturbed calm).2.2
  | opening =>
      have stage : Stage.opening = c.stage := Option.some.inj came
      cases cancelled with
      | true =>
          have cut : Cut c.stage w.session (.over .cancelled) w.session := stage ▸ .refuse _
          exact h.cut walk here alive (disturbed rfl) cut (walkOver_comes here w.session .cancelled) fun _ => nofun
      | false =>
          obtain ⟨r, next, comes⟩ := opening_comes here ⟨t, .opening⟩ rfl
          exact h.next walk here alive (stage ▸ next) (fun _ => comes) fun _ => nofun
  | walking =>
      have stage : Stage.walking t = c.stage := Option.some.inj came
      cases cancelled with
      | true => exact unwound .walking rfl (stage ▸ rfl)
      | false =>
          have next : c.stage.next w.session = some (Stage.settle (t.step w.session)) := stage ▸ rfl
          exact h.next walk here alive next (walkMove_comes here _) fun _ => nofun
  | abandoning i outOfTime =>
      cases cancelled with
      | true =>
          obtain ⟨a, _, stage⟩ := Option.map_eq_some_iff.mp came
          exact unwound (.abandoning i outOfTime) rfl (stage ▸ rfl)
      | false =>
          exact h.walkAbandoning walk here fun calm => (undisturbed calm).2.1 task _ here i outOfTime rfl
  | delaying id =>
      have stage : Stage.delaying t id = c.stage := Option.some.inj came
      cases cancelled with
      | true => exact unwound (.delaying id) rfl (stage ▸ rfl)
      | false =>
          have next : c.stage.next w.session = some (.walking t, w.session.completed id) := stage ▸ rfl
          exact h.next walk here alive next (walkMove_comes here (.go t, w.session.completed id))
            fun _ => nofun
  | unwinding e =>
      have stage : Stage.unwinding t e = c.stage := Option.some.inj came
      cases cancelled with
      | true => exact unwound (.unwinding e) rfl (stage ▸ rfl)
      | false =>
          obtain ⟨r, next, comes⟩ := walkUnwind_comes here t e (.unwinding e)
          exact h.next walk here alive (stage ▸ next) (fun _ => comes) fun _ => nofun
  | closing p insists? e =>
      have stage : Stage.closing t p insists? e = c.stage := Option.some.inj came
      cases cancelled with
      | false =>
          have next : c.stage.next w.session = some (Stage.closed t e (p.resume w.session)) := stage ▸ rfl
          cases insists? <;>
            exact h.next walk here alive next (fun _ => walkClosed_comes here t e _ _) fun _ => nofun
      | true =>
          cases insists? with
          | some length =>
              have cut : Cut c.stage w.session (.closing t p none e) w.session :=
                stage ▸ .insistClosing t p length e _
              exact h.cut walk here alive (disturbed rfl) cut
                (sleep_comes here w.session t (fun _ => rfl) _ length) fun _ => nofun
          | none =>
              have cut : Cut c.stage w.session (Stage.closed t e (p.interrupt w.session)).1
                  (Stage.closed t e (p.interrupt w.session)).2 := stage ▸ .interruptClosing t p e _
              exact h.cut walk here alive (disturbed rfl) cut (walkClosed_comes here t e _ _) fun _ => nofun

end Turn

end World
end BlockGraph
