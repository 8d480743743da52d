import BlockGraph.Proofs.Naps
import BlockGraph.Proofs.Notices
import BlockGraph.Proofs.Verdicts
/-!
Waiting for logic. A traversal comes to wait only when it asks for logic to be started, and from then on it is patient
for as long as blocks may take, while the logic takes as long as it sleeps.
-/
namespace BlockGraph
namespace World

variable {α : Type} {w w₀ w₁ w₂ w' : World α} {c c₁ : Course} {i j : Nat} {t t' : Traversal} {mode : WalkMode}
  {y : Work α}

/-! ### Coming to wait -/

/-- A traversal that waits shows so. -/
theorem AwaitsFor.stage (awaits : w.AwaitsFor i t j) (h : Shows none w c) :
    ∃ a, w.work? j = some (.attempt a) ∧ c.stage = .awaiting t a none := by
  obtain ⟨a, found, stage⟩ := Option.map_eq_some_iff.mp (h.came awaits.1 awaits.2)
  exact ⟨a, (attempt?_eq _ _ _).mp found, stage.symm⟩

theorem AwaitsFor.atStage (awaits : w.AwaitsFor i t j) {st : Stage} (stage : w.AtStage st) :
    ∃ a, st = .awaiting t a none := by
  unfold AtStage at stage
  rw [awaits.1] at stage
  obtain ⟨k, here, stage⟩ := stage
  cases Option.some.inj (awaits.2.symm.trans here)
  obtain ⟨a, _, rfl⟩ := Option.map_eq_some_iff.mp stage
  exact ⟨a, rfl⟩

/-- Whether a world is one in which a traversal has just asked for logic to be started. -/
def Asks (i : Nat) (w w' : World α) : Prop := ∃ s t p, w' = (w.withSession s).walkWait i t p

theorem walkMove_asks (there : w.work? i = some y) (walk : w.walk? = some i) (r : Move × Session)
    (sound : (Stage.settle r).1.Sound (Stage.settle r).2) (awaits : (w.walkMove i r).AwaitsFor i t j) :
    w.Asks i (w.walkMove i r) := by
  obtain ⟨a, waits⟩ := awaits.atStage ((walkMove_comes there r sound).atStage walk)
  obtain ⟨m, s⟩ := r
  cases m with
  | wait p t' => exact ⟨s, t', p, rfl⟩
  | _ => cases waits

/-- A traversal that is torn down waits for nothing. -/
theorem walkOn_unawaited (there : w.work? i = some y) (walk : w.walk? = some i) (t' : Traversal) (old : WalkMode)
    (e : WalkEnd) : ¬(w.walkOn i ⟨t', old⟩ (.unwinding e)).AwaitsFor i t j := by
  intro awaits
  obtain ⟨a, waits⟩ := awaits.atStage ((walkOn_comes there w.session t' (fun _ => rfl) old).atStage walk)
  cases waits

/-- Nor does one that takes what logic came to. -/
theorem walkTake_unawaited (h : Shows none w c) (there : w.work? i = some y) (walk : w.walk? = some i) {a : Attempt}
    {given? : Option Bool} (stage : c.stage = .awaiting t a given?) (old : WalkMode) (outOfTime : Bool)
    {yield : Yield} (ceased : a.mode = .over yield) : ¬(w.walkTake i ⟨t, old⟩ a outOfTime).AwaitsFor i t' j := by
  intro awaits
  have sound : (Stage.awaiting t a given?).Sound w.session := stage ▸ h.session ▸ h.sound.2
  have comes := walkTake_comes there ⟨t, old⟩ ceased ((took_goes sound outOfTime yield).sound sound).1
  obtain ⟨b, waits⟩ := awaits.atStage (comes.atStage walk)
  exact Stage.took_unwaiting _ _ _ _ _ _ _ _ waits

/-- A traversal waits after its turn only when it has asked for logic to be started, or waits for a task that is
over. -/
theorem walkTurn_asks (h : Shows none w c) (walk : w.walk? = some i) (here : w.work? i = some (.walk ⟨t, mode⟩))
    (cancelled : Bool) (awaits : (w.walkTurn i ⟨t, mode⟩ cancelled).AwaitsFor i t' j) :
    w.Asks i (w.walkTurn i ⟨t, mode⟩ cancelled) ∨
      mode = .awaiting j ∧ w.standing? j = some .over ∧
        ∃ a, w.work? j = some (.attempt a) ∧ ∀ y, a.mode ≠ .over y := by
  have came := h.came walk here
  have unwound : ∀ old, ¬(w.walkOn i ⟨t, old⟩ (.unwinding .cancelled)).AwaitsFor i t' j := fun old =>
    walkOn_unawaited here walk t old .cancelled
  obtain ⟨c', k', advances, shown, put, _⟩ : Walked False i ⟨t, mode⟩ w _ c := h.walkTurn here cancelled nofun
  obtain ⟨a', _, waits⟩ := awaits.stage shown
  cases mode with
  | opening =>
      exact absurd waits ((advances.passes.patient (.inl (Option.some.inj came).symm)).1 _ _ _)
  | delaying id =>
      exact absurd waits ((advances.passes.patient (.inr ⟨t, id, (Option.some.inj came).symm⟩)).1 _ _ _)
  | walking =>
      cases cancelled with
      | true => exact absurd awaits (unwound .walking)
      | false =>
          have next : c.stage.next c.session = some (Stage.settle (t.step w.session)) := by
            rw [← Option.some.inj came, h.session]
            rfl
          have sound := ((Stage.next_goes h.sound.1 h.sound.2 next).sound h.sound.2).1
          exact .inl (walkMove_asks here walk (t.step w.session) sound awaits)
  | awaiting k =>
      obtain ⟨a, found, stage⟩ := Option.map_eq_some_iff.mp came
      have attempt : w.work? k = some (.attempt a) := (attempt?_eq _ _ _).mp found
      have waiting := w.unschedule_quiet i
      rw [walkTurn_awaiting t found] at awaits
      split at awaits
      · rename_i ceased
        cases mode : a.mode with
        | «over» yield =>
            exact absurd awaits
              (walkTake_unawaited (h.quiet waiting) here walk stage.symm (.awaiting k) false mode)
        | _ =>
            unfold walkTake at awaits
            simp only [mode] at awaits
            cases Option.some.inj (awaits.2.symm.trans here)
            refine .inr ⟨rfl, (isOver_iff w attempt).mp ceased, a, attempt, fun y same => ?_⟩
            cases mode.symm.trans same
      · have given := walkAbandon_puts (w := w.unschedule i) here t (.awaiting k) k (!cancelled)
        cases given.here.symm.trans awaits.2
  | abandoning k outOfTime =>
      obtain ⟨a, found, stage⟩ := Option.map_eq_some_iff.mp came
      cases cancelled with
      | true => exact absurd awaits (unwound (.abandoning k outOfTime))
      | false =>
          unfold walkTurn at awaits
          simp only [found] at awaits
          split at awaits
          · cases mode : a.mode with
            | «over» yield =>
                exact absurd awaits (walkTake_unawaited h here walk stage.symm (.abandoning k outOfTime) true mode)
            | _ =>
                unfold walkTake at awaits
                simp only [mode] at awaits
                cases here.symm.trans awaits.2
          · exact absurd awaits (walkOn_unawaited here walk _ .walking .cancelled)
  | unwinding e | closing p insists? e | «over» e =>
      have ends : c.stage.ending? = some e := by
        rw [← Option.some.inj came]
        rfl
      rcases advances.passes.ending h.sound ends with same | same <;> rw [waits] at same <;> cases same

/-! ### Runs of civil logic -/

/-- What is known of every world of a run of civil logic. -/
structure Peaceful (w : World α) (c : Course) : Prop where
  shown : Shows none w c
  scheduled : w.Scheduled
  ordered : w.Ordered
  settled : w.session.Settled
  staffed : w.Staffed 0
  attended : ∃ i p, w.pending? i = some p ∧ w.Heeds i p.walk
  civil : c.stage.Civil

theorem Peaceful.civil_attempt (h : w.Peaceful c) (awaits : w.AwaitsFor i t j) {a : Attempt}
    (here : w.work? j = some (.attempt a)) : a.process.Civil := by
  obtain ⟨b, here', stage⟩ := awaits.stage h.shown
  cases here.symm.trans here'
  exact h.civil _ (stage ▸ List.mem_append_left _ List.mem_cons_self)

/-- How long blocks may take in a world. -/
def allows (w : World α) : WithTop ℚ := w.session.options.blockTimeout.span.time

theorem Peaceful.allows (h : w.Peaceful c) (on : w.StepsOn w') : w'.allows = w.allows := by
  unfold World.allows
  rw [(on.beats h.shown h.settled).options on.running]

/-! ### Waiting -/

/-- Whether a traversal waits for logic that it asked for at some moment, and that has wanted to sleep for some time
since. It waits no longer than it may, and the logic is on time. -/
structure Waiting (w : World α) (i : Nat) (t : Traversal) (j : Nat) (since : Rat) (slept limit : WithTop ℚ)
    (off : Prop) : Prop where
  awaits : w.AwaitsFor i t j
  began : since ≤ w.now
  patient : w.WakesBy i (since + limit)
  works : w.OnTime j (since + slept) (slept ≤ limit ∨ off)

variable {since : Rat} {slept limit : WithTop ℚ} {off : Prop} {p : Process}

/-- Logic that is asked for has not slept. -/
theorem AtWork.asks_waiting (h : w.AtWork i) (walk : w.walk? = some i) (t : Traversal) (civil : p.Civil) :
    (w.walkWait i t p).Waiting i t w.tasks.size (w.walkWait i t p).now 0 w.allows off := by
  let length := w.session.options.blockTimeout.span
  let x : Work α := .walk ⟨t, .awaiting w.tasks.size⟩
  have now : (w.ask i (.attempt (.ofProcess p)) x w.walk? length).now = w.now := schedule_now _ i _ _
  have known : (w.ask i (.attempt (.ofProcess p)) x w.walk? length).walk? = w.walk? := (schedule_quiet _ i _ _).walk?
  have line := w.ask_inLine i (.attempt (.ofProcess p)) x w.walk? length
  rw [walkWait_eq]
  constructor
  case awaits => exact ⟨known.trans walk, h.ask_work _ _ _ _⟩
  case began => exact le_refl _
  case patient =>
    rw [now]
    exact h.ask_wakes (.attempt (.ofProcess p)) x w.walk? length
  case works =>
    rw [add_zero]
    exact ⟨_, h.ask_started _ _ _ _, civil, .inr ⟨.fresh (le_refl _), le_refl _, .inl (.inl (.inr line))⟩⟩

/-- A step that is not a turn of the traversal. -/
theorem Waiting.step (h : w.Waiting i t j since slept limit off) (peaceful : w.Peaceful c) (on : w.StepsOn w')
    (apart : w.upNext? ≠ some i) (calls : w.called j = true → off) :
    w'.Waiting i t j since (slept + w.nap j) limit off := by
  obtain ⟨shown, scheduled, ordered, _⟩ := peaceful
  obtain ⟨walk, still⟩ := on.apart shown scheduled
  constructor
  case awaits => exact ⟨walk.trans h.awaits.1, still i _ apart h.awaits.2 (.walk _)⟩
  case began => exact le_trans h.began (step_now scheduled shown on.step)
  case patient => exact h.patient.step ordered scheduled shown on.step apart
  case works =>
    rw [← add_assoc]
    refine h.works.step on shown scheduled ordered fun none ended => ?_
    rw [none, add_zero]
    rcases ended with ended | called | now
    · exact ended
    · exact .inr (calls called)
    · exact .inl (WithTop.le_of_add_le_add_left WithTop.coe_ne_top (now ▸ h.patient.1))

/-- A traversal that waits after its turn has just asked for logic, if what it waited for before was on time. -/
theorem Turns.waiting (turn : w.Turns i (.walk ⟨t, mode⟩) w₂ w') (walk : w.walk? = some i) (peaceful : w.Peaceful c)
    (peaceful' : w'.Peaceful c₁) (works : ∀ k, mode = .awaiting k → ∃ due ended, w.OnTime k due ended)
    (awaits : w'.AwaitsFor i t' j) : w'.Waiting i t' j w'.now 0 w'.allows off ∧ w.work? j = none := by
  have goes : w' = w₂.walkTurn i ⟨t, mode⟩ (w.called i) := turn.goes
  have walk₂ := turn.quiet.walk?.trans walk
  obtain ⟨s, t₁, p, asks⟩ : w₂.Asks i w' := by
    rw [goes] at awaits ⊢
    refine (walkTurn_asks (peaceful.shown.quiet turn.quiet) walk₂ turn.here _ awaits).resolve_right ?_
    rintro ⟨waits, ceased, b, here, working⟩
    obtain ⟨due, ended, a, attempt, _, rest⟩ := works j waits
    cases ((turn.quiet.work j).trans attempt).symm.trans here
    obtain ⟨_, wakes⟩ := rest.resolve_left fun ⟨⟨y, mode⟩, _⟩ => working y mode
    refine wakes.alive peaceful.scheduled ((turn.others j fun same => ?_).symm.trans ceased)
    subst same
    cases turn.here.symm.trans here
  have atWork : (w₂.withSession s).AtWork i := Act.atWork (.session s) turn.atWork
  have session : w'.session = s := asks ▸ (schedule_quiet _ i _ _).session
  have here : w'.work? i = some (.walk ⟨t₁, .awaiting w₂.tasks.size⟩) := by
    rw [asks, walkWait_eq]
    exact atWork.ask_work _ _ _ _
  have new : w'.work? w₂.tasks.size = some (.attempt (.ofProcess p)) := by
    rw [asks, walkWait_eq]
    exact atWork.ask_started _ _ _ _
  cases awaits.2.symm.trans here
  refine ⟨?_, (turn.quiet.work _).symm.trans w₂.work_size⟩
  have civil : p.Civil := peaceful'.civil_attempt awaits new
  have waiting : ((w₂.withSession s).walkWait i t' p).Waiting i t' _ _ 0 _ off := atWork.asks_waiting walk₂ t' civil
  have allows : (w₂.withSession s).allows = w'.allows := by
    unfold World.allows
    rw [session]
    rfl
  rwa [← asks, allows] at waiting

/-- A traversal that still waits for the same logic has not had its turn. -/
theorem Waiting.apart (h : w.Waiting i t j since slept limit off) (peaceful : w.Peaceful c)
    (peaceful' : w'.Peaceful c₁) (on : w.StepsOn w') (awaits : w'.AwaitsFor i t' j) : w.upNext? ≠ some i := by
  intro up
  obtain ⟨x, w₂, here, turn⟩ := turns_of_upNext up peaceful.scheduled on.step
  cases h.awaits.2.symm.trans here
  have works : ∀ k, WalkMode.awaiting j = .awaiting k → ∃ due ended, w.OnTime k due ended := fun k same => by
    cases same
    exact ⟨_, _, h.works⟩
  obtain ⟨a, attempt, _⟩ := h.works
  have waiting : w'.Waiting i t' j w'.now 0 w'.allows True ∧ w.work? j = none :=
    turn.waiting h.awaits.1 peaceful peaceful' works awaits
  cases waiting.2.symm.trans attempt

/-- Whether a traversal that waits does so as it should. -/
def Attentive (w : World α) : Prop :=
  ∀ i t j, w.AwaitsFor i t j → ∃ since slept, w.Waiting i t j since slept w.allows True

/-- A step within a run leaves its traversal attentive. -/
theorem Attentive.step (h : w.Attentive) (peaceful : w.Peaceful c) (peaceful' : w'.Peaceful c₁)
    (on : w.StepsOn w') : w'.Attentive := by
  intro i t j awaits
  obtain ⟨walk?, still⟩ := on.apart peaceful.shown peaceful.scheduled
  have walk := walk?.symm.trans awaits.1
  obtain ⟨⟨t₀, mode⟩, here⟩ : ∃ k, w.work? i = some (.walk k) := by
    have stage := peaceful.shown.stage
    unfold AtStage at stage
    rw [walk] at stage
    exact stage.imp fun _ found => found.1
  by_cases up : w.upNext? = some i
  · obtain ⟨x, w₂, here', turn⟩ := turns_of_upNext up peaceful.scheduled on.step
    cases here.symm.trans here'
    have works : ∀ k, mode = .awaiting k → ∃ due ended, w.OnTime k due ended := fun k same => by
      subst same
      obtain ⟨_, _, waiting⟩ := h i t₀ k ⟨walk, here⟩
      exact ⟨_, _, waiting.works⟩
    exact ⟨_, _, (turn.waiting walk peaceful peaceful' works awaits).1⟩
  · cases (still i _ up here (.walk _)).symm.trans awaits.2
    obtain ⟨since, slept, waiting⟩ := h i t j ⟨walk, here⟩
    exact ⟨since, _, peaceful.allows on ▸ waiting.step peaceful on up fun _ => trivial⟩

/-! ### Runs -/

section Run

variable {graph : Graph} {registry : Registry} {draws : List Double} {commands : List (Command α)}

/-- An execution waits for a run that is under way. -/
theorem Leads.attended (steps : (ofCommands (Session.ofGraph graph registry draws) commands).Leads w)
    (handles : ∀ x ∈ commands, x.Handles) (running : w.session.running = true) :
    ∃ i p, w.pending? i = some p ∧ w.Heeds i p.walk := by
  have stored : 0 < (Session.ofGraph graph registry draws).stores.size := Nat.succ_pos 0
  by_contra unattended
  have free : ∀ i, w.pending? i = none := fun i => Option.eq_none_iff_forall_ne_some.mpr fun p waits =>
    unattended ⟨i, p, waits, steps.heeds stored (fun x member => (handles x member).proper) waits⟩
  have sound := (Leads.posted handles steps).sound (Ledger.ofGraph_sound graph registry draws commands)
  have waiting := sound.waiting
  rw [waiting_ledger free] at waiting
  have waiting : 0 = w.session.running.toNat := waiting
  rw [running] at waiting
  cases waiting

/-- A run of elements whose logic is civil. -/
theorem LeadsOn.peaceful (on : w.LeadsOn w')
    (steps : (ofCommands (Session.ofGraph graph registry draws) commands).Leads w)
    (handles : ∀ x ∈ commands, x.Handles) (running : w.session.running = true) (opening : w.AtStage .opening)
    (civil : ∀ w₁, w.LeadsOn w₁ → w₁.session.Civil) : ∃ c, w'.Peaceful c := by
  have stored : 0 < (Session.ofGraph graph registry draws).stores.size := Nat.succ_pos 0
  have proper : ∀ x ∈ commands, x.Proper := fun x member => (handles x member).proper
  have peaceful : ∀ {w₁ c}, w.LeadsOn w₁ → Shows none w₁ c → c.stage.Civil → ∃ c, w₁.Peaceful c := by
    intro w₁ c on shown civil
    have steps₁ := steps.trans (LeadsOn.leads on)
    have running₁ := LeadsOn.running on running
    obtain ⟨c', shown', settled⟩ := Leads.settled steps₁ proper running₁
    exact ⟨c, shown, Leads.scheduled steps₁ stored proper, Leads.ordered steps₁ stored proper, settled,
      Leads.staffed steps₁ stored proper, Leads.attended steps₁ handles running₁, civil⟩
  induction on with
  | refl =>
      obtain ⟨c, _, shown⟩ := (ofCommands_shows stored proper).leads steps
      refine peaceful .refl shown ?_
      rw [AtStage.unique shown.stage opening]
      exact nofun
  | @tail w₁ w₂ on step ih =>
      obtain ⟨c, here⟩ := ih
      obtain ⟨c', shown, ⟨same, _⟩ | passes⟩ := step.passes here.shown
      · exact peaceful (Relation.ReflTransGen.tail on step) shown (same ▸ here.civil)
      · have known : c.session.Civil := here.shown.session ▸ civil w₁ on
        exact peaceful (Relation.ReflTransGen.tail on step) shown (passes.civil here.shown.sound.1 known here.civil)

/-- In a run of elements whose logic is civil the traversal waits as it should. -/
theorem LeadsOn.attentive (on : w.LeadsOn w')
    (steps : (ofCommands (Session.ofGraph graph registry draws) commands).Leads w)
    (handles : ∀ x ∈ commands, x.Handles) (running : w.session.running = true) (opening : w.AtStage .opening)
    (civil : ∀ w₁, w.LeadsOn w₁ → w₁.session.Civil) : w'.Attentive := by
  induction on with
  | refl =>
      intro i t j awaits
      obtain ⟨a, waits⟩ := awaits.atStage opening
      cases waits
  | @tail w₁ w₂ on step ih =>
      obtain ⟨c, here⟩ := LeadsOn.peaceful on steps handles running opening civil
      obtain ⟨c', there⟩ := LeadsOn.peaceful (Relation.ReflTransGen.tail on step) steps handles running opening civil
      exact ih.step here there step

end Run

end World
end BlockGraph
