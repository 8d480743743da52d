import BlockGraph.Proofs.Endings
/-!
The execution order of a run only ever grows, and only a traversal that visits adds to it.
-/
namespace BlockGraph

/-- Whether one session comes of another in the same run, with no element taken out of the execution
order. -/
structure Session.Grows (s s' : Session) : Prop where
  running : s'.running = s.running
  size : s'.stores.size = s.stores.size
  order : s.processed <+: s'.processed

namespace Session.Grows

theorem refl (s : Session) : s.Grows s := ⟨rfl, rfl, List.prefix_rfl⟩

theorem trans {s₁ s₂ s₃ : Session} (h : s₁.Grows s₂) (h' : s₂.Grows s₃) : s₁.Grows s₃ where
  running := h'.running.trans h.running
  size := h'.size.trans h.size
  order := h.order.trans h'.order

theorem of_eq {s s' : Session} (running : s'.running = s.running) (size : s'.stores.size = s.stores.size)
    (order : s'.processed = s.processed) : s.Grows s' := ⟨running, size, order ▸ List.prefix_rfl⟩

theorem kept {s s' : Session} (h : Kept s s') : s.Grows s' := of_eq h.running h.size h.processed

theorem run {s s' : Session} (h : s.Grows s') : s'.run = s.run := congrArg (· - 1) h.size

end Session.Grows

section Deeds

variable {s s' : Session}

theorem Deeds.grows (h : Deeds s s') (running : s.running = true) : s.Grows s' :=
  .kept (h.kept_of_running running)

theorem Session.hears_grows (s : Session) (e : Event) : s.Grows (s.hears e) := by
  unfold hears
  split <;> exact .of_eq rfl rfl rfl

theorem Session.note_grows (s : Session) (x : Happening) : s.Grows (s.note x) := .of_eq rfl rfl rfl

theorem Session.traversing_grows (s : Session) (c : Connection) : s.Grows (s.traversing c) :=
  (s.note_grows _).trans (hears_grows _ _)

theorem Session.completing_grows (s : Session) (id : String) : s.Grows (s.completing id) :=
  (s.note_grows _).trans (hears_grows _ _)

theorem Session.starting_grows (s : Session) (id : String) : s.Grows (s.starting id) where
  running := by
    unfold starting hears
    split <;> rfl
  size := starting_size id
  order := by
    rw [starting_processed]
    exact List.prefix_append _ _

theorem Session.completing_processed (s : Session) (id : String) :
    (s.completing id).processed = s.processed := hears_processed _

/-- An element is over, between deeds. -/
theorem Deeds.completes {s₁ : Session} {id : String} (before : Deeds s s₁)
    (after : Deeds (s₁.completing id) s') (running : s.running = true) :
    s.Grows s' ∧ s'.processed = s.processed := by
  have first := (before.grows running).trans (s₁.completing_grows id)
  have last := after.kept_of_running (first.running.trans running)
  refine ⟨first.trans (.kept last), ?_⟩
  rw [last.processed, Session.completing_processed]
  exact (before.kept_of_running running).processed

end Deeds

/-! ### Traversals -/

namespace Traversal

variable {t : Traversal} {s s' : Session} {m : Move}

theorem Visited.grows {id : String} (h : t.Visited s id m s') : s.Grows s' := by
  cases h with
  | failed f _ kept => exact (s.starting_grows id).trans (.kept kept)
  | started frame _ kept _ _ _ => exact (s.starting_grows id).trans (.kept kept)
  | _ => exact .of_eq rfl rfl rfl

theorem Moved.grows (h : t.Moved s m s') (running : s.running = true) : s.Grows s' := by
  cases h with
  | entered id _ _ _ _ visited => exact (s.note_grows _).trans visited.grows
  | traversed _ _ c _ _ _ _ kept visited =>
      exact (s.traversing_grows c).trans ((Session.Grows.kept kept).trans visited.grows)
  | went _ _ _ _ _ deeds _ => exact deeds.grows running
  | recorded _ _ _ e _ _ deeds _ =>
      exact (deeds.grows running).trans (.of_eq rfl (Session.withSlots_size _ _ _) rfl)
  | ended _ _ _ _ before after => exact (before.completes after running).1
  | delayed _ _ _ _ deeds _ => exact deeds.grows running
  | failed _ _ deeds _ _ => exact deeds.grows running
  | _ => exact .refl s

/-- When nothing is left to fire, a move adds nothing to the execution order. -/
theorem Moved.still (h : t.Moved s m s') {frame : Frame} {outer : List Frame} (stack : t.stack = frame :: outer)
    (rest : frame.pending = []) (running : s.running = true) : s'.processed = s.processed := by
  have kept : ∀ {s₁ : Session}, Deeds s s₁ → s₁.processed = s.processed := fun deeds =>
    (deeds.kept_of_running running).processed
  cases h with
  | entered _ _ none _ _ _ => rw [stack] at none; cases none
  | traversed _ _ _ _ here pending _ _ _ =>
      cases stack.symm.trans here
      rw [rest] at pending
      cases pending
  | went _ _ _ _ _ deeds _ => exact kept deeds
  | @recorded frame _ _ e s₁ _ _ deeds _ =>
      have same : (s₁.record frame.element.id e).processed = s₁.processed := rfl
      exact same.trans (kept deeds)
  | ended _ _ _ _ before after => exact (before.completes after running).2
  | delayed _ _ _ _ deeds _ => exact kept deeds
  | failed _ _ deeds _ _ => exact kept deeds
  | _ => rfl

end Traversal

/-- A failure of a traversal is noted, and that is all. -/
theorem Stage.settle_grows (r : Move × Session) : r.2.Grows (Stage.settle r).2 := by
  obtain ⟨m, s⟩ := r
  cases m with
  | fail f t => exact s.note_grows _
  | _ => exact .refl s

theorem Goes.grows {s s' : Session} {st st' : Stage} (h : Goes s st st' s') (running : s.running = true) :
    s.Grows s' := by
  cases h with
  | opened deeds => exact deeds.grows running
  | barred _ deeds _ _ => exact deeds.grows running
  | @moved _ m s₁ moved => exact (moved.grows running).trans (Stage.settle_grows (m, s₁))
  | @answered _ _ _ m s₁ moved => exact (moved.grows running).trans (Stage.settle_grows (m, s₁))
  | worked deeds _ => exact deeds.grows running
  | delayed before after => exact (before.completes after running).1
  | torn _ deeds _ _ => exact deeds.grows running
  | cancelled _ => exact .refl s

/-- A traversal that is not walking adds nothing to the execution order. -/
theorem Goes.still {s s' : Session} {st st' : Stage} (h : Goes s st st' s') (sound : st.Sound s)
    (running : s.running = true) (halts : ∀ t, st ≠ .walking t) : s'.processed = s.processed := by
  have kept : ∀ {s₁ : Session}, Deeds s s₁ → s₁.processed = s.processed := fun deeds =>
    (deeds.kept_of_running running).processed
  cases h with
  | opened deeds => exact kept deeds
  | barred _ deeds _ _ => exact kept deeds
  | moved _ => exact absurd rfl (halts _)
  | @answered _ _ _ m s' moved =>
      obtain ⟨_, _, frame, outer, stack, rest⟩ := sound
      have settled : (Stage.settle (m, s')).2.processed = s'.processed := by cases m <;> rfl
      exact settled.trans (moved.still stack rest running)
  | worked deeds _ => exact kept deeds
  | delayed before after => exact (before.completes after running).2
  | torn _ deeds _ _ => exact kept deeds
  | cancelled _ => rfl

section Passes

variable {calm : Prop} {c c' : Course}

theorem Passes.grows (h : Passes calm c c') (sound : c.Sound) (running : c.session.running = true) :
    c.session.Grows c'.session := by
  cases h with
  | rest => exact .refl _
  | next _ next => exact (Stage.next_goes sound.1 sound.2 next).grows running
  | cut _ _ cut => exact (cut.goes sound.2).grows running
  | aside _ _ _ deeds => exact deeds.grows running

theorem Passes.still (h : Passes calm c c') (sound : c.Sound) (running : c.session.running = true)
    (halts : ∀ t, c.stage ≠ .walking t) : c'.session.processed = c.session.processed := by
  cases h with
  | rest => rfl
  | next _ next => exact (Stage.next_goes sound.1 sound.2 next).still sound.2 running halts
  | cut _ _ cut => exact (cut.goes sound.2).still sound.2 running halts
  | aside _ _ _ deeds => exact (deeds.kept_of_running running).processed

end Passes

/-! ### Steps within a run -/

/-- A beat goes on with the run, or the session is made to forget it. -/
theorem Beat.goesOn {s s' : Session} (h : Beat s s') : s.Grows s' ∨ Forgotten s s' := by
  cases h with
  | deed d => exact d.kept.imp_left .kept
  | traversed c _ _ => exact .inl (s.traversing_grows c)
  | turned id _ _ => exact .inl ⟨rfl, rfl, List.prefix_append _ _⟩
  | started id _ => exact .inl ((s.note_grows _).trans (Session.hears_grows _ _))
  | opened id => exact .inl (.of_eq rfl (s.withSlots_size _ _) rfl)
  | recorded id e => exact .inl (.of_eq rfl (s.withSlots_size _ _) rfl)
  | completed id => exact .inl (s.completing_grows id)
  | _ => exact .inl (.of_eq rfl rfl rfl)

theorem Beats.grows {s s' : Session} (h : Beats s s') (running : s.running = true) : s.Grows s' := by
  induction h with
  | refl => exact .refl s
  | tail _ beat ih =>
      rcases beat.goesOn with grows | gone
      · exact ih.trans grows
      · exact absurd (gone.idle.symm.trans (ih.running.trans running)) nofun

/-- A session goes on running, or not to run, and never comes back to an earlier run. -/
theorem Beat.onwards {s s' : Session} (h : Beat s s') :
    s'.running = s.running ∧ s.stores.size ≤ s'.stores.size := by
  rcases h.goesOn with grows | gone
  · exact ⟨grows.running, Nat.le_of_eq grows.size.symm⟩
  · exact ⟨gone.running.trans gone.idle.symm, Nat.le_of_lt gone.size⟩

theorem Lulls.onwards {s s' : Session} (h : Lulls s s') :
    s'.running = s.running ∧ s.stores.size ≤ s'.stores.size := by
  induction h with
  | refl => exact ⟨rfl, Nat.le_refl _⟩
  | @tail s₁ s₂ _ lull ih =>
      have more : s₂.running = s₁.running ∧ s₁.stores.size ≤ s₂.stores.size := by
        cases lull with
        | spoiled options listener => exact ⟨rfl, by simp [Session.cleared]⟩
        | beat beat => exact beat.onwards
      exact ⟨more.1.trans ih.1, Nat.le_trans ih.2 more.2⟩

/-- A session that is taken for a run begins a new one. -/
theorem Session.taken_size (s : Session) (options : Options) (listener : Listener) (bindings : Entries) :
    (s.taken options listener bindings).stores.size = s.stores.size + 1 :=
  (s.taken_kept options listener bindings).size.trans (Array.size_push [])

namespace World

variable {α : Type} {task : Nat} {w w' : World α} {c : Course}

/-- A step of a world within a run. -/
structure StepsOn (w w' : World α) : Prop where
  running : w.session.running = true
  step : w.step = some w'
  still : w'.session.running = true
  run : w'.session.run = w.session.run

/-- Any number of steps within a run. -/
abbrev LeadsOn : World α → World α → Prop := Relation.ReflTransGen StepsOn

/-- A world that has what came of a session that does not run is not in the run of it. -/
theorem Lapses.elsewhere {s : Session} (lapses : w.Lapses s) (idle : s.running = false)
    (stored : 0 < s.stores.size) (running : w.session.running = true) : w.session.run ≠ s.run := by
  obtain ⟨s', lulls, has⟩ := lapses
  obtain ⟨running', size⟩ := lulls.onwards
  rcases has with same | ⟨options, listener, bindings, same⟩
  · rw [same, running', idle] at running
    cases running
  · have later := s'.taken_size options listener bindings
    rw [same, Session.run, Session.run, later]
    omega

/-- A step within a run is made of beats. -/
theorem StepsOn.beats (on : w.StepsOn w') (h : Shows none w c) (settled : w.session.Settled) :
    Beats w.session w'.session := by
  rcases step_goesOnOrEnds h on.step on.running settled with beats | ⟨e, _, ⟨s, how, same⟩, lapses⟩
  · exact beats
  · have size : e.session.stores.size = w.session.stores.size := by
      rw [same]
      exact (how.kept on.running).size
    have stored : 0 < e.session.stores.size := size ▸ h.session ▸ h.sound.1
    have run : e.session.run = w.session.run := congrArg (· - 1) size
    exact absurd (on.run.trans run.symm) (lapses.elsewhere (same ▸ rfl) stored on.still)

/-- Block logic rests in its turn, goes on or is interrupted. -/
theorem attemptTurn_session {a : Attempt} (here : w.work? task = some (.attempt a)) (cancelled : Bool) :
    (w.attemptTurn task a cancelled).session = w.session ∨
      (w.attemptTurn task a cancelled).session = (a.process.resume w.session).2.2 ∨
      (w.attemptTurn task a cancelled).session = (a.process.interrupt w.session).2.2 := by
  unfold attemptTurn
  split
  · exact .inl rfl
  · exact .inl (sleep_quiet _ _ _).session
  · exact .inr (.inr (attemptPaused_puts here a _).session)
  · exact .inl ((withWork_puts here _ w.session).finish (Work.attempt_rests _)).session
  · exact .inr (.inl (attemptPaused_puts here a _).session)

/-- Block logic that goes on does deeds. -/
theorem attemptTurn_deeds {a : Attempt} (here : w.work? task = some (.attempt a))
    (known : a.process.Known w.session) (cancelled : Bool) :
    Deeds w.session (w.attemptTurn task a cancelled).session := by
  rcases attemptTurn_session here cancelled with same | same | same
  · exact same ▸ .refl
  · exact same ▸ a.process.resume_deeds known
  · exact same ▸ a.process.interrupt_deeds known

/-- Within a run, nothing that a world does waits for an execution. -/
theorem Shows.unwaiting (h : Shows none w c) {x : Work α} (here : w.work? task = some x) (cancelled : Bool)
    (running : w.session.running = true) (still : (w.works task x cancelled).session.running = true)
    (run : (w.works task x cancelled).session.run = w.session.run) : x.pending? = none := by
  cases x with
  | walk k => rfl
  | attempt a => rfl
  | runner m =>
      cases m with
      | pending p =>
          have turning : Shows (some task) w c := h.except fun x there => by
            cases Option.some.inj (here.symm.trans there)
            exact Work.runner_outer _
          have waits : w.pending? task = some p := by rw [World.pending?, here]; rfl
          obtain ⟨s', _, _, after⟩ := turning.concludes (h.waiting waits).2.1 cancelled
          have quiet := (w.conclude task p cancelled).2.runnerOver_quiet task (w.conclude task p cancelled).1
          have idle := congrArg Session.running (quiet.session.trans after)
          cases still.symm.trans idle
      | _ => rfl
  | caller k =>
      have proper : ∀ x ∈ k.commands, x.Proper := h.proper task _ here
      obtain ⟨commands, mode, started⟩ := k
      cases mode with
      | executing p =>
          have turning : Shows (some task) w c := h.except fun x there => by
            cases Option.some.inj (here.symm.trans there)
            exact Work.caller_outer _
          have waits : w.pending? task = some p := by rw [World.pending?, here]; rfl
          obtain ⟨s', how, _, after⟩ := turning.concludes (h.waiting waits).2.1 cancelled
          have kept := how.kept running
          have turn : w.works task (.caller ⟨commands, .executing p, started⟩) cancelled =
            ((w.conclude task p cancelled).2.reply (.executed (w.conclude task p cancelled).1)).command task
              started commands := rfl
          rw [turn] at still run
          generalize w.conclude task p cancelled = r at after still run
          obtain ⟨e, w'⟩ := r
          have idle : (w'.reply (.executed e)).session.running = false := congrArg Session.running after
          have size : (w'.reply (.executed e)).session.stores.size = w.session.stores.size :=
            (congrArg (·.stores.size) after).trans kept.size
          have stored : 0 < (w'.reply (.executed e)).session.stores.size := size ▸ h.session ▸ h.sound.1
          have lapses := command_lapses commands proper (w'.reply (.executed e)) task started idle
          exact absurd (run.trans (congrArg (· - 1) size.symm)) (lapses.elsewhere idle stored still)
      | _ => rfl

/-- What a task does within a run adds to the execution order, or leaves it. -/
theorem Shows.works_grows (h : Shows none w c) {x : Work α} (here : w.work? task = some x) (cancelled : Bool)
    (running : w.session.running = true) (free : x.pending? = none) :
    w.session.Grows (w.works task x cancelled).session := by
  have passed : x.Inner → w.session.Grows (w.works task x cancelled).session := by
    intro inner
    obtain ⟨c', passes, shown⟩ := h.works_passes here cancelled inner
    exact h.session ▸ shown.session ▸ passes.grows h.sound (h.session ▸ running)
  cases x with
  | caller k => exact (w.callerTurn_deeds task free (h.proper task _ here) cancelled running).grows running
  | runner m => exact (w.runnerTurn_deeds task free cancelled running).grows running
  | walk k => exact passed (.walk k)
  | attempt a => exact passed (.attempt a)

/-- A traversal walks just when its task does. -/
theorem stageOf_walking {k : Walk} {t : Traversal} (h : w.stageOf k = some (.walking t)) :
    k = ⟨t, .walking⟩ := by
  obtain ⟨t', mode⟩ := k
  cases mode with
  | walking => cases h; rfl
  | awaiting i =>
      obtain ⟨_, _, other⟩ := Option.map_eq_some_iff.mp h
      cases other
  | abandoning i outOfTime =>
      obtain ⟨_, _, other⟩ := Option.map_eq_some_iff.mp h
      cases other
  | _ => cases h

/-- Only a traversal that walks adds to the execution order. -/
theorem Shows.works_still (h : Shows none w c) {x : Work α} (here : w.work? task = some x) (cancelled : Bool)
    (running : w.session.running = true) (free : x.pending? = none)
    (halts : ∀ t, x ≠ .walk ⟨t, .walking⟩ ∨ cancelled = true) :
    (w.works task x cancelled).session.processed = w.session.processed := by
  have kept : ∀ {s : Session}, Deeds w.session s → s.processed = w.session.processed := fun deeds =>
    (deeds.kept_of_running running).processed
  cases x with
  | caller k => exact kept (w.callerTurn_deeds task free (h.proper task _ here) cancelled running)
  | runner m => exact kept (w.runnerTurn_deeds task free cancelled running)
  | attempt a => exact kept (attemptTurn_deeds here (h.session ▸ h.known task a here) cancelled)
  | walk k =>
      by_cases walk : w.walk? = some task
      · by_cases walks : ∃ t, k = ⟨t, .walking⟩
        · obtain ⟨t, rfl⟩ := walks
          rcases halts t with other | rfl
          · exact absurd rfl other
          · rfl
        · have came := h.came walk here
          obtain ⟨c', _, advances, shown, _⟩ :=
            (h.walkTurn here cancelled False.elim : Walked False task k w (w.walkTurn task k cancelled) c)
          have still := advances.passes.still h.sound (h.session ▸ running) fun t same =>
            walks ⟨t, stageOf_walking (same ▸ came)⟩
          rw [← h.session, ← shown.session] at still
          exact still
      · obtain ⟨e, ceased⟩ := h.walks task k here (.inl walk)
        obtain ⟨t, mode⟩ := k
        cases ceased
        rfl

/-! ### Within a run of a world -/

section Run

variable {graph : Graph} {registry : Registry} {draws : List Double} {commands : List (Command α)}

theorem LeadsOn.leads (on : w.LeadsOn w') : w.Leads w' :=
  Relation.ReflTransGen.mono (fun _ _ step => step.step) _ _ on

theorem LeadsOn.running (on : w.LeadsOn w') (running : w.session.running = true) :
    w'.session.running = true := by
  induction on with
  | refl => exact running
  | tail _ step _ => exact step.still

theorem StepsOn.grows (step : w.StepsOn w') (h : Shows none w c) : w.session.Grows w'.session := by
  rcases h.step_works step.step with quiet | ⟨w₁, task, x, cancelled, quiet, shown, here, rfl⟩
  · rw [quiet.session]
    exact .refl _
  · have same := quiet.session
    have free := shown.unwaiting here cancelled (same ▸ step.running) step.still (same ▸ step.run)
    exact same ▸ shown.works_grows here cancelled (same ▸ step.running) free

theorem LeadsOn.grows (on : w.LeadsOn w') (h : Shows none w c) : w.session.Grows w'.session := by
  induction on with
  | refl => exact .refl _
  | tail on step ih =>
      obtain ⟨_, _, shown⟩ := h.leads (LeadsOn.leads on)
      exact ih.trans (step.grows shown)

/-- What is counted and what is told of a run agree in every world that comes of a new session. -/
theorem Leads.settled (steps : (ofCommands (Session.ofGraph graph registry draws) commands).Leads w)
    (proper : ∀ x ∈ commands, x.Proper) (running : w.session.running = true) :
    ∃ c, Shows none w c ∧ w.session.Settled := by
  obtain ⟨c, shown, holds⟩ := World.Leads.shows ((lifecycle_law graph).and (budget_law graph)) proper steps
  obtain ⟨lifecycle, budgeted⟩ := holds.here (holds.started (shown.session ▸ running))
  exact ⟨c, shown, shown.session ▸ budgeted.settled lifecycle⟩

/-- What holds when a session has just been taken for a run, and is kept by every step within one, holds
whenever a run is in progress. -/
theorem Leads.induct_running {P : World α → Prop} (proper : ∀ x ∈ commands, x.Proper)
    (begun : ∀ {w : World α} (s : Session) (options : Options) (listener : Listener) (bindings : Entries),
      (ofCommands (Session.ofGraph graph registry draws) commands).Leads w →
      w.session = s.taken options listener bindings → P w)
    (goes : ∀ {w w' : World α}, (ofCommands (Session.ofGraph graph registry draws) commands).Leads w →
      w.StepsOn w' → P w → P w')
    (steps : (ofCommands (Session.ofGraph graph registry draws) commands).Leads w)
    (running : w.session.running = true) : P w := by
  have stored : 0 < (Session.ofGraph graph registry draws).stores.size := Nat.succ_pos 0
  induction steps with
  | refl => cases running
  | @tail w₁ w₂ steps step ih =>
      have taken : ∀ {s}, w₂.Lapses s → s.running = false → P w₂ := by
        rintro s ⟨s', lulls, same | ⟨options, listener, bindings, same⟩⟩ idle
        · rw [same, lulls.onwards.1, idle] at running
          cases running
        · exact begun s' options listener bindings (steps.tail step) same
      cases before : w₁.session.running with
      | false =>
          obtain ⟨c, _, shown⟩ := (ofCommands_shows stored proper).leads steps
          exact taken (step_lapses shown step before) before
      | true =>
          obtain ⟨c, shown, settled⟩ := Leads.settled steps proper before
          rcases step_goesOnOrEnds shown step before settled with beats | ⟨e, _, ⟨s, _, same⟩, lapses⟩
          · obtain ⟨still, run⟩ := beats.sameRun before
            exact goes steps ⟨before, step, still, run⟩ (ih before)
          · exact taken lapses (same ▸ rfl)

/-- All that goes on in a run is made of beats. -/
theorem LeadsOn.beats (on : w.LeadsOn w')
    (steps : (ofCommands (Session.ofGraph graph registry draws) commands).Leads w)
    (proper : ∀ x ∈ commands, x.Proper) : Beats w.session w'.session := by
  induction on with
  | refl => exact .refl
  | @tail w₁ w₂ on step ih =>
      obtain ⟨c, shown, settled⟩ := Leads.settled (steps.trans (LeadsOn.leads on)) proper step.running
      exact ih.trans (step.beats shown settled)

end Run

end World

end BlockGraph
