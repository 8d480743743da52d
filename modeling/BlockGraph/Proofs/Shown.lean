import BlockGraph.Proofs.Course
import BlockGraph.Proofs.Tasks
/-!
Worlds show courses: whatever tasks are at work in a world, there is one session, at most one traversal
that is not over, and an execution that waits for it. Each turn of a task is a turn of the course.
-/
namespace BlockGraph

/-! ### What callers are held to -/

/-- Options that were accepted. -/
def Options.Valid (o : Options) : Prop := ∃ given, Options.ofGiven given = .ok o

namespace Options

theorem limitedInt_pos {limit : Nat} {v : Value} {n : Int} (h : limitedInt limit v = .ok n) : 0 < n := by
  unfold limitedInt at h
  cases read : Lenient.int v with
  | error p => rw [read] at h; cases h
  | ok m =>
      simp only [read, bind, Except.bind] at h
      split at h
      · cases h
      · split at h
        · cases h
        · rename_i above
          cases h
          exact Int.not_le.mp above

theorem read_of_default {α : Type} {P : α → Prop} {reader : Value → Except Problem α} {default : α}
    (given : Given) (name : String) (chosen : P default) (accepted : ∀ v a, reader v = .ok a → P a) :
    P (read given name reader default).1 := by
  unfold read
  split
  · exact chosen
  · simp only
    split
    · rename_i a ok
      exact accepted _ a ok
    · exact chosen

/-- Accepted options allow for at least one step. -/
theorem Valid.budget {o : Options} (h : o.Valid) : 0 < o.maxSteps := by
  obtain ⟨given, accepted⟩ := h
  have budget : 0 < (read given "max_steps" (limitedInt Settings.maxStepsLimit) default.maxSteps).1 :=
    read_of_default given "max_steps" (by decide) fun _ _ => limitedInt_pos
  unfold ofGiven at accepted
  simp only at accepted
  split at accepted
  · cases accepted
    exact budget
  · cases accepted

end Options

/-- A request whose options, if it has any, were accepted. -/
def Request.Proper (r : Request) : Prop := ∀ options, r.options = .ok options → options.Valid

/-- A command that leaves the run to the run: what a caller does to a session are deeds. -/
def Command.Proper {α : Type} : Command α → Prop
  | .act f => ∀ s, Deeds s (f s).2
  | .execute r | .start r => r.Proper
  | _ => True

/-- A task that has nothing else left to do. -/
def Work.Proper {α : Type} : Work α → Prop
  | .caller c => ∀ command ∈ c.commands, command.Proper
  | .runner (.fresh r) => r.Proper
  | _ => True

/-! ### Passing turns -/

theorem Passes.lasting {calm : Prop} {c c' : Course} (h : Passes calm c c') (sound : c.Sound) :
    c'.Sound ∧ c.session.Retains c'.session ∧ c.session.RunsOn c'.session ∧ c'.ended = c.ended := by
  have gone : ∀ {st' : Stage} {s' : Session}, Goes c.session c.stage st' s' →
      Course.Sound ⟨s', st', c.ended⟩ ∧ c.session.Retains s' ∧ c.session.RunsOn s' := by
    intro st' s' goes
    obtain ⟨sound', retains⟩ := goes.sound sound.2
    exact ⟨⟨Nat.lt_of_lt_of_le sound.1 retains.size, sound'⟩, retains, goes.runsOn⟩
  cases h with
  | rest => exact ⟨sound, ⟨Nat.le_refl _, fun known => known⟩, .of_eq rfl rfl rfl, rfl⟩
  | next ended next =>
      obtain ⟨sound', retains, runs⟩ := gone (Stage.next_goes sound.1 sound.2 next)
      exact ⟨sound', retains, runs, rfl⟩
  | cut ended _ cut =>
      obtain ⟨sound', retains, runs⟩ := gone (cut.goes sound.2)
      exact ⟨sound', retains, runs, rfl⟩
  | aside st ended _ deeds =>
      have retains := deeds.retains
      exact ⟨⟨Nat.lt_of_lt_of_le sound.1 retains.size, sound.2.retains retains⟩, retains, deeds.runsOn,
        rfl⟩

namespace World

variable {α : Type}

/-- The stage that a traversal has come to. -/
def stageOf (w : World α) (k : Walk) : Option Stage :=
  match k.mode with
  | .opening => some .opening
  | .walking => some (.walking k.traversal)
  | .awaiting i => (w.attempt? i).map (.awaiting k.traversal · none)
  | .abandoning i outOfTime => (w.attempt? i).map (.awaiting k.traversal · (some outOfTime))
  | .delaying id => some (.delaying k.traversal id)
  | .unwinding e => some (.unwinding k.traversal e)
  | .closing p insists? e => some (.closing k.traversal p insists? e)
  | .over e => some (.over e)

/-- Whether the traversal of a world has come to a stage. Before the first run it is over. -/
def AtStage (w : World α) (st : Stage) : Prop :=
  match w.walk? with
  | none => st = .over .normal
  | some i => ∃ k, w.work? i = some (.walk k) ∧ w.stageOf k = some st

/-- Whether an execution has ended, as its caller was told or will be when it joins. -/
def Ended (w : World α) (e : Execution) : Prop :=
  .executed e ∈ w.replies ∨ ∃ i, w.execution? i = some e

/-- Whether a world shows a course. The task that has its turn may be left out: it no longer waits for
what it waited for. -/
structure Shows (except? : Option Nat) (w : World α) (c : Course) : Prop where
  session : w.session = c.session
  sound : c.Sound
  stage : w.AtStage c.stage
  walks : ∀ i k, w.work? i = some (.walk k) → w.walk? ≠ some i ∨ w.hasEnded i = true →
    ∃ e, k.mode = .over e
  known : ∀ i a, w.work? i = some (.attempt a) → a.process.Known c.session
  pending : ∀ i p, except? ≠ some i → w.pending? i = some p →
    c.session.running = true ∧ w.walk? = some p.walk
  single : ∀ i j p q, except? ≠ some i → except? ≠ some j → w.pending? i = some p →
    w.pending? j = some q → i = j
  ended : ∀ e, w.Ended e → e ∈ c.ended
  proper : ∀ i x, w.work? i = some x → x.Proper
  outer : ∀ i x, except? = some i → w.work? i = some x → ¬x.Inner

theorem attempt?_eq (w : World α) (i : Nat) (a : Attempt) :
    w.attempt? i = some a ↔ w.work? i = some (.attempt a) := by
  unfold attempt? work?
  cases w.tasks[i]? with
  | none => exact ⟨nofun, nofun⟩
  | some t =>
      obtain ⟨work, _, _, _⟩ := t
      cases work <;> simp

theorem execution?_eq (w : World α) (i : Nat) (e : Execution) :
    w.execution? i = some e ↔ w.work? i = some (.runner (.over e)) := by
  unfold execution? work?
  cases w.tasks[i]? with
  | none => exact ⟨nofun, nofun⟩
  | some t =>
      obtain ⟨work, _, _, _⟩ := t
      cases work with
      | runner m => cases m <;> simp
      | _ => simp

/-- The stage of a traversal hangs on no other task than the one it waits for. -/
theorem stageOf_of_attempts {w w' : World α} {k : Walk} {st : Stage}
    (same : ∀ i a, k.mode.awaits? = some i → w.work? i = some (.attempt a) →
      w'.work? i = some (.attempt a))
    (h : w.stageOf k = some st) : w'.stageOf k = some st := by
  have found : ∀ i a, k.mode.awaits? = some i → w.attempt? i = some a → w'.attempt? i = some a :=
    fun i a waits here => (attempt?_eq w' i a).mpr (same i a waits ((attempt?_eq w i a).mp here))
  unfold stageOf at h ⊢
  split <;> rename_i mode <;> simp only [mode] at h
  all_goals first
    | exact h
    | (obtain ⟨a, here, rfl⟩ := Option.map_eq_some_iff.mp h
       rw [found _ a (by rw [mode]; rfl) here]
       rfl)

/-- A world whose runs go on with the same tasks is at the same stage. -/
theorem AtStage.of_work {w w' : World α} {st : Stage} (h : w.AtStage st) (walk : w'.walk? = w.walk?)
    (work : ∀ i x, x.Inner → w.work? i = some x → w'.work? i = some x) : w'.AtStage st := by
  unfold AtStage at h ⊢
  rw [walk]
  split
  · rename_i none
    rwa [none] at h
  · rename_i i some
    rw [some] at h
    obtain ⟨k, here, shown⟩ := h
    exact ⟨k, work i _ (.walk k) here, stageOf_of_attempts (fun j a _ => work j _ (.attempt a)) shown⟩

/-- A traversal that waits for block logic is at a stage with it. -/
theorem stageOf_awaiting {w : World α} {k : Walk} {st : Stage} {i : Nat} {a : Attempt}
    (waits : k.mode.awaits? = some i) (here : w.work? i = some (.attempt a))
    (h : w.stageOf k = some st) : ∃ given?, st = .awaiting k.traversal a given? ∧
      ∀ (w' : World α) a', w'.work? i = some (.attempt a') →
        w'.stageOf k = some (.awaiting k.traversal a' given?) := by
  have found : ∀ (w : World α) a, w.work? i = some (.attempt a) → w.attempt? i = some a :=
    fun w a here => (attempt?_eq w i a).mpr here
  have here := found w a here
  obtain ⟨t, mode⟩ := k
  cases mode with
  | awaiting j =>
      cases waits
      simp only [stageOf, here, Option.map_some, Option.some.injEq] at h
      refine ⟨none, h.symm, fun w' a' here' => ?_⟩
      simp only [stageOf, found w' a' here', Option.map_some]
  | abandoning j outOfTime =>
      cases waits
      simp only [stageOf, here, Option.map_some, Option.some.injEq] at h
      refine ⟨some outOfTime, h.symm, fun w' a' here' => ?_⟩
      simp only [stageOf, found w' a' here', Option.map_some]
  | _ => cases waits

namespace Shows

variable {except? : Option Nat} {w w' : World α} {c c' : Course}

/-- A quiet move shows the same course. -/
theorem quiet (h : Shows except? w c) (q : Quiet w w') : Shows except? w' c where
  session := q.session.trans h.session
  sound := h.sound
  stage := h.stage.of_work q.walk? fun i x _ old => (q.work i).trans old
  walks := by
    intro i k here away
    rw [q.work] at here
    rw [q.walk?] at away
    rcases away with other | ceased
    · exact h.walks i k here (.inl other)
    · rcases q.ended i ceased with old | rests
      · exact h.walks i k here (.inr old)
      · exact rests _ here k rfl
  known i a here := h.known i a ((q.work i).symm.trans here)
  pending := by
    intro i p apart here
    rw [q.walk?]
    exact h.pending i p apart ((q.pending i).symm.trans here)
  single i j p q' apart apart' here here' :=
    h.single i j p q' apart apart' ((q.pending i).symm.trans here) ((q.pending j).symm.trans here')
  ended := by
    rintro e (replied | ⟨i, here⟩)
    · exact h.ended e (.inl (q.replies ▸ replied))
    · rw [execution?_eq, q.work] at here
      exact h.ended e (.inr ⟨i, (execution?_eq w i e).mpr here⟩)
  proper i x here := h.proper i x ((q.work i).symm.trans here)
  outer i x turn here := h.outer i x turn ((q.work i).symm.trans here)

/-- A turn of a traversal, or of block logic, shows a course when the session and the stage do. -/
theorem puts {task : Nat} {x : Work α} (h : Shows none w c) (put : Puts task x c'.session w w')
    (sound : c'.Sound) (retains : c.session.Retains c'.session)
    (running : c'.session.running = c.session.running) (ended : c'.ended = c.ended)
    (stage : w'.AtStage c'.stage) (inner : x.Inner)
    (awake : ∀ k, x = .walk k → w.walk? = some task ∧ w.hasEnded task = false)
    (known : ∀ a, x = .attempt a → a.process.Known c'.session) : Shows none w' c' where
  session := put.session
  sound := sound
  stage := stage
  walks := by
    intro i k here away
    rw [put.walk?] at away
    by_cases turn : i = task
    · subst turn
      have same : x = .walk k := Option.some.inj (put.here.symm.trans here)
      obtain ⟨walk, alive⟩ := awake k same
      rcases away with other | ceased
      · exact absurd walk other
      · rcases put.ended i ceased with old | rests
        · rw [alive] at old
          cases old
        · exact rests _ here k rfl
    · rcases put.others i turn with old | ⟨_, a, new, _⟩
      · rw [old] at here
        rcases away with other | ceased
        · exact h.walks i k here (.inl other)
        · rcases put.ended i ceased with older | rests
          · exact h.walks i k here (.inr older)
          · exact rests _ (old.trans here) k rfl
      · rw [new] at here
        cases here
  known := by
    intro i a here
    by_cases turn : i = task
    · subst turn
      exact known a (Option.some.inj (put.here.symm.trans here))
    · rcases put.others i turn with old | ⟨_, a', new, known, _⟩
      · exact retains.knows (h.known i a (old.symm.trans here))
      · cases Option.some.inj (new.symm.trans here)
        exact known
  pending := by
    intro i p apart here
    have old : w.pending? i = some p := put.pending inner here
    obtain ⟨on, walk⟩ := h.pending i p apart old
    exact ⟨running.trans on, put.walk?.trans walk⟩
  single i j p q apart apart' here here' :=
    h.single i j p q apart apart' (put.pending inner here) (put.pending inner here')
  ended := by
    rintro e (replied | ⟨i, here⟩)
    · exact ended ▸ h.ended e (.inl (put.replies ▸ replied))
    · rcases put.outer inner ((execution?_eq w' i e).mp here) with within | old
      · cases within
      · exact ended ▸ h.ended e (.inr ⟨i, (execution?_eq w i e).mpr old⟩)
  proper := by
    intro i y here
    rcases put.outer inner here with within | old
    · cases within <;> exact trivial
    · exact h.proper i y old
  outer := by
    intro i y turn
    cases turn

end Shows

/-! ### Turns of block logic -/

/-- Whether the traversal of a world waits for a task. -/
def Awaits (w : World α) (task : Nat) : Prop :=
  ∃ i k, w.walk? = some i ∧ w.work? i = some (.walk k) ∧ k.mode.awaits? = some task

/-- What a turn of block logic comes to: the course passes, and the task comes to work at the attempt as
it is then, in the context that it was started in. An attempt that is over stays as it is. -/
def Worked (calm : Prop) (task : Nat) (a : Attempt) (w w' : World α) (c : Course) : Prop :=
  ∃ c' a', Passes calm c c' ∧ Shows none w' c' ∧ Puts task (.attempt a') c'.session w w' ∧
    (∀ y, a.mode = .over y → a' = a) ∧ a'.process.context = a.process.context

section Attempts

variable {w w' : World α} {c : Course} {task : Nat} {a a' : Attempt}

/-- Logic that has gone on shows in the stage of the traversal that waits for it. Other logic has done
deeds beside the run. -/
theorem Shows.worked {calm : Prop} (h : Shows none w c) {s' : Session}
    (here : w.work? task = some (.attempt a)) (put : Puts task (.attempt a') s' w w')
    (deeds : Deeds c.session s') (known : a'.process.Known s')
    (same : a'.process.context = a.process.context)
    (goes : ∀ t given?, (Stage.awaiting t a given?).next c.session = some (.awaiting t a' given?, s') ∨
      ¬calm ∧ Cut (.awaiting t a given?) c.session (.awaiting t a' given?) s')
    (alive : ∀ y, a.mode ≠ .over y) (awaited : calm → w.Awaits task) : Worked calm task a w w' c := by
  obtain ⟨s, st, ended⟩ := c
  have shown : ∀ st', Passes calm ⟨s, st, ended⟩ ⟨s', st', ended⟩ → w'.AtStage st' →
      Worked calm task a w w' ⟨s, st, ended⟩ := by
    intro st' passes stage
    obtain ⟨sound, retains, runs, _⟩ := passes.lasting h.sound
    have put : Puts task (.attempt a') (⟨s', st', ended⟩ : Course).session w w' := put
    refine ⟨_, a', passes, h.puts put sound retains runs.running rfl stage (.attempt a') ?_ ?_, put,
      fun y ceased => absurd ceased (alive y), same⟩
    · intro k same
      cases same
    · intro b same
      cases same
      exact known
  have stage := h.stage
  unfold AtStage at stage
  cases walk : w.walk? with
  | none =>
      rw [walk] at stage
      have disturbed : ¬calm := fun calm => by
        obtain ⟨i, k, some, _⟩ := awaited calm
        rw [walk] at some
        cases some
      refine shown st (.aside st ended disturbed deeds) ?_
      unfold AtStage
      rwa [put.walk?, walk]
  | some i =>
      rw [walk] at stage
      obtain ⟨k, at_, stageOf⟩ := stage
      have other : i ≠ task := by
        intro same
        rw [same, here] at at_
        cases at_
      by_cases waits : k.mode.awaits? = some task
      · obtain ⟨given?, rfl, after⟩ := stageOf_awaiting waits here stageOf
        refine shown (.awaiting k.traversal a' given?) ?_ ?_
        · rcases goes k.traversal given? with next | ⟨disturbed, cut⟩
          · exact .next ended next
          · exact .cut ended disturbed cut
        · unfold AtStage
          rw [put.walk?, walk]
          exact ⟨k, put.still other at_, after w' a' put.here⟩
      · have disturbed : ¬calm := fun calm => by
          obtain ⟨i', k', walk', at', waits'⟩ := awaited calm
          cases Option.some.inj (walk.symm.trans walk')
          cases Option.some.inj (at_.symm.trans at')
          exact waits waits'
        refine shown st (.aside st ended disturbed deeds) ?_
        unfold AtStage
        rw [put.walk?, walk]
        refine ⟨k, put.still other at_, stageOf_of_attempts (fun j b waits' old => ?_) stageOf⟩
        exact put.still (fun same => waits (same ▸ waits')) old

theorem attemptPaused_puts {y : Work α} (there : w.work? task = some y) (a : Attempt)
    (r : Pause × Process × Session) :
    Puts task (.attempt (a.paused r.1 r.2.1)) r.2.2 w (w.attemptPaused task a r) := by
  obtain ⟨pause, p, s⟩ := r
  obtain ⟨q, collected?, mode⟩ := a
  have put := fun a => withWork_puts there (.attempt a) s
  have busy : ∀ w' : World α, Quiet w' { w' with busy? := some task } := fun w' => { Quiet.refl w' with }
  have ceased : ∀ y, Puts task (.attempt ⟨p, collected?, .over y⟩) s w
      ((w.withSession s).attemptOver task ⟨p, collected?, mode⟩ y) := fun y =>
    (put ⟨p, collected?, .over y⟩).finish (Work.attempt_rests _)
  cases pause with
  | item v =>
      cases collected? with
      | some collected => exact (put _).quiet (busy _)
      | none => exact ceased _
  | sleep length insists => exact (put _).quiet (sleep_quiet _ _ _)
  | ended e => cases e <;> cases collected? <;> exact ceased _

/-- A turn of block logic. A run that is left to itself has no logic at work but what is waited for. -/
theorem Shows.attemptTurn {calm : Prop} (h : Shows none w c) (here : w.work? task = some (.attempt a))
    (cancelled : Bool)
    (undisturbed : calm → cancelled = false ∧ (w.Awaits task ∨ ∃ y, a.mode = .over y)) :
    Worked calm task a w (w.attemptTurn task a cancelled) c := by
  have known : a.process.Known w.session := h.session ▸ h.known task a here
  have awaited : (∀ y, a.mode ≠ .over y) → calm → w.Awaits task := fun alive calm =>
    (undisturbed calm).2.resolve_right fun ⟨y, ceased⟩ => alive y ceased
  have resumed : (∀ y, a.mode ≠ .over y) →
      Worked calm task a w (w.attemptPaused task a (a.process.resume w.session)) c := by
    intro alive
    have deeds := a.process.resume_deeds known
    have context := a.process.resume_context w.session
    refine h.worked here (attemptPaused_puts here a _) (h.session ▸ deeds) ?_ ?_ ?_ alive (awaited alive)
    · rw [Attempt.paused_process]
      exact (known.of_context context).deeds deeds
    · rw [Attempt.paused_process]
      exact context
    · intro t given?
      left
      rw [← h.session]
      unfold Stage.next
      simp only
  have disturbed : cancelled = true → ¬calm := by
    rintro rfl calm
    cases (undisturbed calm).1
  obtain ⟨p, collected?, mode⟩ := a
  have put := fun a => withWork_puts here (.attempt a) w.session
  cases mode with
  | «over» y => exact ⟨c, _, .rest c, h, h.session ▸ .of_quiet here (.refl w), fun _ _ => rfl, rfl⟩
  | working => exact resumed fun _ => nofun
  | fresh =>
      cases cancelled with
      | false => exact resumed fun _ => nofun
      | true =>
          have dropped := (put ⟨p, collected?, .over (.pause (.ended .interrupted))⟩).finish
            (Work.attempt_rests _)
          refine h.worked here dropped (h.session ▸ .refl) known rfl (fun t given? => .inr ?_)
            (fun _ => nofun) (awaited fun _ => nofun)
          exact ⟨disturbed rfl, h.session ▸ .drop t _ given? _⟩
  | asleep insists? =>
      cases cancelled with
      | false => cases insists? <;> exact resumed fun _ => nofun
      | true =>
          cases insists? with
          | some length =>
              have insisted := (put ⟨p, collected?, .asleep none⟩).quiet (sleep_quiet _ task length)
              refine h.worked here insisted (h.session ▸ .refl) known rfl (fun t given? => .inr ?_)
                (fun _ => nofun) (awaited fun _ => nofun)
              exact ⟨disturbed rfl, h.session ▸ .insist t _ given? _⟩
          | none =>
              have deeds := p.interrupt_deeds known
              have context := p.interrupt_context w.session
              refine h.worked here (attemptPaused_puts here _ (p.interrupt w.session))
                (h.session ▸ deeds) ?_ ?_ (fun t given? => .inr ?_) (fun _ => nofun)
                (awaited fun _ => nofun)
              · rw [Attempt.paused_process]
                exact (known.of_context context).deeds deeds
              · rw [Attempt.paused_process]
                exact context
              · exact ⟨disturbed rfl, h.session ▸ .interrupt t _ given? _⟩

end Attempts

end World

end BlockGraph
