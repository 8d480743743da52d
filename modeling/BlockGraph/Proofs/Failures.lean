import BlockGraph.Proofs.Stops
import BlockGraph.Proofs.Stores
import BlockGraph.Proofs.Turns
/-!
Failures of block logic. Logic raises a fault when it goes on, whatever its form. From that step on its run
ends with that fault, told of the element, unless it is cancelled or runs out of its time before.
-/
namespace BlockGraph

/-- How a run tells of a fault in the logic of an element that is waited for, or goes on item by item. -/
def Element.blame (e : Element) (limit : Double) (f : Fault) : RunFault :=
  if f.kind = .timeout then .blockTimeout e.id limit else .block e.id e.type f

namespace Traversal

variable {t : Traversal} {s : Session} {frame : Frame} {outer : List Frame}

/-- Logic that ends with a fault fails its run. -/
theorem endWith_fault (stack : t.stack = frame :: outer) (f : Fault) :
    ∃ s', t.endWith s (.fault f) = (.fail (frame.element.blame s.options.blockTimeout f) t, s') := by
  unfold endWith Element.blame
  simp only [stack]
  split
  · exact ⟨_, rfl⟩
  · exact ⟨_, rfl⟩

theorem answer_fault (stack : t.stack = frame :: outer) (f : Fault) (source : Source) :
    ∃ t' s', t.answer s (.ended (.fault f)) source =
      (.fail (frame.element.blame s.options.blockTimeout f) t', s') := by
  have top : (t.withSource source).stack = { frame with source } :: outer := by
    unfold withSource
    simp only [stack]
  obtain ⟨s', same⟩ := endWith_fault (s := s) top f
  exact ⟨t.withSource source, s', same⟩

end Traversal

/-- A traversal that is being torn down ends as it is about to, unless it is cancelled. -/
theorem Goes.ending {s s' : Session} {st st' : Stage} (h : Goes s st st' s') {e : WalkEnd}
    (ends : st.ending? = some e) : st'.ending? = some e ∨ st'.ending? = some .cancelled := by
  cases h with
  | torn here _ after _ =>
      cases Option.some.inj (ends.symm.trans here)
      exact after
  | cancelled => exact .inr rfl
  | _ => cases ends

theorem Passes.ending {calm : Prop} {c c' : Course} (h : Passes calm c c') (sound : c.Sound) {e : WalkEnd}
    (ends : c.stage.ending? = some e) : c'.stage.ending? = some e ∨ c'.stage.ending? = some .cancelled := by
  cases h with
  | rest => exact .inl ends
  | next _ next => exact (Stage.next_goes sound.1 sound.2 next).ending ends
  | cut _ _ cut => exact (cut.goes sound.2).ending ends
  | aside => exact .inl ends

/-- Nothing more happens to a run that is being torn down. -/
theorem Goes.torn_deeds {s s' : Session} {st st' : Stage} (h : Goes s st st' s') {e : WalkEnd}
    (ends : st.ending? = some e) : Deeds s s' := by
  cases h with
  | torn _ deeds _ _ => exact deeds
  | cancelled => exact .refl
  | _ => cases ends

theorem Passes.torn_deeds {calm : Prop} {c c' : Course} (h : Passes calm c c') (sound : c.Sound) {e : WalkEnd}
    (ends : c.stage.ending? = some e) : Deeds c.session c'.session := by
  cases h with
  | rest => exact .refl
  | next _ next => exact (Stage.next_goes sound.1 sound.2 next).torn_deeds ends
  | cut _ _ cut => exact (cut.goes sound.2).torn_deeds ends
  | aside _ _ _ deeds => exact deeds

/-! ### Options last as long as their run -/

theorem Session.hears_options (s : Session) (e : Event) : (s.hears e).options = s.options := by
  unfold hears
  split <;> rfl

theorem Beat.options {s s' : Session} (h : Beat s s') (running : s.running = true) :
    s'.options = s.options := by
  cases h with
  | deed d => exact ((Relation.ReflTransGen.single d |> Deeds.kept_of_running) running).options
  | traversed c => exact (s.note (.traversed c.id)).hears_options _
  | started id => exact (s.note (.started id)).hears_options _
  | completed id => exact (s.note (.completed id)).hears_options _
  | _ => rfl

theorem Beats.options {s s' : Session} (h : Beats s s') (running : s.running = true) :
    s'.options = s.options := by
  induction h with
  | refl => rfl
  | tail before beat ih => exact (beat.options (Beats.sameRun before running).1).trans ih

/-! ### Turns in which logic raises a fault -/

namespace Attempt

/-- What the logic of an attempt comes to in a turn. It does not go on when it is over, when it is dropped
before it began, or when it insists on its sleep. -/
def turn? (a : Attempt) (cancelled : Bool) (s : Session) : Option (Pause × Process × Session) :=
  match a.mode, cancelled with
  | .over _, _ | .fresh, true | .asleep (some _), true => none
  | .asleep none, true => some (a.process.interrupt s)
  | _, _ => some (a.process.resume s)

variable {a : Attempt} {p : Process} {f : Fault}

theorem paused_fault (a : Attempt) (p : Process) (f : Fault) :
    (a.paused (.ended (.fault f)) p).mode = .over (.pause (.ended (.fault f))) := by
  obtain ⟨q, collected?, mode⟩ := a
  cases collected? <;> rfl

/-- An attempt ends with a fault only when its logic does. -/
theorem fault_of_paused {pause : Pause} (ends : (a.paused pause p).mode = .over (.pause (.ended (.fault f)))) :
    pause = .ended (.fault f) := by
  obtain ⟨q, collected?, mode⟩ := a
  unfold paused at ends
  split at ends <;> cases ends
  rfl

end Attempt

namespace World

variable {α : Type} {w w₁ w' : World α} {c : Course} {task : Nat} {y : Work α} {a : Attempt} {e : Element}
  {f : Fault} {g : RunFault}

/-- Whether a traversal is at work whose innermost element is some frame. -/
structure Top (w : World α) (task : Nat) (mode : WalkMode) (frame : Frame) : Prop where
  walk : w.walk? = some task
  here : ∃ t outer, w.work? task = some (.walk ⟨t, mode⟩) ∧ t.stack = frame :: outer

/-- Whether the next step is a turn of a task. -/
def TurnOf (w : World α) (task : Nat) (w' : World α) : Prop :=
  w.step = some w' ∧ ∃ w₁, w.Dequeues task w₁ ∧ w' = w₁.turn task

/-- Whether the logic of an element raises a fault in the next step, and what its run is about to fail with
then. Logic that runs to its end when it is started never makes the run look impatient. -/
inductive Raises (w : World α) (e : Element) (f : Fault) (w' : World α) : RunFault → Prop
  | gathered {i : Nat} {frame : Frame} {p : Process} {collected : List Value} :
      w.TurnOf i w' → w.called i = false → w.Top i .walking frame → frame.element = e →
      frame.pending = [] → frame.source = .gathering p collected →
      (p.resume w.session).1 = .ended (.fault f) → Raises w e f w' (.block e.id e.type f)
  | sequenced {i : Nat} {frame : Frame} {p : Process} :
      w.TurnOf i w' → w.called i = false → w.Top i .walking frame → frame.element = e →
      frame.pending = [] → frame.source = .sequence p → (p.resume w.session).1 = .ended (.fault f) →
      Raises w e f w' (e.blame w.session.options.blockTimeout f)
  | awaited {i j : Nat} {frame : Frame} {a : Attempt} {r : Pause × Process × Session} :
      w.TurnOf j w' → w.Top i (.awaiting j) frame → frame.element = e → w.work? j = some (.attempt a) →
      a.turn? (w.called j) w.session = some r → r.1 = .ended (.fault f) →
      Raises w e f w' (e.blame w.session.options.blockTimeout f)

/-- An attempt whose logic goes on comes to what that comes to. -/
theorem attemptTurn_of_turn (w : World α) (task : Nat) {cancelled : Bool} {r : Pause × Process × Session}
    (turn : a.turn? cancelled w.session = some r) :
    w.attemptTurn task a cancelled = w.attemptPaused task a r := by
  obtain ⟨p, collected?, mode⟩ := a
  unfold Attempt.turn? at turn
  unfold attemptTurn
  cases mode with
  | «over» y => cases turn
  | fresh =>
      cases cancelled with
      | true => cases turn
      | false => cases turn; rfl
  | working => cases turn; rfl
  | asleep insists? =>
      cases cancelled <;> cases insists? <;> cases turn <;> rfl

/-- An attempt comes to a fault only when its logic raises that. -/
theorem attemptTurn_fault {b : Attempt} (there : w.work? task = some y) {cancelled : Bool}
    (attempt : (w.attemptTurn task b cancelled).work? task = some (.attempt a))
    (ends : a.mode = .over (.pause (.ended (.fault f)))) :
    w.attemptTurn task b cancelled = w ∨
      ∃ r, b.turn? cancelled w.session = some r ∧ r.1 = .ended (.fault f) := by
  have put := fun a => (withWork_puts there (.attempt a) w.session)
  cases goes : b.turn? cancelled w.session with
  | some r =>
      rw [w.attemptTurn_of_turn task goes, (attemptPaused_puts there b r).here] at attempt
      cases attempt
      exact .inr ⟨r, rfl, Attempt.fault_of_paused ends⟩
  | none =>
      obtain ⟨p, collected?, mode⟩ := b
      cases mode with
      | «over» y => exact .inl rfl
      | fresh =>
          cases cancelled with
          | false => cases goes
          | true =>
              have dropped := (put ⟨p, collected?, .over (.pause (.ended .interrupted))⟩).finish
                (Work.attempt_rests _)
              cases Option.some.inj (dropped.here.symm.trans attempt)
              cases ends
      | working => cases goes
      | asleep insists? =>
          cases cancelled with
          | false => cases insists? <;> cases goes
          | true =>
              cases insists? with
              | none => cases goes
              | some length =>
                  have insists := (put ⟨p, collected?, .asleep none⟩).quiet (sleep_quiet _ task length)
                  cases Option.some.inj (insists.here.symm.trans attempt)
                  cases ends

/-! ### Runs that are about to fail -/

/-- Whether the traversal waits for logic that has raised a fault. -/
def Facing (w : World α) (g : RunFault) : Prop := ∃ i j mode frame a f, w.Top i mode frame ∧
  mode.awaits? = some j ∧ w.work? j = some (.attempt a) ∧ a.mode = .over (.pause (.ended (.fault f))) ∧
  frame.element.blame w.session.options.blockTimeout f = g

/-- Whether the run is about to fail with a fault, or was cancelled on the way there. -/
def Doomed (w : World α) (g : RunFault) : Prop :=
  w.Facing g ∨ ∃ st, w.AtStage st ∧ (st.ending? = some (.failed g) ∨ st.ending? = some .cancelled)

theorem Comes.atStage {r : Stage × Session} (h : Comes task w w' r) (walk : w.walk? = some task) :
    w'.AtStage r.1 := by
  obtain ⟨k, put, shown⟩ := h
  unfold AtStage
  rw [put.walk?, walk]
  exact ⟨k, put.here, shown⟩

theorem Top.of_work {mode : WalkMode} {frame : Frame} {i : Nat} (h : w.Top i mode frame)
    (walk : w'.walk? = w.walk?) (work : ∀ k, w.work? i = some (.walk k) → w'.work? i = some (.walk k)) :
    w'.Top i mode frame := by
  obtain ⟨at_, t, outer, here, stack⟩ := h
  exact ⟨walk.trans at_, t, outer, work _ here, stack⟩

/-- A move of something else leaves the run facing the fault. -/
theorem Facing.of_work (h : w.Facing g) (walk : w'.walk? = w.walk?)
    (work : ∀ i x, x.Inner → w.work? i = some x → w'.work? i = some x)
    (options : w'.session.options = w.session.options) : w'.Facing g := by
  obtain ⟨i, j, mode, frame, a, f, top, waits, attempt, raised, blamed⟩ := h
  exact ⟨i, j, mode, frame, a, f, top.of_work walk fun k => work i _ (.walk k), waits,
    work j _ (.attempt a) attempt, raised, options ▸ blamed⟩

/-- A traversal takes the fault of the logic it has waited for. -/
theorem walkTake_fault (there : w.work? task = some y) (k : Walk) {frame : Frame} {outer : List Frame}
    (stack : k.traversal.stack = frame :: outer) (raised : a.mode = .over (.pause (.ended (.fault f))))
    (outOfTime : Bool) : ∃ t s, Comes task w (w.walkTake task k a outOfTime)
      (.unwinding t (.failed (frame.element.blame w.session.options.blockTimeout f)), s) := by
  have top : (k.traversal.withSource (sourceOf a)).stack = { frame with source := sourceOf a } :: outer := by
    unfold Traversal.withSource
    simp only [stack]
  obtain ⟨t', s', same⟩ := Traversal.answer_fault (s := w.session) top f (sourceOf a)
  refine ⟨t', s'.note (.failed (frame.element.blame w.session.options.blockTimeout f)), ?_⟩
  unfold walkTake
  simp only [raised, same]
  exact walkOn_comes there _ t' (fun _ => rfl) .walking

/-- A turn of the traversal that faces a fault: it takes the fault, gives up what is over already, or is
cancelled. -/
theorem walkTurn_facing {k : Walk} (here : w.work? task = some (.walk k)) (walk : w.walk? = some task)
    (facing : w.Facing g) (cancelled : Bool) : (w.walkTurn task k cancelled).Doomed g := by
  obtain ⟨i, j, mode, frame, a, f, ⟨walk', t, outer, here', stack⟩, waits, attempt, raised, rfl⟩ := facing
  cases Option.some.inj (walk.symm.trans walk')
  cases Option.some.inj (here.symm.trans here')
  have found : w.attempt? j = some a := (attempt?_eq w j a).mpr attempt
  have unwound : ∀ t old, (w.walkOn task ⟨t, old⟩ (.unwinding .cancelled)).Doomed
      (frame.element.blame w.session.options.blockTimeout f) := fun t old =>
    .inr ⟨_, (walkOn_comes here w.session t (fun _ => rfl) old).atStage walk, .inr rfl⟩
  cases mode with
  | awaiting i =>
      obtain rfl : i = j := Option.some.inj waits
      rw [walkTurn_awaiting t found]
      split
      · obtain ⟨t', s', comes⟩ :=
          walkTake_fault (w := w.unschedule task) here ⟨t, .awaiting i⟩ stack raised false
        exact .inr ⟨_, comes.atStage walk, .inl rfl⟩
      · have given := walkAbandon_puts (w := w.unschedule task) here t (.awaiting i) i (!cancelled)
        have other : i ≠ task := by
          rintro rfl
          cases here.symm.trans attempt
        refine .inl ⟨task, i, _, frame, a, f, ⟨given.walk?.trans walk, t, outer, given.here, stack⟩, rfl,
          given.still other attempt, raised, ?_⟩
        rw [given.session]
        rfl
  | abandoning i outOfTime =>
      obtain rfl : i = j := Option.some.inj waits
      cases cancelled with
      | true => exact unwound t _
      | false =>
          unfold walkTurn
          simp only [found]
          split
          · obtain ⟨t', s', comes⟩ := walkTake_fault here ⟨t, .abandoning i outOfTime⟩ stack raised true
            exact .inr ⟨_, comes.atStage walk, .inl rfl⟩
          · exact unwound _ _
  | _ => cases waits

/-- What one task does in a step within a run, if it is a task of the run. -/
theorem StepsOn.turns (on : w.StepsOn w') (h : Shows none w c) (scheduled : w.Scheduled) : Beside w w' ∨
    ∃ task w₁ x, w.Dequeues task w₁ ∧ w.work? task = some x ∧ x.Inner ∧ w' = w₁.turn task ∧
      w₁.turn task = (w₁.atTurn task).works task x (w.called task) := by
  obtain ⟨running, step, still, run⟩ := on
  cases steps_of_step step with
  | @release task ticket rest round =>
      have popped : Quiet w { w with round := rest } := { Quiet.refl w with }
      exact .inl (.quiet (popped.trans (release_quiet _ _ _)))
  | idle _ idles => exact .inl (.quiet (idles_quiet idles))
  | @turn task w₁ leaves =>
      have quiet := leaves.quiet.trans (w₁.atTurn_quiet task)
      obtain ⟨x, here, works⟩ := leaves.turn_eq scheduled
      have shown := h.quiet quiet
      have here' := (quiet.work task).trans here
      have outside : ¬x.Inner → Beside w (w₁.turn task) := fun outer => by
        rw [works] at still run ⊢
        have free := shown.unwaiting here' _ (quiet.session ▸ running) still (quiet.session ▸ run)
        exact (Beside.quiet quiet).trans (shown.beside here' outer _ (quiet.session ▸ running) free)
      cases x with
      | caller k => exact .inl (outside (Work.caller_outer k))
      | runner m => exact .inl (outside (Work.runner_outer m))
      | walk k => exact .inr ⟨task, w₁, _, leaves, here, .walk k, rfl, works⟩
      | attempt a => exact .inr ⟨task, w₁, _, leaves, here, .attempt a, rfl, works⟩

/-- A run that is about to fail goes on so. -/
theorem StepsOn.doomed (on : w.StepsOn w') (h : Shows none w c) (scheduled : w.Scheduled)
    (settled : w.session.Settled) (doomed : w.Doomed g) : w'.Doomed g := by
  have options : w'.session.options = w.session.options := (on.beats h settled).options on.running
  rcases doomed with facing | ⟨st, stage, ends⟩
  · rcases on.turns h scheduled with beside | ⟨task, w₁, x, leaves, here, inner, rfl, works⟩
    · exact .inl (facing.of_work beside.walk? (fun i x inner old => (beside.inner i x inner).mpr old) options)
    · have quiet := leaves.quiet.trans (w₁.atTurn_quiet task)
      have shown := h.quiet quiet
      have there := (quiet.work task).trans here
      have faces := facing.of_work quiet.walk? (fun i x _ old => (quiet.work i).trans old)
        (congrArg Session.options quiet.session)
      rw [works] at options ⊢
      cases inner with
      | walk k =>
          by_cases walk : (w₁.atTurn task).walk? = some task
          · exact walkTurn_facing there walk faces _
          · obtain ⟨t, mode⟩ := k
            obtain ⟨e, rfl⟩ : ∃ e, mode = .over e := shown.walks task _ there (.inl walk)
            exact .inl faces
      | attempt a =>
          obtain ⟨_, a', _, _, put, rests, _⟩ : Worked False task a (w₁.atTurn task)
              ((w₁.atTurn task).attemptTurn task a (w.called task)) c := shown.attemptTurn there _ False.elim
          obtain ⟨i, j, mode, frame, b, f, top, waits, attempt, raised, blamed⟩ := faces
          have walk : ∀ k, (w₁.atTurn task).work? i = some (.walk k) → _ := fun k old =>
            put.still (fun same => by cases (same ▸ old).symm.trans there) old
          have attempt' : (World.works (w₁.atTurn task) task (.attempt a) (w.called task)).work? j =
              some (.attempt b) := by
            by_cases same : j = task
            · subst same
              cases Option.some.inj (there.symm.trans attempt)
              exact rests _ raised ▸ put.here
            · exact put.still same attempt
          refine .inl ⟨i, j, mode, frame, b, f, top.of_work put.walk? walk, waits, attempt', raised, ?_⟩
          rw [options, ← quiet.session]
          exact blamed
  · obtain ⟨c', shown, ⟨same, _⟩ | passes⟩ := on.passes h
    · exact .inr ⟨st, AtStage.unique h.stage stage ▸ same ▸ shown.stage, ends⟩
    · cases AtStage.unique h.stage stage
      refine .inr ⟨_, shown.stage, ?_⟩
      rcases ends with ends | ends
      · exact passes.ending h.sound ends
      · exact .inr ((passes.ending h.sound ends).elim id id)

/-! ### A fault dooms its run -/

/-- The turn of a task of the run. -/
theorem TurnOf.works (turn : w.TurnOf task w') (h : Shows none w c) (scheduled : w.Scheduled) {x : Work α}
    (here : w.work? task = some x) : ∃ w₁, Quiet w w₁ ∧ Shows none w₁ c ∧ w₁.work? task = some x ∧
      w' = w₁.works task x (w.called task) := by
  obtain ⟨_, w₁, leaves, rfl⟩ := turn
  have quiet := leaves.quiet.trans (w₁.atTurn_quiet task)
  obtain ⟨x', here', works⟩ := leaves.turn_eq scheduled
  cases Option.some.inj (here.symm.trans here')
  exact ⟨w₁.atTurn task, quiet, h.quiet quiet, (quiet.work task).trans here, works⟩

/-- A step of a run's own task is one within the run. -/
theorem TurnOf.stepsOn (turn : w.TurnOf task w') (h : Shows none w c) (scheduled : w.Scheduled)
    (running : w.session.running = true) {x : Work α} (here : w.work? task = some x)
    (free : x.pending? = none) : w.StepsOn w' := by
  obtain ⟨w₁, quiet, shown, here', works⟩ := turn.works h scheduled here
  have grows := shown.works_grows here' (w.called task) (quiet.session ▸ running) free
  rw [← works, quiet.session] at grows
  exact ⟨running, turn.1, grows.running.trans running, grows.run⟩

/-- The traversal moves to its failure. -/
theorem walkMove_fail (there : w.work? task = some y) (walk : w.walk? = some task) (t : Traversal)
    (s : Session) :
    (w.walkMove task (.fail g t, s)).Doomed g :=
  .inr ⟨_, (walkOn_comes there (s.note (.failed g)) t
    (fun _ => (rfl : stageOf _ ⟨t, .unwinding (.failed g)⟩ = _)) .walking).atStage walk, .inl rfl⟩

/-- The run is doomed by the step in which its logic raises a fault. -/
theorem Raises.doomed (raises : w.Raises e f w' g) (h : Shows none w c) (scheduled : w.Scheduled)
    (settled : w.session.Settled) (running : w.session.running = true) : w.StepsOn w' ∧ w'.Doomed g := by
  have resumed : ∀ {p : Process}, p.Known w.session → (p.resume w.session).2.2.options = w.session.options :=
    fun {p} known => ((p.resume_deeds known).kept_of_running running).options
  have walking : ∀ {i frame}, w.Top i .walking frame → frame.pending = [] → w.called i = false →
      w.TurnOf i w' → ∃ (w₁ : World α) (t : Traversal) (outer : List Frame), w₁.session = w.session ∧
        w₁.work? i = some (.walk ⟨t, .walking⟩) ∧ w₁.walk? = some i ∧ t.stack = frame :: outer ∧
        frame.source.Known w.session ∧ w.StepsOn w' ∧ w' = w₁.walkMove i (t.advance w.session frame) := by
    rintro i frame ⟨walk, t, outer, here, stack⟩ rest uncalled turn
    obtain ⟨w₁, quiet, shown, here', works⟩ := turn.works h scheduled here
    refine ⟨w₁, t, outer, quiet.session, here', quiet.walk?.trans walk, stack, ?_,
      turn.stepsOn h scheduled running here rfl, ?_⟩
    · have stage : Stage.walking t = c.stage := Option.some.inj (h.came walk here)
      have known : t.Known c.session := by
        have sound := h.sound.2.1
        rwa [← stage] at sound
      exact h.session ▸ known frame (stack ▸ List.mem_cons_self)
    · have step : t.step w₁.session = t.advance w₁.session frame := by
        unfold Traversal.step
        simp only [stack, rest]
      rw [uncalled] at works
      rw [works, ← quiet.session, ← step]
      rfl
  cases raises with
  | @gathered i frame p collected turn uncalled top same rest source raised =>
      obtain ⟨w₁, t, outer, session, here, walk, stack, known, on, moves⟩ := walking top rest uncalled turn
      subst same
      refine ⟨on, ?_⟩
      rw [moves]
      unfold Traversal.advance Traversal.gather
      simp only [source]
      generalize p.resume w.session = r at raised
      obtain ⟨pause, q, s⟩ := r
      cases raised
      exact walkMove_fail here walk _ _
  | @sequenced i frame p turn uncalled top same rest source raised =>
      obtain ⟨w₁, t, outer, session, here, walk, stack, known, on, moves⟩ := walking top rest uncalled turn
      subst same
      refine ⟨on, ?_⟩
      have options := resumed (known p (by rw [source]; rfl))
      rw [moves]
      unfold Traversal.advance
      simp only [source]
      generalize p.resume w.session = r at raised options
      obtain ⟨pause, q, s⟩ := r
      cases raised
      obtain ⟨t', s', fails⟩ := Traversal.answer_fault (s := s) stack f (.sequence q)
      simp only [fails]
      rw [← options]
      exact walkMove_fail here walk _ _
  | @awaited i j frame a r turn top same attempt goes raised =>
      obtain ⟨w₁, quiet, shown, here, works⟩ := turn.works h scheduled attempt
      have on := turn.stepsOn h scheduled running attempt rfl
      refine ⟨on, .inl ?_⟩
      have paused := w₁.attemptTurn_of_turn j (quiet.session.symm ▸ goes)
      have put := attemptPaused_puts here a r
      rw [← paused, raised] at put
      have walks : ∀ k, w.work? i = some (.walk k) → w'.work? i = some (.walk k) := fun k old => by
        have old := (quiet.work i).trans old
        exact works ▸ put.still (fun same => by cases (same ▸ old).symm.trans here) old
      refine ⟨i, j, .awaiting j, frame, _, f, top.of_work (works ▸ put.walk?.trans quiet.walk?) walks, rfl,
        works ▸ put.here, a.paused_fault r.2.1 f, ?_⟩
      rw [same, (on.beats h settled).options running]

/-- How an execution ends whose traversal ends, if at all, with some failure, or because it is cancelled. -/
theorem EndsIn.outcome {x : Execution} (ends : w.EndsIn x w')
    (closes : ∀ e, w.AtStage (.over e) → e = .failed g ∨ e = .cancelled) :
    x.outcome = .failed g ∨ x.outcome = .cancelled ∨ ∃ ms, x.outcome = .failed (.runTimeout ms) := by
  obtain ⟨st, s, stage, how, _⟩ := ends.how
  generalize x.outcome = o at how
  cases how with
  | finished => rcases closes _ stage with same | same <;> cases same
  | failed f =>
      rcases closes _ stage with same | same <;> cases same
      exact .inl rfl
  | cancelled => exact .inr (.inl rfl)
  | outOfTime st ms => exact .inr (.inr ⟨ms, rfl⟩)

/-- How an execution ends whose run is about to fail. -/
theorem Doomed.outcome (doomed : w.Doomed g) (h : Shows none w c) {x : Execution} (ends : w.EndsIn x w') :
    x.outcome = .failed g ∨ x.outcome = .cancelled ∨ ∃ ms, x.outcome = .failed (.runTimeout ms) := by
  refine ends.outcome fun e stage => ?_
  rcases doomed with
    ⟨i, j, mode, frame, a, f, ⟨walk, t, outer, here, _⟩, waits, attempt, _⟩ | ⟨st, stage', ends⟩
  · obtain ⟨given?, awaiting, _⟩ := stageOf_awaiting waits attempt (h.came walk here)
    cases (AtStage.unique stage h.stage).trans awaiting
  · rw [← AtStage.unique stage stage'] at ends
    exact ends.imp Option.some.inj Option.some.inj

end World
end BlockGraph
