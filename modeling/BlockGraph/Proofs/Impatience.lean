import BlockGraph.Proofs.Deadlines
import BlockGraph.Proofs.Failures
import BlockGraph.Proofs.Gated
/-!
Runs that lose patience. A traversal is about to fail with a time limit only when logic has raised a time-out of
its own, or when it has waited for what that hands over next longer than it may.
-/
namespace BlockGraph

theorem Element.blame_timeout {e : Element} {limit limit' : Double} {f : Fault} {id : String}
    (same : e.blame limit f = .blockTimeout id limit') : e.id = id ∧ limit = limit' ∧ f.kind = .timeout := by
  unfold blame at same
  split at same
  · cases same
    exact ⟨rfl, rfl, ‹_›⟩
  · cases same

/-! ### Moves -/

/-- Whether a move neither loses patience with block logic nor comes to wait for it. -/
structure Move.Patient (m : Move) : Prop where
  keeps : ∀ id limit t, m ≠ .fail (.blockTimeout id limit) t
  unwaiting : ∀ p t, m ≠ .wait p t

theorem Move.Patient.go (t : Traversal) : (Move.go t).Patient := ⟨fun _ _ _ => nofun, fun _ _ => nofun⟩

theorem Move.Patient.fail {f : RunFault} (other : ∀ id limit, f ≠ .blockTimeout id limit) (t : Traversal) :
    (Move.fail f t).Patient := by
  refine ⟨fun id limit t failed => ?_, fun _ _ => nofun⟩
  cases failed
  exact other id limit rfl

namespace Traversal

variable {t : Traversal} {s : Session} {frame : Frame} {outer : List Frame} {id : String} {limit : Double}

theorem visit_patient (id : String) : (t.visit s id).1.Patient := by
  unfold visit
  split <;> rename_i same
  · refine .fail (fun id limit lost => ?_) t
    rcases begin_fault _ (congrArg Prod.fst same) with ⟨_, _, rfl⟩ | ⟨_, _, _, rfl⟩ | ⟨_, rfl⟩ <;> cases lost
  · exact .go _
  · exact .go _

theorem complete_patient (id : String) : (t.complete s id).1.Patient := by
  unfold complete
  split
  · exact .go _
  · exact ⟨fun _ _ _ => nofun, fun _ _ => nofun⟩

theorem accept_patient (item : Value) : (t.accept s item).1.Patient := by
  unfold accept
  split
  · exact ⟨fun _ _ _ => nofun, fun _ _ => nofun⟩
  · split
    · exact .fail (fun _ _ same => (by cases same)) _
    · exact .go _

theorem gather_patient (frame : Frame) (p : Process) (collected : List Value) :
    (t.gather s frame p collected).1.Patient := by
  unfold gather
  split
  · exact .go _
  · exact .fail (fun _ _ same => (by cases same)) _
  · exact .go _
  · exact .go _

theorem endWith_unwaiting (e : Ending) (p : Process) (t' : Traversal) : (t.endWith s e).1 ≠ .wait p t' := by
  unfold endWith
  split
  · exact nofun
  · split
    · exact nofun
    · exact (complete_patient _).unwaiting p t'

theorem answer_unwaiting (pause : Pause) (source : Source) (p : Process) (t' : Traversal) :
    (t.answer s pause source).1 ≠ .wait p t' := by
  unfold answer
  cases pause with
  | item v => exact (accept_patient v).unwaiting p t'
  | ended e => exact endWith_unwaiting e p t'
  | sleep length insists => exact nofun

/-- A traversal loses patience at the end of logic only when that raises a time-out. -/
theorem endWith_timeout {e : Ending} {t' : Traversal}
    (lost : (t.endWith s e).1 = .fail (.blockTimeout id limit) t') :
    ∃ frame outer f, t.stack = frame :: outer ∧ e = .fault f ∧
      frame.element.blame s.options.blockTimeout f = .blockTimeout id limit := by
  unfold endWith at lost
  split at lost
  · cases lost
  · rename_i frame outer stack
    cases e with
    | fault f =>
        refine ⟨frame, outer, f, stack, rfl, ?_⟩
        unfold Element.blame
        simp only at lost
        split at lost <;> rename_i kind <;> cases lost
        rw [if_pos kind]
    | _ => exact absurd lost ((complete_patient _).keeps _ _ _)

theorem withSource_top {source : Source} (stack : (t.withSource source).stack = frame :: outer) :
    ∃ frame', t.stack = frame' :: outer ∧ frame'.element = frame.element := by
  unfold withSource at stack
  split at stack
  · rename_i none
    rw [none] at stack
    cases stack
  · rename_i frame' outer' here
    cases stack
    exact ⟨frame', here, rfl⟩

theorem answer_timeout {pause : Pause} {source : Source} {t' : Traversal}
    (lost : (t.answer s pause source).1 = .fail (.blockTimeout id limit) t') :
    ∃ frame outer f, t.stack = frame :: outer ∧ pause = .ended (.fault f) ∧
      frame.element.blame s.options.blockTimeout f = .blockTimeout id limit := by
  unfold answer at lost
  cases pause with
  | item v => exact absurd lost ((accept_patient v).keeps _ _ _)
  | sleep length insists => cases lost
  | ended e =>
      obtain ⟨frame, outer, f, stack, rfl, blamed⟩ := endWith_timeout lost
      obtain ⟨frame', here, same⟩ := withSource_top stack
      exact ⟨frame', outer, f, here, rfl, same.symm ▸ blamed⟩

/-- A step loses patience only with logic that goes on item by item and raises a time-out. -/
theorem step_timeout {t' : Traversal} (lost : (t.step s).1 = .fail (.blockTimeout id limit) t') :
    ∃ frame outer p f, t.stack = frame :: outer ∧ frame.pending = [] ∧ frame.source = .sequence p ∧
      (p.resume s).1 = .ended (.fault f) ∧
      frame.element.blame (p.resume s).2.2.options.blockTimeout f = .blockTimeout id limit := by
  unfold step at lost
  split at lost
  · split at lost
    · cases lost
    · split at lost
      · exact absurd lost ((visit_patient _).keeps _ _ _)
      · cases lost
  · rename_i frame outer stack
    split at lost
    · rename_i rest
      unfold advance at lost
      split at lost
      · exact absurd lost ((gather_patient _ _ _).keeps _ _ _)
      · obtain ⟨_, _, f, _, ended, _⟩ := endWith_timeout lost
        cases ended
      · exact absurd lost ((accept_patient _).keeps _ _ _)
      · rename_i p source
        split at lost
        · cases lost
        · rename_i pause q s' _ resumed
          obtain ⟨frame', outer', f, stack', rfl, blamed⟩ := answer_timeout lost
          cases stack.symm.trans stack'
          exact ⟨frame, outer, p, f, stack, rest, source, by rw [resumed], by rw [resumed]; exact blamed⟩
      · cases lost
      · cases lost
      · obtain ⟨_, _, f, _, ended, _⟩ := endWith_timeout lost
        cases ended
    · split at lost
      · exact absurd lost ((visit_patient _).keeps _ _ _)
      · cases lost

end Traversal

namespace Stage

variable {t : Traversal} {a : Attempt} {s : Session} {id : String} {limit : Double}

/-- Whether a stage neither waits for logic nor is about to lose patience. -/
def Patient (st : Stage) : Prop := (∀ t a given?, st ≠ .awaiting t a given?) ∧
  ∀ id limit, st.ending? ≠ some (.failed (.blockTimeout id limit))

theorem opening_patient {st : Stage} {s' : Session} (next : Stage.opening.next s = some (st, s')) :
    st.Patient := by
  have barred := fun f => (s.opening_gate.2 f).mp
  unfold Stage.next at next
  simp only at next
  split at next <;> rename_i same <;> rw [same] at barred <;> cases next
  · exact ⟨fun _ _ _ => nofun, fun _ _ => nofun⟩
  · refine ⟨fun _ _ _ => nofun, fun id limit ends => ?_⟩
    cases ends
    obtain ⟨_, _, _, _, _, bars⟩ := barred _ rfl
    cases bars

/-- A move that waits for nothing settles at a stage that waits for nothing. -/
theorem settle_unwaiting {m : Move} (unwaiting : ∀ p t, m ≠ .wait p t) (s : Session) (t : Traversal)
    (a : Attempt) (given? : Option Bool) : (settle (m, s)).1 ≠ .awaiting t a given? := by
  cases m with
  | wait p t => exact absurd rfl (unwaiting p t)
  | _ => exact nofun

theorem settle_timeout {r : Move × Session}
    (ends : (settle r).1.ending? = some (.failed (.blockTimeout id limit))) :
    ∃ t, r.1 = .fail (.blockTimeout id limit) t := by
  obtain ⟨m, s⟩ := r
  cases m with
  | fail f t =>
      cases ends
      exact ⟨t, rfl⟩
  | _ => cases ends

theorem took_unwaiting (t : Traversal) (a : Attempt) (outOfTime : Bool) (y : Yield) (s : Session)
    (t' : Traversal) (a' : Attempt) (given? : Option Bool) :
    (took t a outOfTime y s).1 ≠ .awaiting t' a' given? := by
  unfold took
  simp only
  split
  · exact nofun
  · split <;> exact nofun
  · exact settle_unwaiting (Traversal.answer_unwaiting _ _) _ _ _ _

/-- What was waited for is out of time only when it has raised a time-out, or was given up. -/
theorem took_timeout {outOfTime : Bool} {y : Yield}
    (ends : (took t a outOfTime y s).1.ending? = some (.failed (.blockTimeout id limit))) :
    ∃ frame outer, t.stack = frame :: outer ∧ frame.element.id = id ∧ s.options.blockTimeout = limit ∧
      ((∃ f, y = .pause (.ended (.fault f)) ∧ f.kind = .timeout) ∨ outOfTime = true) := by
  unfold took at ends
  simp only at ends
  split at ends
  · cases ends
  · split at ends
    · rename_i frame outer stack
      obtain ⟨frame', here, same⟩ := Traversal.withSource_top stack
      cases ends
      exact ⟨frame', outer, here, congrArg Element.id same, rfl, .inr rfl⟩
    · cases ends
  · rename_i pause _
    obtain ⟨t', lost⟩ := settle_timeout ends
    obtain ⟨frame, outer, f, stack, rfl, blamed⟩ := Traversal.answer_timeout lost
    obtain ⟨frame', here, same⟩ := Traversal.withSource_top stack
    obtain ⟨named, same', kind⟩ := Element.blame_timeout blamed
    exact ⟨frame', outer, here, (congrArg Element.id same).trans named, same', .inl ⟨f, rfl, kind⟩⟩

end Stage

/-- What an opening, or a delay, comes to: the traversal goes on, or is over for another reason. -/
theorem Passes.patient {c c' : Course} (h : Passes False c c')
    (early : c.stage = .opening ∨ ∃ t id, c.stage = .delaying t id) : c'.stage.Patient := by
  have stays : ∀ {st : Stage}, (st = .opening ∨ ∃ t id, st = .delaying t id) → st.Patient := by
    rintro st (rfl | ⟨t, id, rfl⟩) <;> exact ⟨fun _ _ _ => nofun, fun _ _ => nofun⟩
  cases h with
  | rest => exact stays early
  | aside => exact stays early
  | next _ next =>
      rcases early with same | ⟨t, id, same⟩ <;> simp only at same <;> subst same
      · exact Stage.opening_patient next
      · cases next
        exact ⟨fun _ _ _ => nofun, fun _ _ => nofun⟩
  | cut _ _ cut =>
      rcases early with same | ⟨t, id, same⟩ <;> simp only at same <;> subst same <;> cases cut <;>
        exact ⟨fun _ _ _ => nofun, fun _ _ => nofun⟩

namespace World

variable {α : Type} {w w₀ w₁ w' : World α} {c : Course} {task i j : Nat} {t : Traversal} {y : Work α}
  {id : String} {limit : Double}

/-! ### Runs that lose patience -/

/-- Whether the traversal waits for logic at work in a task. -/
def AwaitsFor (w : World α) (i : Nat) (t : Traversal) (j : Nat) : Prop :=
  w.walk? = some i ∧ w.work? i = some (.walk ⟨t, .awaiting j⟩)

/-- Any number of steps within a run in which the traversal goes on waiting. -/
abbrev Lingers (i : Nat) (t : Traversal) (j : Nat) : World α → World α → Prop :=
  Relation.ReflTransGen fun w w' => w.StepsOn w' ∧ w'.AwaitsFor i t j

/-- Whether the run waits, from one world to another, for what the logic of an element hands over next, and
that takes longer than blocks may. -/
def Overruns (w : World α) (id : String) (w' : World α) : Prop := ∃ i j t frame outer p, w.AwaitsFor i t j ∧
  t.stack = frame :: outer ∧ frame.element.id = id ∧ w.work? j = some (.attempt (.ofProcess p)) ∧
  w.Lingers i t j w' ∧ w'.standing? j ≠ some .over ∧
  w.session.options.blockTimeout.span.Past w.now w'.now

/-- Whether it has come about in a run that the logic of an element raised a time-out, or took longer than
blocks may. -/
def Traced (w₀ w : World α) (id : String) : Prop := ∃ w₁ w₂, w₀.LeadsOn w₁ ∧ w₂.LeadsOn w ∧
  ((∃ e f, e.id = id ∧ f.kind = .timeout ∧
      w₁.Raises e f w₂ (.blockTimeout id w₀.session.options.blockTimeout)) ∨
    w₁.Overruns id w₂)

theorem Traced.on (traced : w₀.Traced w id) (on : w.StepsOn w') : w₀.Traced w' id := by
  obtain ⟨w₁, w₂, before, after, cause⟩ := traced
  exact ⟨w₁, w₂, before, after.tail on, cause⟩

/-- What explains that a traversal is where it is: it has waited until now, has given up for a reason, or
ends for one. -/
def Explains (w₀ w : World α) (i : Nat) (t : Traversal) : WalkMode → Prop
  | .awaiting j => (∃ w₁ p, w₀.LeadsOn w₁ ∧ w₁.AwaitsFor i t j ∧ w₁.work? j = some (.attempt (.ofProcess p)) ∧
      w₁.Lingers i t j w ∧ w.Lasts i j w₁.session.options.blockTimeout.span w₁.now) ∧
      ∀ frame outer a f, t.stack = frame :: outer → w.work? j = some (.attempt a) →
        a.mode = .over (.pause (.ended (.fault f))) → f.kind = .timeout → w₀.Traced w frame.element.id
  | .abandoning _ outOfTime => outOfTime = true →
      ∀ frame outer, t.stack = frame :: outer → w₀.Traced w frame.element.id
  | .unwinding e | .closing _ _ e | .over e => ∀ id limit, e = .failed (.blockTimeout id limit) →
      limit = w₀.session.options.blockTimeout ∧ w₀.Traced w id
  | _ => True

def Explained (w₀ w : World α) : Prop := ∀ i t mode, w.walk? = some i →
  w.work? i = some (.walk ⟨t, mode⟩) → w₀.Explains w i t mode

/-- A traversal that waits for nothing is explained by its end. -/
theorem explained_of_stage {st : Stage} (stage : w.AtStage st)
    (unwaiting : ∀ t a given?, st ≠ .awaiting t a given?)
    (ends : ∀ id limit, st.ending? = some (.failed (.blockTimeout id limit)) →
      limit = w₀.session.options.blockTimeout ∧ w₀.Traced w id) : w₀.Explained w := by
  intro i t mode walk here
  unfold AtStage at stage
  rw [walk] at stage
  obtain ⟨k, here', shown⟩ := stage
  cases Option.some.inj (here.symm.trans here')
  cases mode with
  | awaiting j =>
      obtain ⟨a, _, rfl⟩ := Option.map_eq_some_iff.mp shown
      exact absurd rfl (unwaiting _ _ _)
  | abandoning j outOfTime =>
      obtain ⟨a, _, rfl⟩ := Option.map_eq_some_iff.mp shown
      exact absurd rfl (unwaiting _ _ _)
  | unwinding e =>
      cases shown
      exact fun id limit same => ends id limit (congrArg some same)
  | closing p insists? e =>
      cases shown
      exact fun id limit same => ends id limit (congrArg some same)
  | «over» e =>
      cases shown
      exact fun id limit same => ends id limit (congrArg some same)
  | _ => trivial

/-- A step within a run that is explained until then. -/
structure Proceeds (w₀ w : World α) (c : Course) (w' : World α) : Prop where
  why : w₀.Explained w
  before : w₀.LeadsOn w
  options : w.session.options = w₀.session.options
  shown : Shows none w c
  scheduled : w.Scheduled
  on : w.StepsOn w'

/-- A step that is not the traversal's. -/
theorem Proceeds.aside (proceeds : w₀.Proceeds w c w')
    (own : ∀ i w₁, w.walk? = some i → w.Dequeues i w₁ → w' ≠ w₁.turn i) (walk? : w'.walk? = w.walk?)
    (walks : ∀ i k, w.walk? = some i → (w'.work? i = some (.walk k) ↔ w.work? i = some (.walk k)))
    (attempts : ∀ i t j frame outer a f, w.AwaitsFor i t j → t.stack = frame :: outer →
      w'.work? j = some (.attempt a) → a.mode = .over (.pause (.ended (.fault f))) → f.kind = .timeout →
      w.work? j = some (.attempt a) ∨ w₀.Traced w' frame.element.id) : w₀.Explained w' := by
  obtain ⟨why, _, _, shown, scheduled, on⟩ := proceeds
  intro i t mode walk here
  have walk := walk?.symm.trans walk
  have here := (walks i _ walk).mp here
  have why := why i t mode walk here
  cases mode with
  | awaiting j =>
      obtain ⟨⟨w₁, p, before, awaits, fresh, lingers, lasts⟩, faults⟩ := why
      refine ⟨⟨w₁, p, before, awaits, fresh, lingers.tail ⟨on, walk?.trans walk, (walks i _ walk).mpr here⟩,
        lasts.step scheduled shown on.step (own i · walk)⟩, fun frame outer a f stack attempt raised kind => ?_⟩
      rcases attempts i t j frame outer a f ⟨walk, here⟩ stack attempt raised kind with old | traced
      · exact (faults frame outer a f stack old raised kind).on on
      · exact traced
  | abandoning j outOfTime => exact fun outOfTime frame outer stack => (why outOfTime frame outer stack).on on
  | unwinding e => exact fun id limit same => (why id limit same).imp_right (·.on on)
  | closing p insists? e => exact fun id limit same => (why id limit same).imp_right (·.on on)
  | «over» e => exact fun id limit same => (why id limit same).imp_right (·.on on)
  | _ => trivial

/-! ### The turns of the traversal -/

/-- A step in which the traversal has its turn. -/
structure Turning (w₀ w : World α) (c : Course) (i : Nat) (k : Walk) (w' : World α) : Prop extends
    Proceeds w₀ w c w' where
  turn : w.TurnOf i w'
  walk : w.walk? = some i
  here : w.work? i = some (.walk k)

section Turning

variable {k : Walk} {mode : WalkMode}

theorem isOver_iff (w : World α) (there : w.work? i = some y) :
    w.isOver i = true ↔ w.standing? i = some .over := by
  obtain ⟨t, found, _⟩ := Option.map_eq_some_iff.mp there
  unfold isOver standing?
  simp only [found, Option.map_some, Option.some.injEq, beq_iff_eq]

/-- The world in which the traversal has its turn. -/
theorem Turning.moves (turning : w₀.Turning w c i k w') : ∃ w₂, Quiet w w₂ ∧ Shows none w₂ c ∧ w₂.AtWork i ∧
    w₂.work? i = some (.walk k) ∧ w₂.walk? = some i ∧ w' = w₂.walkTurn i k (w.called i) ∧
    ∀ j, j ≠ i → w₂.standing? j = w.standing? j := by
  obtain ⟨_, w₁, leaves, rfl⟩ := turning.turn
  have quiet := leaves.quiet.trans (w₁.atTurn_quiet i)
  obtain ⟨x, here, works⟩ := leaves.turn_eq turning.scheduled
  cases Option.some.inj (turning.here.symm.trans here)
  refine ⟨w₁.atTurn i, quiet, turning.shown.quiet quiet, turning.scheduled.atTurn leaves,
    (quiet.work i).trans turning.here, quiet.walk?.trans turning.walk, works, fun j other => ?_⟩
  rw [atTurn_standing, if_neg (Ne.symm other), standing?, leaves.tasks]
  rfl

theorem explained_of_work (walk : w.walk? = some i) (here : w.work? i = some (.walk ⟨t, mode⟩))
    (why : w₀.Explains w i t mode) : w₀.Explained w := by
  intro i' t' mode' walk' here'
  cases Option.some.inj (walk.symm.trans walk')
  cases Option.some.inj (here.symm.trans here')
  exact why

/-- A traversal that opens, or lets time go by, is not about to lose patience. -/
theorem StepsOn.early (on : w.StepsOn w') (h : Shows none w c)
    (early : c.stage = .opening ∨ ∃ t id, c.stage = .delaying t id) : w₀.Explained w' := by
  obtain ⟨c', shown, came⟩ := on.passes h
  obtain ⟨unwaiting, patient⟩ : c'.stage.Patient := by
    rcases came with ⟨same, _⟩ | passes
    · exact same ▸ (Passes.rest c).patient early
    · exact passes.patient early
  exact explained_of_stage shown.stage unwaiting fun id limit ends => absurd ends (patient id limit)

/-- A traversal that is being torn down ends as it was about to. -/
theorem StepsOn.torn (on : w.StepsOn w') (h : Shows none w c) {e : WalkEnd} (ends : c.stage.ending? = some e)
    (why : ∀ id limit, e = .failed (.blockTimeout id limit) →
      limit = w₀.session.options.blockTimeout ∧ w₀.Traced w id) : w₀.Explained w' := by
  obtain ⟨c', shown, came⟩ := on.passes h
  have after : c'.stage.ending? = some e ∨ c'.stage.ending? = some .cancelled := by
    rcases came with ⟨same, _⟩ | passes
    · exact .inl (same ▸ ends)
    · exact passes.ending h.sound ends
  refine explained_of_stage shown.stage (fun t a given? same => ?_) fun id limit lost => ?_
  · rw [same] at after
    rcases after with after | after <;> cases after
  · rw [lost] at after
    rcases after with after | after
    · exact (why id limit (Option.some.inj after).symm).imp_right (·.on on)
    · cases after

theorem explained_of_cancelled (walk : w.walk? = some i) (there : w.work? i = some (.walk k)) (t : Traversal)
    (old : WalkMode) : w₀.Explained (w.walkOn i ⟨t, old⟩ (.unwinding .cancelled)) :=
  explained_of_stage ((walkOn_comes there w.session t (fun _ => rfl) old).atStage walk) (fun _ _ _ => nofun)
    fun _ _ => nofun

/-- A traversal that comes to wait for logic has all the time for it ahead. -/
theorem AtWork.waits_explained (h : w.AtWork i) (there : w.work? i = some (.walk k)) (walk : w.walk? = some i)
    (t : Traversal) {p : Process} (known : p.Known w.session) (before : w₀.LeadsOn (w.walkWait i t p)) :
    w₀.Explained (w.walkWait i t p) := by
  obtain ⟨j, put, new⟩ := walkWait_puts there t known
  have asks := w.walkWait_eq i t p
  have lasts := h.ask_lasts (.attempt (.ofProcess p)) (.walk ⟨t, .awaiting w.tasks.size⟩) w.walk?
    w.session.options.blockTimeout.span
  have here := h.ask_work (.attempt (.ofProcess p)) (.walk ⟨t, .awaiting w.tasks.size⟩) w.walk?
    w.session.options.blockTimeout.span
  have now : (w.ask i (.attempt (.ofProcess p)) (.walk ⟨t, .awaiting w.tasks.size⟩) w.walk?
    w.session.options.blockTimeout.span).now = w.now := schedule_now _ i _ _
  rw [← now, ← asks, ← put.session] at lasts
  rw [← asks, put.here] at here
  cases here
  have walk := put.walk?.trans walk
  refine explained_of_work walk put.here ⟨⟨_, p, before, ⟨walk, put.here⟩, new, .refl, lasts⟩, ?_⟩
  rintro frame outer a f stack attempt raised
  cases Option.some.inj (new.symm.trans attempt)
  cases raised

/-- A traversal that walks loses patience only with the time-out that logic raises. -/
theorem Turning.raised (turning : w₀.Turning w c i ⟨t, .walking⟩ w') (uncalled : w.called i = false)
    {t' : Traversal} (lost : (t.step w.session).1 = .fail (.blockTimeout id limit) t') :
    limit = w₀.session.options.blockTimeout ∧ w₀.Traced w' id := by
  obtain ⟨frame, outer, p, f, stack, rest, source, raised, blamed⟩ := Traversal.step_timeout lost
  have stage : Stage.walking t = c.stage := Option.some.inj (turning.shown.came turning.walk turning.here)
  have known : p.Known w.session := by
    have sound := turning.shown.sound.2.1
    rw [← stage, ← turning.shown.session] at sound
    exact sound frame (stack ▸ List.mem_cons_self) p (by rw [source]; rfl)
  have options : (p.resume w.session).2.2.options = w₀.session.options :=
    ((p.resume_deeds known).kept_of_running turning.on.running).options.trans turning.options
  rw [options] at blamed
  obtain ⟨named, rfl, kind⟩ := Element.blame_timeout blamed
  refine ⟨rfl, w, w', turning.before, .refl, .inl ⟨frame.element, f, named, kind, ?_⟩⟩
  rw [← blamed, ← turning.options]
  exact .sequenced turning.turn uncalled ⟨turning.walk, t, outer, turning.here, stack⟩ rfl rest source raised

/-- A traversal that walks comes to wait, or to fail with the time-out that logic raises. -/
theorem Turning.walking (turning : w₀.Turning w c i ⟨t, .walking⟩ w') : w₀.Explained w' := by
  obtain ⟨w₂, quiet, shown, at_, there, walk, moves, _⟩ := turning.moves
  have stage : Stage.walking t = c.stage := Option.some.inj (turning.shown.came turning.walk turning.here)
  cases called : w.called i with
  | true =>
      rw [moves, called]
      exact explained_of_cancelled walk there t .walking
  | false =>
      have moves : w' = w₂.walkMove i (t.step w₂.session) := by rw [moves, called]; rfl
      have next : c.stage.next c.session = some (Stage.settle (t.step w₂.session)) := by
        rw [← stage, shown.session]
        rfl
      have sound := ((Stage.next_goes shown.sound.1 shown.sound.2 next).sound shown.sound.2).1
      have comes := walkMove_comes there (t.step w₂.session) sound
      rw [← moves] at comes
      by_cases waits : ∃ p t', (t.step w₂.session).1 = .wait p t'
      · obtain ⟨p, t', waits⟩ := waits
        have stepped : t.step w₂.session = (.wait p t', (t.step w₂.session).2) := Prod.ext waits rfl
        rw [stepped] at moves sound
        have on := turning.before.tail turning.on
        have at₁ : (w₂.withSession (t.step w₂.session).2).AtWork i := Act.atWork (.session _) at_
        rw [moves] at on ⊢
        exact at₁.waits_explained there walk t' sound.2.1 on
      · refine explained_of_stage (comes.atStage walk)
          (Stage.settle_unwaiting (fun p t' same => waits ⟨p, t', same⟩) _) fun id limit ends => ?_
        obtain ⟨t', lost⟩ := Stage.settle_timeout ends
        rw [quiet.session] at lost
        exact turning.raised called lost

/-- Logic that is over is taken: it loses patience with the time-out that was raised, or that it was given up
for. -/
theorem Shows.took_explained (h : Shows none w c) (walk : w.walk? = some i)
    (there : w.work? i = some (.walk ⟨t, mode⟩)) {a : Attempt} {given? : Option Bool}
    (stage : c.stage = .awaiting t a given?) {outOfTime : Bool} {yield : Yield} (ceased : a.mode = .over yield)
    (options : w.session.options = w₀.session.options)
    (why : ∀ frame outer, t.stack = frame :: outer →
      (∃ f, yield = .pause (.ended (.fault f)) ∧ f.kind = .timeout) ∨ outOfTime = true →
      w₀.Traced (w.walkTake i ⟨t, mode⟩ a outOfTime) frame.element.id) :
    w₀.Explained (w.walkTake i ⟨t, mode⟩ a outOfTime) := by
  have sound : (Stage.awaiting t a given?).Sound w.session := stage ▸ h.session ▸ h.sound.2
  have comes := walkTake_comes there ⟨t, mode⟩ ceased ((took_goes sound outOfTime yield).sound sound).1
  refine explained_of_stage (comes.atStage walk) (Stage.took_unwaiting _ _ _ _ _) fun id limit ends => ?_
  obtain ⟨frame, outer, stack, rfl, rfl, cause⟩ := Stage.took_timeout ends
  exact ⟨congrArg Options.blockTimeout options, why frame outer stack cause⟩

/-- A traversal that waits takes what is over, or gives up what has taken too long. -/
theorem Turning.awaiting (turning : w₀.Turning w c i ⟨t, .awaiting j⟩ w') : w₀.Explained w' := by
  obtain ⟨w₂, quiet, shown, _, there, walk, moves, stands⟩ := turning.moves
  obtain ⟨a, found, stage⟩ := Option.map_eq_some_iff.mp (turning.shown.came turning.walk turning.here)
  obtain ⟨⟨w₁, p, before, awaits, fresh, lingers, lasts⟩, faults⟩ :=
    turning.why i t _ turning.walk turning.here
  have attempt : w.work? j = some (.attempt a) := (attempt?_eq _ _ _).mp found
  have attempt₂ : (w₂.unschedule i).work? j = some (.attempt a) := (quiet.work j).trans attempt
  have other : j ≠ i := by
    rintro rfl
    cases attempt.symm.trans turning.here
  have ends : (w₂.unschedule i).isOver j = true ↔ w.standing? j = some .over := by
    rw [isOver_iff _ attempt₂, ← stands j other]
    rfl
  rw [walkTurn_awaiting t ((attempt?_eq w₂ j a).mpr attempt₂)] at moves
  split at moves
  · rename_i ceased
    cases mode : a.mode with
    | «over» y =>
        rw [moves]
        refine (shown.quiet (w₂.unschedule_quiet i)).took_explained walk there stage.symm mode
          ((congrArg Session.options quiet.session).trans turning.options) fun frame outer stack cause => ?_
        obtain ⟨f, rfl, kind⟩ := cause.resolve_right nofun
        rw [← moves]
        exact (faults frame outer a f stack attempt mode kind).on turning.on
    | _ =>
        have still : w' = w₂.unschedule i := by
          rw [moves]
          unfold walkTake
          simp only [mode]
        have there : w'.work? i = some (.walk ⟨t, .awaiting j⟩) := still ▸ there
        have walk : w'.walk? = some i := still ▸ walk
        rw [← still] at attempt₂ ceased
        have lasts : w'.standing? j = some .over := (isOver_iff w' attempt₂).mp ceased
        refine explained_of_work walk there ⟨⟨w₁, p, before, awaits, fresh,
          lingers.tail ⟨turning.on, walk, there⟩, .inr (.inl lasts)⟩, ?_⟩
        intro frame outer b f stack here raised _
        cases Option.some.inj (attempt₂.symm.trans here)
        cases mode.symm.trans raised
  · rename_i working
    have given := walkAbandon_puts (w := w₂.unschedule i) there t (.awaiting j) j (!w.called i)
    rw [← moves] at given
    refine explained_of_work (given.walk?.trans walk) given.here fun patient frame outer stack => ?_
    have unended : w.standing? j ≠ some .over := fun ceased => working (ends.mpr ceased)
    obtain ⟨_, w₁', leaves, _⟩ := turning.turn
    have uncalled : w.called i = false := by simpa using patient
    have past := (lasts.turn turning.scheduled leaves uncalled).resolve_right unended
    exact ⟨w₁, w, before, .single turning.on,
      .inr ⟨i, j, t, frame, outer, p, awaits, stack, rfl, fresh, lingers, unended, past⟩⟩

/-- A traversal that has given up logic waits until that is over, or is cancelled. -/
theorem Turning.abandoning {outOfTime : Bool} (turning : w₀.Turning w c i ⟨t, .abandoning j outOfTime⟩ w') :
    w₀.Explained w' := by
  obtain ⟨w₂, quiet, shown, _, there, walk, moves, _⟩ := turning.moves
  obtain ⟨a, found, stage⟩ := Option.map_eq_some_iff.mp (shown.came walk there)
  cases called : w.called i with
  | true =>
      rw [moves, called]
      exact explained_of_cancelled walk there t _
  | false =>
      have moves : w' = if outOfTime then w₂.walkTake i ⟨t, .abandoning j outOfTime⟩ a true
          else w₂.walkOn i ⟨t.withSource (sourceOf a), .walking⟩ (.unwinding .cancelled) := by
        rw [moves, called]
        unfold walkTurn
        simp only [found]
      cases outOfTime with
      | false =>
          rw [moves]
          exact explained_of_cancelled walk there _ _
      | true =>
          rw [if_pos rfl] at moves
          have traced : ∀ frame outer, t.stack = frame :: outer → w₀.Traced w' frame.element.id :=
            fun frame outer stack =>
              (turning.why i t _ turning.walk turning.here rfl frame outer stack).on turning.on
          cases mode : a.mode with
          | «over» y =>
              rw [moves] at traced ⊢
              exact shown.took_explained walk there stage.symm mode
                ((congrArg Session.options quiet.session).trans turning.options) fun frame outer stack _ =>
                traced frame outer stack
          | _ =>
              obtain rfl : w' = w₂ := by
                rw [moves]
                unfold walkTake
                simp only [mode]
              exact explained_of_work walk there fun _ => traced

/-- The traversal's turn. -/
theorem Turning.explained (turning : w₀.Turning w c i k w') : w₀.Explained w' := by
  obtain ⟨t, mode⟩ := k
  have why := turning.why i t mode turning.walk turning.here
  have came := turning.shown.came turning.walk turning.here
  cases mode with
  | walking => exact turning.walking
  | awaiting j => exact turning.awaiting
  | abandoning j outOfTime => exact turning.abandoning
  | opening => exact turning.on.early turning.shown (.inl (Option.some.inj came).symm)
  | delaying id => exact turning.on.early turning.shown (.inr ⟨t, id, (Option.some.inj came).symm⟩)
  | unwinding e | closing p insists? e | «over» e =>
      refine turning.on.torn turning.shown (e := e) ?_ why
      rw [← Option.some.inj came]
      rfl

end Turning

end World
end BlockGraph
