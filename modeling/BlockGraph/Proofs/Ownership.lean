import BlockGraph.Proofs.Admission
import BlockGraph.Proofs.Edits
import BlockGraph.Proofs.Footprints
import BlockGraph.Proofs.Gated
/-!
Ownership: who writes to which slot. All logic at work in a world is that of elements of its graph, whichever
run it was started in, and so are the elements under way. Each of them writes to its own slot and to the
run-wide variables, and to nothing else.
-/
namespace BlockGraph

variable {P : String → Prop}

/-! ### Elements that pass a test -/

/-- Whether a source draws on no logic but that of elements that pass a test. -/
def Source.Of (P : String → Prop) (source : Source) : Prop :=
  ∀ p, source.process? = some p → P p.context.elementId

/-- Whether an element under way passes a test, and so does the one whose logic it draws on. -/
structure Frame.Of (P : String → Prop) (f : Frame) : Prop where
  element : P f.element.id
  source : f.source.Of P

/-- Whether all elements under way pass a test. -/
def Traversal.Of (P : String → Prop) (t : Traversal) : Prop := ∀ frame ∈ t.stack, frame.Of P

/-- The logic that a stage is at work with, beside what its elements draw on. -/
def Stage.process? : Stage → Option Process
  | .awaiting _ a _ => some a.process
  | .closing _ p _ _ => some p
  | _ => none

/-- Whether all elements of a stage, and those whose logic is at work in it, pass a test. -/
structure Stage.Of (P : String → Prop) (st : Stage) : Prop where
  traversal : st.traversal.Of P
  logic : ∀ p, st.process? = some p → P p.context.elementId

namespace Source.Of

theorem of_none {source : Source} (drawn : source.process? = none) : source.Of P := by
  intro p same
  cases drawn.symm.trans same

theorem of_process {source : Source} {p : Process} (drawn : source.process? = some p)
    (own : P p.context.elementId) : source.Of P := by
  intro q same
  cases drawn.symm.trans same
  exact own

end Source.Of

theorem World.sourceOf_of {a : Attempt} (own : P a.process.context.elementId) : (sourceOf a).Of P := by
  unfold sourceOf
  split
  · exact .of_none rfl
  · exact .of_process rfl own

/-! ### Traversals -/

namespace Traversal

variable {s s' : Session} {t : Traversal}

theorem of_nil (entries : List String) : Traversal.Of P ⟨entries, []⟩ := fun _ member =>
  (List.not_mem_nil member).elim

namespace Of

theorem cons {entries : List String} {frame : Frame} {outer : List Frame} (here : frame.Of P)
    (outside : ∀ other ∈ outer, other.Of P) : Traversal.Of P ⟨entries, frame :: outer⟩ := by
  intro other member
  rcases List.mem_cons.mp member with rfl | rest
  · exact here
  · exact outside other rest

theorem withSource (h : t.Of P) {source : Source} (drawn : source.Of P) : (t.withSource source).Of P := by
  unfold Traversal.withSource
  split
  · exact h
  · rename_i frame outer stack
    have here := h frame (stack ▸ List.mem_cons_self)
    exact cons ⟨here.element, drawn⟩ fun other member => h other (stack ▸ List.mem_cons_of_mem _ member)

theorem walking (h : t.Of P) : (Stage.walking t).Of P := ⟨h, nofun⟩

theorem failing (h : t.Of P) (f : RunFault) (s : Session) : (Stage.settle (.fail f t, s)).1.Of P := ⟨h, nofun⟩

end Of

/-- An element that is started is one of the graph, and draws on its own logic. -/
theorem begin_of (elements : ∀ e ∈ s.graph.elements, P e.id) {id : String} {frame : Frame}
    (made : begin s id = (.ok (some frame), s')) : frame.Of P := by
  unfold begin at made
  simp only at made
  split at made
  · cases made
  · split at made
    · cases made
    · split at made
      · cases made
      · split at made
        · cases made
        · rename_i e found
          have own : P e.id := elements e (Graph.element?_some found).1
          split at made
          · cases made
          · unfold start at made
            simp only at made
            split at made
            · cases made
            · rename_i c _ context
              cases made
              have same := (Session.contextOf_context context).2
              exact ⟨own, .of_process (Source.ofLogic_process c _) (same ▸ own)⟩

theorem Of.visit (h : t.Of P) (elements : ∀ e ∈ s.graph.elements, P e.id) (id : String) :
    (Stage.settle (t.visit s id)).1.Of P := by
  unfold Traversal.visit
  split
  · exact h.failing _ _
  · exact h.walking
  · rename_i begun
    exact (Of.cons (begin_of elements begun) h).walking

theorem Of.accept (h : t.Of P) (s : Session) (item : Value) : (Stage.settle (t.accept s item)).1.Of P := by
  unfold Traversal.accept
  split
  · exact ⟨of_nil [], nofun⟩
  · rename_i frame outer stack
    split
    · exact h.failing _ _
    · have here := h frame (stack ▸ List.mem_cons_self)
      have outside := fun other member => h other (stack ▸ List.mem_cons_of_mem frame member)
      have fired : ∀ pending, Traversal.Of P { t with stack := { frame with pending } :: outer } :=
        fun _ => cons ⟨here.element, here.source⟩ outside
      exact (fired _).walking

theorem Of.complete (h : t.Of P) (s : Session) (id : String) : (Stage.settle (t.complete s id)).1.Of P := by
  unfold Traversal.complete
  split
  · exact h.walking
  · exact ⟨h, nofun⟩

theorem Of.endWith (h : t.Of P) (s : Session) (e : Ending) : (Stage.settle (t.endWith s e)).1.Of P := by
  unfold Traversal.endWith
  split
  · exact ⟨of_nil [], nofun⟩
  · rename_i frame outer stack
    split
    · simp only
      split <;> exact h.failing _ _
    · have outside : Traversal.Of P { t with stack := outer } := fun other member =>
        h other (stack ▸ List.mem_cons_of_mem _ member)
      exact outside.complete s _

theorem Of.answer (h : t.Of P) (s : Session) (pause : Pause) {source : Source} (drawn : source.Of P) :
    (Stage.settle (t.answer s pause source)).1.Of P := by
  have there := h.withSource drawn
  unfold Traversal.answer
  cases pause with
  | item v => exact there.accept s v
  | ended e => exact there.endWith s e
  | sleep length insists => exact there.walking

theorem Of.gather (h : t.Of P) (s : Session) (frame : Frame) {p : Process} (own : P p.context.elementId)
    (collected : List Value) : (Stage.settle (t.gather s frame p collected)).1.Of P := by
  have context : P (p.resume s).2.1.context.elementId := (p.resume_context s).symm ▸ own
  unfold Traversal.gather
  split <;> rename_i same <;> rw [same] at context
  · exact (h.withSource (.of_process rfl context)).walking
  · have outside : Traversal.Of P { t with stack := t.stack.drop 1 } := fun other member =>
      h other (List.mem_of_mem_drop member)
    exact outside.failing _ _
  · exact (h.withSource (.of_none rfl)).walking
  · exact (h.withSource (.of_process rfl context)).walking

theorem Of.advance (h : t.Of P) (s : Session) {frame : Frame} (here : frame.Of P) :
    (Stage.settle (t.advance s frame)).1.Of P := by
  unfold Traversal.advance
  cases drawn : frame.source with
  | gathering p collected => exact h.gather s frame (here.source p (by rw [drawn]; rfl)) collected
  | items values =>
      cases values with
      | nil => exact h.endWith s .normal
      | cons v values => exact (h.withSource (.of_none rfl)).accept s v
  | sequence p =>
      have own := here.source p (by rw [drawn]; rfl)
      have context : P (p.resume s).2.1.context.elementId := (p.resume_context s).symm ▸ own
      simp only
      split <;> rename_i same <;> rw [same] at context
      · exact (h.withSource (.of_process rfl context)).walking
      · exact h.answer _ _ (.of_process rfl context)
  | stream p =>
      have own := here.source p (by rw [drawn]; rfl)
      exact ⟨h.withSource (.of_none rfl), fun q same => Option.some.inj same ▸ own⟩
  | deferred p =>
      have own := here.source p (by rw [drawn]; rfl)
      exact ⟨h.withSource (.of_none rfl), fun q same => Option.some.inj same ▸ own⟩
  | busy => exact h.endWith s .normal

/-- A step brings no element under way but elements of the graph. -/
theorem Of.step (h : t.Of P) (elements : ∀ e ∈ s.graph.elements, P e.id) :
    (Stage.settle (t.step s)).1.Of P := by
  unfold Traversal.step
  split
  · split
    · exact ⟨of_nil [], nofun⟩
    · rename_i stack _ id rest _
      split
      · have bare : Traversal.Of P { t with entries := rest } := h
        exact bare.visit (s := s.note (.entered id)) elements id
      · exact ⟨of_nil [], nofun⟩
  · rename_i frame outer stack
    have here := h frame (stack ▸ List.mem_cons_self)
    have outside := fun other member => h other (stack ▸ List.mem_cons_of_mem frame member)
    split
    · exact h.advance s here
    · rename_i c rest _
      have fewer : ∀ pending, Traversal.Of P { t with stack := { frame with pending } :: outer } :=
        fun _ => .cons ⟨here.element, here.source⟩ outside
      split
      · have graph : ((s.note (.traversed c.id)).notify (.traverse c.id)).graph = s.graph :=
          (Session.notify_deeds _ _).runsOn.graph.trans (Session.hears_runsOn _).graph
        exact (fewer rest).visit (graph.symm ▸ elements) c.target
      · exact (fewer []).walking

end Traversal

/-! ### Stages and courses -/

namespace Stage

variable {s s' : Session} {st st' : Stage} {t : Traversal}

theorem over_of (e : WalkEnd) : (Stage.over e).Of P := ⟨Traversal.of_nil [], nofun⟩

theorem unwinding_of (h : t.Of P) (e : WalkEnd) : (unwinding t e).Of P := ⟨h, nofun⟩

theorem awaiting_of (h : t.Of P) {a : Attempt} (own : P a.process.context.elementId) (given? : Option Bool) :
    (awaiting t a given?).Of P := ⟨h, fun _ same => Option.some.inj same ▸ own⟩

theorem closed_of (h : t.Of P) (e : WalkEnd) {r : Pause × Process × Session}
    (own : P r.2.1.context.elementId) : (closed t e r).1.Of P := by
  unfold closed
  split
  · exact ⟨h, fun _ same => Option.some.inj same ▸ own⟩
  · exact over_of .cancelled
  · exact unwinding_of h e

theorem took_of (h : t.Of P) {a : Attempt} (own : P a.process.context.elementId) (outOfTime : Bool) (y : Yield)
    (s : Session) : (took t a outOfTime y s).1.Of P := by
  have drawn := World.sourceOf_of own
  have there := h.withSource drawn
  unfold took
  simp only
  split
  · exact there.walking
  · split
    · exact there.failing _ _
    · exact unwinding_of there .cancelled
  · exact there.answer s _ drawn

/-- A traversal that goes on takes up no element but elements of the graph. -/
theorem Of.next (h : st.Of P) (elements : ∀ e ∈ s.graph.elements, P e.id)
    (next : st.next s = some (st', s')) : st'.Of P := by
  have came : ∀ r : Stage × Session, r.1.Of P → some r = some (st', s') → st'.Of P := by
    rintro r own same
    cases same
    exact own
  cases st with
  | opening =>
      simp only [Stage.next] at next
      split at next <;> cases next
      · exact (Traversal.of_nil _).walking
      · exact over_of _
  | walking t => exact came _ (h.traversal.step elements) next
  | awaiting t a given? =>
      have own := h.logic a.process rfl
      simp only [Stage.next] at next
      split at next
      · exact came _ (took_of h.traversal own _ _ s) next
      · cases next
        refine awaiting_of h.traversal ?_ given?
        rwa [Attempt.paused_process, Process.resume_context]
  | delaying t id =>
      cases next
      exact h.traversal.walking
  | unwinding t e =>
      simp only [Stage.next] at next
      split at next
      · cases next
        exact over_of e
      · rename_i frame outer stack
        have here := h.traversal frame (stack ▸ List.mem_cons_self)
        have outside : Traversal.Of P { t with stack := outer } := fun other member =>
          h.traversal other (stack ▸ List.mem_cons_of_mem _ member)
        have shut : ∀ p, frame.source.process? = some p → P (p.close s).2.1.context.elementId := by
          intro p drawn
          rw [Process.close_context]
          exact here.source p drawn
        split at next
        · rename_i p source
          exact came _ (closed_of outside e (shut p (by rw [source]; rfl))) next
        · rename_i p source
          exact came _ (closed_of outside e (shut p (by rw [source]; rfl))) next
        · cases next
          exact unwinding_of outside e
  | closing t p insists? e =>
      refine came _ (closed_of h.traversal e ?_) next
      rw [Process.resume_context]
      exact h.logic p rfl
  | «over» e => cases next

theorem Of.cut (h : st.Of P) (cut : Cut st s st' s') : st'.Of P := by
  cases cut with
  | giveUp t a outOfTime => exact awaiting_of h.traversal (h.logic a.process rfl) _
  | drop t a given? =>
      have own := h.logic a.process rfl
      exact awaiting_of (a := { a with mode := .over (.pause (.ended .interrupted)) }) h.traversal own given?
  | insist t a given? =>
      have own := h.logic a.process rfl
      exact awaiting_of (a := { a with mode := .asleep none }) h.traversal own given?
  | interrupt t a given? =>
      refine awaiting_of h.traversal ?_ given?
      rw [Attempt.paused_process, Process.interrupt_context]
      exact h.logic a.process rfl
  | leave t a given? =>
      exact unwinding_of (h.traversal.withSource (World.sourceOf_of (h.logic a.process rfl))) .cancelled
  | cancel => exact unwinding_of h.traversal .cancelled
  | refuse => exact over_of .cancelled
  | insistClosing t p length e => exact ⟨h.traversal, h.logic⟩
  | interruptClosing t p e =>
      refine closed_of h.traversal e ?_
      rw [Process.interrupt_context]
      exact h.logic p rfl

end Stage

theorem Turn.of {c c' : Course} (turn : Turn c c') (h : c.stage.Of P)
    (elements : ∀ e ∈ c.session.graph.elements, P e.id) : c'.stage.Of P := by
  cases turn with
  | passed passes =>
      cases passes with
      | rest => exact h
      | next _ next => exact h.next elements next
      | cut _ _ cut => exact h.cut cut
      | aside => exact h
  | begun => exact ⟨Traversal.of_nil [], nofun⟩
  | spoiled => exact h
  | refused => exact h
  | concluded => exact h

/-! ### Worlds -/

namespace World

variable {α : Type} {w w' : World α} {c c' : Course} {task : Nat}

/-- Whether all logic in tasks of its own is that of elements that pass a test. -/
def LogicOf (P : String → Prop) (w : World α) : Prop :=
  ∀ i a, w.work? i = some (.attempt a) → P a.process.context.elementId

/-- A traversal that is not over is the one of the course. -/
theorem Shows.alive (h : Shows none w c) {k : Walk} (here : w.work? task = some (.walk k))
    (alive : ∀ e, k.mode ≠ .over e) : w.stageOf k = some c.stage := by
  have walk : w.walk? = some task := by
    by_contra other
    obtain ⟨e, ended⟩ := h.walks task k here (.inl other)
    exact alive e ended
  exact h.came walk here

theorem stageOf_traversal {k : Walk} (live : k.Live) {st : Stage} (h : w.stageOf k = some st) :
    st.traversal = k.traversal := by
  obtain ⟨t, mode⟩ := k
  cases mode with
  | opening => exact absurd rfl live.1
  | «over» e => exact absurd rfl (live.2 e)
  | awaiting i =>
      obtain ⟨a, _, rfl⟩ := Option.map_eq_some_iff.mp h
      rfl
  | abandoning i outOfTime =>
      obtain ⟨a, _, rfl⟩ := Option.map_eq_some_iff.mp h
      rfl
  | _ =>
      cases h
      rfl

namespace LogicOf

theorem inherits (h : w.LogicOf P) (inherits : Inherits (fun x => ∃ a, x = .attempt a) w w') : w'.LogicOf P :=
  fun i a here => h i a (inherits i _ ⟨a, rfl⟩ here)

/-- A traversal that is waited for brings logic of the element under way. -/
theorem walked {k : Walk} (h : w.LogicOf P) {s : Session} (put : Puts task (.walk k) s w w')
    (shown : Shows none w' c') (own : c'.stage.Of P) : w'.LogicOf P := by
  intro i a here
  by_cases turn : i = task
  · rw [turn, put.here] at here
    cases here
  · rcases put.others i turn with old | ⟨_, _, _, _, k', same, waits⟩
    · exact h i a (old.symm.trans here)
    · cases same
      have alive : ∀ e, k.mode ≠ .over e := by
        intro e ended
        rw [ended] at waits
        cases waits
      obtain ⟨given?, stage, _⟩ := stageOf_awaiting waits here (shown.alive put.here alive)
      exact own.logic a.process (by rw [stage]; rfl)

theorem worked {a a' : Attempt} (h : w.LogicOf P) (here : w.work? task = some (.attempt a)) {s : Session}
    (put : Puts task (.attempt a') s w w') (same : a'.process.context = a.process.context) : w'.LogicOf P := by
  intro i b there
  by_cases turn : i = task
  · rw [turn, put.here] at there
    cases there
    exact same ▸ h task a here
  · rcases put.others i turn with old | ⟨_, _, _, _, _, walk, _⟩
    · exact h i b (old.symm.trans there)
    · cases walk

theorem step (h : w.LogicOf P) (shown : Shows none w c) (step : w.step = some w')
    (own : ∀ c', Shows none w' c' → c'.stage.Of P) : w'.LogicOf P := by
  rcases shown.step_works step with quiet | ⟨w₁, task, x, cancelled, quiet, shown, here, rfl⟩
  · exact h.inherits (.quiet quiet)
  have h := h.inherits (.quiet quiet)
  have outer : ¬x.Inner → (w₁.works task x cancelled).LogicOf P := by
    intro outer
    have inner : ∀ x : Work α, (∃ a, x = .attempt a) → x.Inner := by
      rintro x ⟨a, rfl⟩
      exact .attempt a
    apply h.inherits
    apply Inherits.works inner outer
    rintro ⟨a, same⟩
    cases same
  cases x with
  | caller k => exact outer (Work.caller_outer k)
  | runner m => exact outer (Work.runner_outer m)
  | walk k =>
      obtain ⟨c', k', _, shown', put, _⟩ : Walked False task k w₁ (w₁.walkTurn task k cancelled) c :=
        shown.walkTurn here cancelled False.elim
      exact h.walked put shown' (own c' shown')
  | attempt a =>
      obtain ⟨c', a', _, _, put, _, same⟩ : Worked False task a w₁ (w₁.attemptTurn task a cancelled) c :=
        shown.attemptTurn here cancelled False.elim
      exact h.worked here put same

end LogicOf

/-- An edit sets a run-wide variable, or writes to the slot of an element that passes the test. -/
theorem Makes.slot {e : Edit} (makes : w.Makes task e) (shown : Shows none w c) (own : c.stage.Of P)
    (logic : w.LogicOf P) : P e.slot ∨ e.isShared = true := by
  have called : ∀ {p : Process}, p.Calls w.session e → P p.context.elementId → P e.slot ∨ e.isShared = true := by
    intro p ⟨step, _, asks⟩ passes
    rcases Step.edit?_slot asks with same | shared
    · exact .inl (same ▸ passes)
    · exact .inr shared
  have innermost : ∀ {k : Walk} {frame : Frame}, w.work? task = some (.walk k) → k.Live →
      frame ∈ k.traversal.stack.head? → frame.Of P := by
    intro k frame here live head
    have same := stageOf_traversal live (shown.alive here live.2)
    exact own.traversal frame (same ▸ List.mem_of_mem_head? head)
  cases makes with
  | attempt here calls => exact called calls (logic task _ here)
  | logic here live head drawn calls => exact called calls ((innermost here live head).source _ drawn)
  | closing here mode calls =>
      have stage := shown.alive here (by rw [mode]; exact nofun)
      simp only [stageOf, mode, Option.some.injEq] at stage
      exact called calls (own.logic _ (by rw [← stage]; rfl))
  | recorded run e here live head => exact .inl (innermost here live head).element

section Run

variable {graph : Graph} {registry : Registry} {draws : List Double} {commands : List (Command α)}

/-- A stage takes up no element but those of its graph. -/
theorem Shows.stage_of (shown : Shows none w c) (proper : ∀ x ∈ commands, x.Proper)
    (steps : (ofCommands (Session.ofGraph graph registry draws) commands).Leads w) :
    c.stage.Of fun id => ∃ e ∈ graph.elements, e.id = id := by
  have stored : 0 < (Session.ofGraph graph registry draws).stores.size := Nat.succ_pos 0
  obtain ⟨c', turns, shown'⟩ := (ofCommands_shows stored proper).leads steps
  rw [AtStage.unique shown.stage shown'.stage]
  clear shown shown'
  have start : Law.Holds graph (fun s st => st = .opening → s.Unstarted)
      (.ofSession (Session.ofGraph graph registry draws)) :=
    ⟨⟨stored, Stage.over_sound .normal _⟩, rfl, nofun, nofun, fun e member =>
      (List.not_mem_nil member).elim⟩
  induction turns with
  | refl => exact Stage.over_of .normal
  | tail turns turn ih =>
      have same := (Law.Holds.turns (unstarted_law graph) start turns).graph
      exact turn.of ih fun e member => ⟨e, same ▸ member, rfl⟩

theorem Leads.logic_of (steps : (ofCommands (Session.ofGraph graph registry draws) commands).Leads w)
    (proper : ∀ x ∈ commands, x.Proper) : w.LogicOf fun id => ∃ e ∈ graph.elements, e.id = id := by
  have stored : 0 < (Session.ofGraph graph registry draws).stores.size := Nat.succ_pos 0
  induction steps with
  | refl =>
      intro i a here
      cases i <;> cases here
  | tail steps step ih =>
      obtain ⟨c, _, shown⟩ := (ofCommands_shows stored proper).leads steps
      exact ih.step shown step fun c' shown' => shown'.stage_of proper (steps.tail step)

end Run

end World

/-- In a step of a world, the slots of all runs change by edits that are for one task to make, each in the slot
of an element of the graph or of a run-wide variable. When no element is called as the slot of these is, it
changes by the setting of run-wide variables alone. -/
theorem run_owns_slots {α : Type} {graph : Graph} {registry : Registry} {draws : List Double}
    {commands : List (Command α)} (proper : ∀ x ∈ commands, x.Proper) (leaves : ∀ x ∈ commands, x.LeavesSlots)
    {w w' : World α} (steps : (World.ofCommands (Session.ofGraph graph registry draws) commands).Leads w)
    (step : w.step = some w') :
    ∃ task edits, (∀ e ∈ edits, w.Makes task e ∧ ((∃ x ∈ graph.elements, x.id = e.slot) ∨ e.isShared = true)) ∧
      (∀ run id, (w'.session.slotsOf run).slot id =
        Edit.replay edits run id ((w.session.slotsOf run).slot id)) ∧
      ((∀ x ∈ graph.elements, x.id ≠ Slots.globalId) → ∀ run, (w'.session.slotsOf run).slot Slots.globalId =
        Edit.replay (edits.filter (·.isShared)) run Slots.globalId
          ((w.session.slotsOf run).slot Slots.globalId)) := by
  have stored : 0 < (Session.ofGraph graph registry draws).stores.size := Nat.succ_pos 0
  obtain ⟨c, _, shown⟩ := (World.ofCommands_shows stored proper).leads steps
  obtain ⟨task, edits, made, comes⟩ := World.step_edits (World.Leads.calls stored proper leaves steps) step
  have owned : ∀ e ∈ edits, (∃ x ∈ graph.elements, x.id = e.slot) ∨ e.isShared = true := fun e member =>
    (made e member).slot shown (shown.stage_of proper steps) (steps.logic_of proper)
  refine ⟨task, edits, fun e member => ⟨made e member, owned e member⟩, comes, fun apart run => ?_⟩
  rw [Edit.replay_filter]
  · exact comes run Slots.globalId
  · intro e member same
    rcases owned e member with ⟨x, inside, named⟩ | shared
    · exact absurd (named.trans same) (apart x inside)
    · exact shared

/-- In its eleventh step the world of two elements records what the first of them emits. -/
theorem World.pair_records : ((run 10 pair).session.slotsOf 1).slot "first" = [] ∧
    (run 10 pair).step.map (fun w => ((w.session.slotsOf 1).slot "first").length) = some 1 := by decide +kernel

/-- That is an edit of the slot of the first element, and the run-wide variables stay as they are set. -/
theorem run_owns_slots_pair : ∃ w' task edits, (World.run 10 .pair).step = some w' ∧
    (∀ e ∈ edits, (World.run 10 .pair).Makes task e) ∧
    ((w'.session.slotsOf 1).slot "first").length = 1 ∧
    (w'.session.slotsOf 1).slot "first" = Edit.replay edits 1 "first" [] ∧
    (w'.session.slotsOf 1).slot Slots.globalId = Edit.replay (edits.filter (·.isShared)) 1 Slots.globalId
      (((World.run 10 .pair).session.slotsOf 1).slot Slots.globalId) := by
  obtain ⟨empty, records⟩ := World.pair_records
  obtain ⟨w', step, gained⟩ := Option.map_eq_some_iff.mp records
  have leaves : ∀ x ∈ [Command.execute (α := Unit) .plain], x.LeavesSlots := by
    intro x member
    rw [List.mem_singleton.mp member]
    trivial
  have apart : ∀ x ∈ Graph.pair.elements, x.id ≠ Slots.globalId := by decide +kernel
  obtain ⟨task, edits, made, comes, globals⟩ :=
    run_owns_slots Request.plain_proper leaves (World.leads_run 10 World.pair) step
  refine ⟨w', task, edits, step, fun e member => (made e member).1, gained, ?_, globals apart 1⟩
  rw [comes, empty]

/-- An element that is called as the slot of the run-wide variables sets one of them by what it emits. -/
example : (World.run 50 (World.ofCommands (α := Unit)
    (.ofGraph ⟨[⟨Slots.globalId, "one", .int 0, .int 0, []⟩], []⟩ ⟨[("one", .one)]⟩ []) [.execute .plain])).tells
      (fun e => (e.session.slots.slot Slots.globalId).length == 1) = true := by decide +kernel

end BlockGraph
