import BlockGraph.Proofs.Endless
/-!
Civil logic. It raises no time-outs of its own and holds on to nothing: when it is interrupted in its sleep, or
closed, its closing steps run to their end at once. In a run of such logic all that is under way is civil.
-/
namespace BlockGraph

/-! ### Logic that ends -/

namespace Cursor

variable {c : Context} {s : Session} {e : Ending}

theorem close_ended {steps : List Step} {pending : Ending} (ended : (close c steps pending s).1 = .ended e) :
    (close c steps pending s).2.1 = .over := by
  unfold close at ended ⊢
  split
  · rfl
  · rfl
  · rename_i still other same
    simp only [same] at ended
    exact absurd ended (other e)

theorem breakOff_ended {cursor : Cursor} {how : Ending} (ended : (breakOff c cursor how s).1 = .ended e) :
    (breakOff c cursor how s).2.1 = .over := by
  unfold breakOff at ended ⊢
  split
  · rfl
  · rename_i same
    simp only [same] at ended
    exact close_ended ended

end Cursor

/-! ### Logic under way -/

namespace Process

/-- Whether logic under way is polite next, whatever it is asked for. -/
structure Polite (p : Process) : Prop where
  raises : ∀ s f, (p.resume s).1 = .ended (.fault f) → f.kind ≠ .timeout
  yields : ∀ s length, (p.resume s).1 ≠ .sleep length true
  interrupted : ∀ s, (p.interrupt s).1 = .ended .interrupted
  closed : ∀ s, (p.close s).1 = .ended .closed

/-- Whether logic under way is polite, however often it is resumed. -/
def Civil (p : Process) : Prop :=
  ∀ q, Relation.ReflTransGen (fun p q => ∃ s, (p.resume s).2.1 = q) p q → q.Polite

variable {p : Process} {s : Session} {e : Ending}

theorem Civil.polite (h : p.Civil) : p.Polite := h p .refl

theorem Civil.resume (h : p.Civil) (s : Session) : (p.resume s).2.1.Civil := fun q leads =>
  h q (.head ⟨s, rfl⟩ leads)

/-- What keeps polite when it is resumed is civil. -/
theorem Civil.of_invariant {P : Process → Prop} (polite : ∀ p, P p → p.Polite)
    (resumed : ∀ p, P p → ∀ s, P (p.resume s).2.1) (h : P p) : p.Civil := by
  intro q leads
  refine polite q ?_
  induction leads with
  | refl => exact h
  | tail _ step ih =>
      obtain ⟨s, rfl⟩ := step
      exact resumed _ ih s

/-- Logic that is over asks for nothing. -/
theorem Civil.of_over (ended : p.progress = .over) : p.Civil := by
  refine .of_invariant (P := fun p => p.progress = .over) (fun p ended => ?_) (fun p ended s => ?_) ended
  · refine ⟨fun s f raised => ?_, fun s length => ?_, fun s => ?_, fun s => ?_⟩
    · rw [resume_over ended] at raised
      cases raised
    · rw [resume_over ended]
      exact nofun
    · unfold Process.interrupt
      rw [ended]
    · unfold Process.close
      rw [ended]
  · rw [resume_over ended]
    exact ended

/-- Logic that was closed is over. -/
theorem Civil.close (h : p.Civil) (s : Session) : (p.close s).2.1.Civil := by
  have ended := h.polite.closed s
  unfold Process.close at ended ⊢
  split
  · rename_i same
    rw [same] at ended
    exact .of_over (Cursor.breakOff_ended ended)
  · exact .of_over rfl

/-- Logic that was interrupted in its sleep is over. -/
theorem Civil.interrupt (h : p.Civil) (s : Session) : (p.interrupt s).2.1.Civil := by
  have ended := h.polite.interrupted s
  unfold Process.interrupt at ended ⊢
  split
  · rename_i same
    rw [same] at ended
    exact .of_over (Cursor.breakOff_ended ended)
  · exact h

end Process

/-- Whether logic is civil, wherever it is started. -/
def Logic.Civil (logic : Logic) : Prop := ∀ c, Process.Civil ⟨c, .fresh logic⟩

/-- Whether the logic of all elements of a session is civil. -/
def Session.Civil (s : Session) : Prop :=
  ∀ e ∈ s.graph.elements, ∀ d, s.registry.find? e.type = some d → d.logic.Civil

/-! ### Scripts -/

/-- Whether a step is taken at once, raises no time-out and does not insist on its sleep, wherever that is. -/
def Step.Tame (step : Step) : Prop := ∀ c s, match (step.take c s).1 with
  | .done | .item _ => True
  | .itemThen _ _ => False
  | .sleep _ insists => insists = false
  | .fault f => f.kind ≠ .timeout

theorem Step.sleep_tame (length : Span) : (Step.sleep length).Tame := fun _ _ => rfl

theorem Emission.ofParts_kind {port value : Value} {f : Fault} (fails : ofParts port value = .error f) :
    f.kind = .value := by
  unfold ofParts at fails
  split at fails
  · split at fails
    · cases fails
      rfl
    · split at fails
      · split at fails <;> cases fails
        rfl
      · split at fails <;> cases fails
        rfl
      · split at fails <;> cases fails
        rfl
      · cases fails
  · cases fails
    rfl

theorem Step.emit_tame (port value : Value) : (Step.emit port value).Tame := by
  intro c s
  cases parts : Emission.ofParts port value with
  | ok e =>
      have taken : ((Step.emit port value).take c s).1 = .item e.toItem := by
        show emitted (.ok port) (.ok value) = _
        rw [emitted, parts]
      rw [taken]
      trivial
  | error f =>
      have taken : ((Step.emit port value).take c s).1 = .fault f := by
        show emitted (.ok port) (.ok value) = _
        rw [emitted, parts]
      rw [taken]
      show f.kind ≠ .timeout
      rw [Emission.ofParts_kind parts]
      exact nofun

namespace Cursor

variable {c : Context} {s : Session} {steps : List Step}

/-- What tame steps come to, and which of them are left. -/
inductive Tamed : Pause → List Step → Prop
  | item {v : Value} {rest : List Step} : (∀ step ∈ rest, step.Tame) → Tamed (.item v) rest
  | sleep {length : Span} {rest : List Step} : (∀ step ∈ rest, step.Tame) → Tamed (.sleep length false) rest
  | normal : Tamed (.ended .normal) []
  | fault {f : Fault} : f.kind ≠ .timeout → Tamed (.ended (.fault f)) []

theorem advance_tamed (tame : ∀ step ∈ steps, step.Tame) (s : Session) :
    Tamed (advance c steps s).1 (advance c steps s).2.1 := by
  induction steps generalizing s with
  | nil => exact .normal
  | cons step rest ih =>
      obtain ⟨here, others⟩ := List.forall_mem_cons.mp tame
      have here := here c s
      unfold advance
      generalize step.take c s = r at here ⊢
      obtain ⟨taken, s'⟩ := r
      cases taken with
      | done => exact ih others s'
      | item v => exact .item others
      | itemThen v next => exact here.elim
      | sleep length insists =>
          cases here
          exact .sleep others
      | fault f => exact .fault here

end Cursor

namespace Process

/-- Whether logic has only tame steps ahead, and none to close with. -/
inductive Tame : Progress → Prop
  | fresh {form : Form} {steps : List Step} : (∀ step ∈ possible form steps, step.Tame) →
      Tame (.fresh (.script form steps []))
  | resting {steps : List Step} : (∀ step ∈ steps, step.Tame) → Tame (.resting ⟨steps, [], none⟩)
  | «over» : Tame .over

variable {p : Process}

/-- What logic with tame steps comes to when it goes on. -/
theorem Tame.resume (h : Tame p.progress) (s : Session) : Tame (p.resume s).2.1.progress ∧
    (∀ length, (p.resume s).1 ≠ .sleep length true) ∧ ∀ f, (p.resume s).1 = .ended (.fault f) → f.kind ≠ .timeout := by
  have cursor : ∀ {steps}, (∀ step ∈ steps, step.Tame) →
      Tame (Cursor.resume p.context ⟨steps, [], none⟩ s).2.1 ∧
      (∀ length, (Cursor.resume p.context ⟨steps, [], none⟩ s).1 ≠ .sleep length true) ∧
      ∀ f, (Cursor.resume p.context ⟨steps, [], none⟩ s).1 = .ended (.fault f) → f.kind ≠ .timeout := by
    intro steps tame
    have goes := Cursor.advance_tamed (c := p.context) tame s
    unfold Cursor.resume
    simp only
    generalize Cursor.advance p.context steps s = r at goes ⊢
    obtain ⟨pause, rest, s'⟩ := r
    cases goes with
    | item rest => exact ⟨.resting rest, nofun, nofun⟩
    | sleep rest => exact ⟨.resting rest, nofun, nofun⟩
    | normal => exact ⟨.over, nofun, nofun⟩
    | fault kind => exact ⟨.over, nofun, fun f same => by cases same; exact kind⟩
  obtain ⟨c, progress⟩ := p
  cases h with
  | @fresh form steps tame =>
      have closing : possible form [] = [] := by cases form <;> rfl
      have begins : resume ⟨c, .fresh (.script form steps [])⟩ s =
          put ⟨c, .fresh (.script form steps [])⟩ (Cursor.resume c ⟨possible form steps, [], none⟩ s) := by
        show put _ (Cursor.resume c ⟨possible form steps, possible form [], none⟩ s) = _
        rw [closing]
      rw [begins]
      exact cursor tame
  | resting tame => exact cursor tame
  | «over» => exact ⟨.over, nofun, nofun⟩

theorem Tame.civil (h : Tame p.progress) : p.Civil := by
  refine .of_invariant (P := fun p => Tame p.progress) (fun p h => ?_) (fun p h s => (h.resume s).1) h
  refine ⟨fun s f raised => (h.resume s).2.2 f raised, fun s => (h.resume s).2.1, fun s => ?_, fun s => ?_⟩
  · obtain ⟨c, progress⟩ := p
    cases h <;> rfl
  · obtain ⟨c, progress⟩ := p
    cases h <;> rfl

end Process

/-- A script of tame steps that closes with none is civil. -/
theorem Logic.civil_of_tame {form : Form} {steps : List Step} (tame : ∀ step ∈ Process.possible form steps, step.Tame) :
    (Logic.script form steps []).Civil :=
  fun _ => Process.Tame.civil (.fresh tame)

/-! ### Stages -/

namespace Stage

/-- Whether all logic at work in a stage is civil. -/
def Civil (st : Stage) : Prop := ∀ p ∈ st.processes, p.Civil

variable {st st' : Stage} {s s' : Session}

/-- A traversal that is left to itself starts civil logic. -/
theorem Civil.next (h : st.Civil) (stored : 0 < s.stores.size) (civil : s.Civil)
    (next : st.next s = some (st', s')) : st'.Civil := by
  intro p member
  have others : ∀ {q r : Process} {rest : List Process}, st.processes = q :: rest →
      st'.processes.Sublist (r :: rest) → (q.Civil → r.Civil) → p.Civil := by
    intro q r rest same fewer goes
    obtain ⟨here, others⟩ := List.forall_mem_cons.mp (same ▸ h : ∀ p ∈ q :: rest, p.Civil)
    rcases List.mem_cons.mp (fewer.subset member) with rfl | old
    · exact goes here
    · exact others p old
  cases next_shifts stored next with
  | started inside known _ _ same =>
      rw [same] at member
      rcases List.mem_cons.mp member with rfl | old
      · exact civil _ inside _ known _
      · exact h p old
  | kept _ fewer => exact h p (fewer.subset member)
  | resumed _ same fewer => exact others same fewer (·.resume s)
  | closed _ same fewer => exact others same fewer (·.close s)

/-- What is cut short stays civil. -/
theorem Civil.cut (h : st.Civil) (cut : Cut st s st' s') : st'.Civil := by
  intro p member
  cases cut with
  | giveUp t a => exact h p member
  | drop t a => exact h p member
  | insist t a => exact h p member
  | interrupt t a given? =>
      rcases List.mem_cons.mp member with rfl | old
      · rw [Attempt.paused_process]
        exact (h _ List.mem_cons_self).interrupt s
      · exact h p (List.mem_cons_of_mem _ old)
  | leave t a given? =>
      have fewer := t.withSource_processes (World.sourceOf a)
      rcases List.mem_append.mp (fewer.subset member) with drawn | old
      · rw [List.mem_singleton.mp ((sourceOf_process a).subset drawn)]
        exact h _ List.mem_cons_self
      · exact h p (List.mem_cons_of_mem _ (t.behind_sublist.subset old))
  | cancel => exact h p (List.mem_append_right _ member)
  | refuse => cases member
  | insistClosing t q => exact h p member
  | interruptClosing t q e =>
      rcases List.mem_cons.mp ((closed_processes t e _).subset member) with rfl | old
      · exact (h _ List.mem_cons_self).interrupt s
      · exact h p (List.mem_cons_of_mem _ old)

end Stage

theorem Passes.civil {calm : Prop} {c c' : Course} (h : Passes calm c c') (stored : 0 < c.session.stores.size)
    (known : c.session.Civil) (civil : c.stage.Civil) : c'.stage.Civil := by
  cases h with
  | rest => exact civil
  | next _ next => exact civil.next stored known next
  | cut _ _ cut => exact civil.cut cut
  | aside => exact civil

end BlockGraph
