import BlockGraph.Proofs.Endings
/-!
Admission: an execution that is asked for is declined at once, or begins a run. What a caller does in between
puts no block logic to work, and no traversal but that of such a run.
-/
namespace BlockGraph

/-- How an execution that is asked for is declined, and what that leaves of the session. -/
inductive Session.Declined (s : Session) (r : Request) : Execution → Session → Prop
  | options (f : OptionsFault) : r.options = .error f → s.Declined r ⟨.refused f, s, 0, r.listener.number⟩ s
  | busy (options : Options) (f : RunFault) : r.options = .ok options → f = .inProgress ∨ f = .shuttingDown →
      s.Declined r ⟨.failed f, Session.tell 2 s options r.listener (.error f), 0, r.listener.number⟩
        (Session.tell 2 s options r.listener (.error f))
  | bindings (options : Options) (f : Fault) : r.options = .ok options → s.running = false →
      r.bindings? = .error f →
      s.Declined r ⟨.failed (.value f), { s.cleared with options, listener := r.listener }, 0, r.listener.number⟩
        { s.cleared with options, listener := r.listener }

namespace World

variable {α : Type}

/-- What an execution comes to that is let through: its traversal is new, and the session runs. -/
structure Admitted (w : World α) (r : Request) (p : Pending) (w' : World α) : Prop where
  taken : ∃ options bindings, r.options = .ok options ∧ r.bindings? = .ok bindings ∧
    w.session.running = false ∧ w'.session = w.session.taken options r.listener bindings
  listener : p.listener = r.listener.number
  replies : w'.replies = w.replies
  work : ∀ i, w'.work? i = if i = w.tasks.size then some (.walk ⟨⟨[], []⟩, .opening⟩) else w.work? i

/-- An execution that is asked for is declined or let through. -/
theorem begin_cases (w : World α) (task : Nat) (r : Request) :
    (∃ e s, w.begin task r = (.inl e, w.withSession s) ∧ w.session.Declined r e s) ∨
      ∃ p w', w.begin task r = (.inr p, w') ∧ w.Admitted r p w' := by
  unfold World.begin
  cases accepted : r.options with
  | error f => exact .inl ⟨_, w.session, rfl, .options f accepted⟩
  | ok options =>
      simp only
      split
      · exact .inl ⟨_, _, rfl, .busy options .inProgress accepted (.inl rfl)⟩
      · rename_i free
        have idle := Bool.eq_false_iff.mpr free
        split
        · exact .inl ⟨_, _, rfl, .busy options .shuttingDown accepted (.inr rfl)⟩
        · split
          · rename_i f named
            exact .inl ⟨_, _, rfl, .bindings options f accepted idle named⟩
          · rename_i bindings named
            refine .inr ⟨_, _, rfl, ⟨options, bindings, accepted, named, idle, ?_⟩, rfl, ?_, fun i => ?_⟩
            · exact (schedule_quiet _ task _ _).session.trans (park_quiet _ task).session
            · exact (schedule_quiet _ task _ _).replies.trans (park_quiet _ task).replies
            · refine ((schedule_quiet _ task _ _).work i).trans ((spawn_work _ _ _ i).trans ?_)
              have size : ((w.withSession (w.session.taken options r.listener bindings)).park task).2.tasks.size =
                  w.tasks.size := Array.size_modify
              rw [size, (park_quiet _ task).work i]
              rfl

theorem Admitted.running {w w' : World α} {r : Request} {p : Pending} (h : w.Admitted r p w') :
    w'.session.running = true := by
  obtain ⟨options, bindings, _, _, _, same⟩ := h.taken
  rw [same]
  exact taken_running _ _ _ _

/-! ### Succession -/

/-- Whether all work of some kind in a world was there in another. -/
def Inherits (Q : Work α → Prop) (w w' : World α) : Prop := ∀ i x, Q x → w'.work? i = some x → w.work? i = some x

namespace Inherits

variable {Q : Work α → Prop} {w w₁ w' : World α} {task : Nat}

theorem trans (h : Inherits Q w w₁) (h' : Inherits Q w₁ w') : Inherits Q w w' := fun i x kind here =>
  h i x kind (h' i x kind here)

theorem of_work (same : ∀ i, w'.work? i = w.work? i) : Inherits Q w w' := fun i _ _ here => (same i).symm.trans here

theorem quiet (q : Quiet w w') : Inherits Q w w' := of_work q.work

theorem put {x : Work α} (other : ¬Q x) : Inherits Q w (w.withWork task x) := by
  intro i y kind here
  rw [withWork_work] at here
  split at here
  · obtain ⟨_, _, rfl⟩ := Option.map_eq_some_iff.mp here
    exact absurd kind other
  · exact here

theorem spawn {x : Work α} (other : ¬Q x) (watchers : List Watcher) :
    Inherits Q w (w.spawn x watchers).2 := by
  intro i y kind here
  rcases spawn_old here with ⟨_, rfl⟩ | old
  · exact absurd kind other
  · exact old

theorem admitted {r : Request} {p : Pending} (h : w.Admitted r p w')
    (opens : Q (.walk ⟨⟨[], []⟩, .opening⟩) → w'.session.running = false) : Inherits Q w w' := by
  intro i x kind here
  rw [h.work] at here
  split at here
  · cases here
    exact absurd (h.running.symm.trans (opens kind)) nofun
  · exact here

theorem conclude (w : World α) (task : Nat) (p : Pending) (cancelled : Bool) :
    Inherits Q w (w.conclude task p cancelled).2 := of_work (Shows.conclude_work w task p cancelled)

section Outer

variable (inner : ∀ x, Q x → x.Inner)
include inner

theorem putCaller (c : Caller α) : Inherits Q w (w.withWork task (.caller c)) := .put fun kind =>
  Work.caller_outer c (inner _ kind)

theorem runnerOver (w : World α) (task : Nat) (e : Execution) : Inherits Q w (World.runnerOver task (e, w)) :=
  (put fun kind => Work.runner_outer _ (inner _ kind)).trans (.quiet (w.runnerOver_quiet task e))

theorem command (commands : List (Command α)) (w : World α) (task : Nat) (started : List Nat)
    (opens : Q (.walk ⟨⟨[], []⟩, .opening⟩) → (w.command task started commands).session.running = false) :
    Inherits Q w (w.command task started commands) := by
  induction commands generalizing w started with
  | nil => exact (putCaller inner _).trans (.quiet (w.commandNil_quiet task started))
  | cons x rest ih =>
      cases x with
      | act f =>
          have acted : Inherits Q w ((w.withSession (f w.session).2).reply (.acted (f w.session).1)) :=
            of_work fun _ => rfl
          exact acted.trans (ih _ started opens)
      | wait length => exact (putCaller inner _).trans (.quiet (sleep_quiet _ _ _))
      | execute r =>
          unfold World.command at opens ⊢
          rcases w.begin_cases task r with ⟨e, s, begun, _⟩ | ⟨p, w', begun, admitted⟩
          · simp only [begun] at opens ⊢
            have declined : Inherits Q w ((w.withSession s).reply (.executed e)) := of_work fun _ => rfl
            exact declined.trans (ih _ started opens)
          · simp only [begun] at opens ⊢
            exact (Inherits.admitted admitted opens).trans (putCaller inner _)
      | start r =>
          have other : ¬Q (.runner (.fresh r)) := fun kind => Work.runner_outer _ (inner _ kind)
          exact (spawn other []).trans (ih _ _ opens)
      | cancel =>
          cases started with
          | nil => exact ih w [] opens
          | cons runner older => exact (quiet (w.cancel_quiet runner)).trans (ih _ _ opens)
      | join =>
          cases started with
          | nil => exact ih w [] opens
          | cons runner older =>
              unfold World.command at opens ⊢
              cases ended : w.execution? runner with
              | some e =>
                  simp only [ended] at opens ⊢
                  have told : Inherits Q w (w.reply (.executed e)) := of_work fun _ => rfl
                  exact told.trans (ih _ older opens)
              | none =>
                  simp only [ended]
                  exact (quiet ((w.park_quiet task).trans (watch_quiet _ runner _))).trans (putCaller inner _)

/-- What is at work after a turn of a caller or of an execution was so before it. -/
theorem works {x : Work α} (outer : ¬x.Inner) (cancelled : Bool)
    (opens : Q (.walk ⟨⟨[], []⟩, .opening⟩) → (w.works task x cancelled).session.running = false) :
    Inherits Q w (w.works task x cancelled) := by
  cases x with
  | walk k => exact absurd (.walk k) outer
  | attempt a => exact absurd (.attempt a) outer
  | runner m =>
      cases m with
      | «over» e => exact of_work fun _ => rfl
      | pending p => exact (conclude w task p cancelled).trans (runnerOver inner _ task _)
      | fresh r =>
          cases cancelled with
          | true => exact runnerOver inner w task _
          | false =>
              unfold World.works World.runnerTurn at opens ⊢
              rcases w.begin_cases task r with ⟨e, s, begun, _⟩ | ⟨p, w', begun, admitted⟩
              · simp only [begun]
                have declined : Inherits Q w (w.withSession s) := of_work fun _ => rfl
                exact declined.trans (runnerOver inner _ task e)
              · simp only [begun] at opens ⊢
                exact (Inherits.admitted admitted opens).trans
                  (put fun kind => Work.runner_outer _ (inner _ kind))
  | caller k =>
      obtain ⟨commands, mode, started⟩ := k
      have does : ∀ w₁ : World α, (∀ i, w₁.work? i = w.work? i) →
          (Q (.walk ⟨⟨[], []⟩, .opening⟩) → (w₁.command task started commands).session.running = false) →
          Inherits Q w (w₁.command task started commands) := fun w₁ same opens =>
        (of_work same).trans (command inner commands w₁ task started opens)
      cases mode with
      | «over» => exact of_work fun _ => rfl
      | ready => exact does w (fun _ => rfl) opens
      | waiting => exact does (w.reply .waited) (fun _ => rfl) opens
      | executing p =>
          exact does ((w.conclude task p cancelled).2.reply (.executed (w.conclude task p cancelled).1))
            (Shows.conclude_work w task p cancelled) opens
      | joining runner =>
          unfold World.works World.callerTurn at opens ⊢
          cases ended : w.execution? runner with
          | some e =>
              simp only [ended] at opens ⊢
              exact does (w.reply (.executed e)) (fun _ => rfl) opens
          | none =>
              simp only [ended] at opens ⊢
              exact does w (fun _ => rfl) opens

end Outer

end Inherits

end World

end BlockGraph
