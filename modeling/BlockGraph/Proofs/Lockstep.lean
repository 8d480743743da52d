import BlockGraph.Proofs.AlikeWorld
import BlockGraph.Proofs.Gated
/-!
Runs that differ in how many steps they may take. They go on in lockstep until the one that may take fewer
has used them up. From then on nothing more comes about in it, and what has come about in it came about in
the other one before anything else.
-/
namespace BlockGraph

namespace Session

/-- Whether what came about of visits in one session, and what listeners heard of it, came about in another
one before anything else. -/
structure Precedes (s t : Session) : Prop where
  visits : s.visits <+: t.visits
  heard : s.heardVisits <+: t.heardVisits

/-- Whether a run has found its steps used up. -/
def Spent (s : Session) : Prop := ∃ steps limit, .failed (.budget steps limit) ∈ s.history

namespace Precedes

variable {s s' s'' t : Session}

theorem of_eq (visits : t.visits = s.visits) (heard : t.heardVisits = s.heardVisits) : s.Precedes t :=
  ⟨visits ▸ List.prefix_rfl, heard ▸ List.prefix_rfl⟩

theorem refl (s : Session) : s.Precedes s := ⟨List.prefix_rfl, List.prefix_rfl⟩

theorem trans (h : s.Precedes s') (h' : s'.Precedes s'') : s.Precedes s'' :=
  ⟨h.visits.trans h'.visits, h.heard.trans h'.heard⟩

theorem note (s : Session) (x : Happening) : s.Precedes (s.note x) :=
  ⟨s.note_visits x ▸ List.prefix_append _ _, List.prefix_rfl⟩

theorem hears (s : Session) (e : Event) : s.Precedes (s.hears e) := by
  unfold Session.hears
  split
  · refine ⟨List.prefix_rfl, ?_⟩
    rw [heardVisits, heardVisits, Array.toList_push, List.filter_append]
    exact List.prefix_append _ _
  · exact refl s

end Precedes

/-- What tells of no visit leaves visits as they were. -/
theorem note_quiet (s : Session) {x : Happening} (quiet : x.visit? = none) : (s.note x).visits = s.visits := by
  rw [note_visits, quiet, Option.toList_none, List.append_nil]

end Session

theorem Kept.visits {s s' : Session} (k : Kept s s') : s'.visits = s.visits := by
  rw [Session.visits, Session.visits, k.history]

/-- What has come about in a run stays before what comes about later. -/
theorem Beat.precedes {s s' : Session} (h : Beat s s') (running : s.running = true) : s.Precedes s' := by
  have tells : ∀ x e, s.Precedes ((s.note x).hears e) := fun x e => (Session.Precedes.note s x).trans (.hears _ e)
  cases h with
  | deed d =>
      have kept := (Relation.ReflTransGen.single d |> Deeds.kept_of_running) running
      exact .of_eq kept.visits kept.heard
  | traversed c => exact tells _ _
  | started id => exact tells _ _
  | completed id => exact tells _ _
  | entered id => exact .note s _
  | failed f => exact .note s _
  | spent => exact .note s _
  | counted =>
      have counts : s.Precedes { s with steps := s.steps + 1 } := .of_eq rfl rfl
      exact counts.trans (.note _ _)
  | recorded id e =>
      have records : (s.note (.emitted id e)).Precedes (s.record id e) := .of_eq rfl rfl
      exact (Session.Precedes.note s _).trans records
  | turned id => exact .of_eq rfl rfl
  | opened id => exact .of_eq rfl rfl

theorem Beats.precedes {s s' : Session} (h : Beats s s') (running : s.running = true) : s.Precedes s' := by
  induction h with
  | refl => exact .refl s
  | tail before beat ih => exact ih.trans (beat.precedes (Beats.sameRun before running).1)

/-! ### Moves of traversals -/

namespace Traversal

variable {s : Session}

theorem visit_overBudget (t : Traversal) (on : s.active = true)
    (beyond : s.options.maxSteps < ((s.steps + 1 : Nat) : Int)) (id : String) :
    t.visit s id = (.fail (.budget ((s.steps + 1 : Nat) : Int) s.options.maxSteps) t, s.counted) := by
  unfold visit
  rw [begin_overBudget on beyond]

end Traversal

namespace Session.Alike

variable {s t : Session}

theorem precedes (h : s.Alike t) : s.Precedes t := by
  obtain ⟨⟨_, _, _, rfl⟩, visits, _⟩ := h
  exact .of_eq rfl visits

theorem run (h : s.Alike t) : t.run = s.run := by
  obtain ⟨⟨_, _, _, rfl⟩, _⟩ := h
  rfl

/-- A visit for which there is no step left. -/
theorem visit_spent (h : s.Alike t) {t₀ : Session} (owes : t₀.Owes t) (on : s.active = true)
    (running : t.running = true)
    (beyond : s.options.maxSteps < ((s.steps + 1 : Nat) : Int)) (walk : Traversal) (id : String) :
    (Stage.settle (walk.visit s id)).2.Spent ∧
      (Stage.settle (walk.visit s id)).2.Precedes (Stage.settle (walk.visit t id)).2 := by
  rw [walk.visit_overBudget on beyond id]
  have stops : (s.counted.note (.failed (.budget ((s.steps + 1 : Nat) : Int) s.options.maxSteps))).Precedes s := by
    have counts : s.counted.visits = s.visits := Session.note_quiet { s with steps := s.steps + 1 } rfl
    exact .of_eq (counts.symm.trans (s.counted.note_quiet rfl).symm) rfl
  refine ⟨⟨_, _, List.mem_cons_self⟩, ?_⟩
  exact (stops.trans h.precedes).trans ((walk.owed_beats owes id).precedes running)

/-- A traversal goes on alike, or it finds that there is no step left. -/
theorem goesOn (h : s.Alike t) (settled : t.Settled) (running : s.running = true) (walk : Traversal) :
    Likens Alike (walk.step s) (walk.step t) ∨ (Stage.settle (walk.step s)).2.Spent ∧
      (Stage.settle (walk.step s)).2.Precedes (Stage.settle (walk.step t)).2 := by
  by_cases room : s.Room t
  · exact .inl (h.step room walk)
  obtain ⟨on, _, spent⟩ : s.active = true ∧ t.options.maxSteps ≠ s.options.maxSteps ∧
      ¬((s.steps + 1 : Nat) : Int) ≤ s.options.maxSteps := by
    unfold Room at room
    simpa only [Classical.not_imp, not_or] using room
  have beyond := Int.not_le.mp spent
  have on' : t.active = true := h.active.trans on
  have running' : t.running = true := h.running.trans running
  obtain ⟨entries, stack⟩ := walk
  cases stack with
  | nil =>
      cases entries with
      | nil => exact .inl ⟨rfl, h⟩
      | cons id rest =>
          unfold Traversal.step
          simp only [on, on']
          exact .inr ((likeness.note h (.entered id)).visit_spent (settled.entered on' id) on running' beyond _ id)
  | cons frame outer =>
      cases pending : frame.pending with
      | nil =>
          unfold Traversal.step
          simp only [pending]
          exact .inl (likeness.advanceFrame h _ frame)
      | cons c rest =>
          have told := (likeness.note h (.traversed c.id)).notify (.traverse c.id)
          have owes := settled.traversed on' c
          have hears : (s.note (.traversed c.id)).notify (.traverse c.id) = s.traversing c :=
            notify_hears (s := s.note (.traversed c.id)) h.records _
          unfold Traversal.step
          simp only [pending, on, on']
          refine .inr (told.visit_spent owes ?_ ((Beats.sameRun owes.beats running').1) ?_ _ c.target)
          · rw [hears, traversing_active]
            exact on
          · rw [hears, traversing_options, traversing_steps]
            exact beyond

end Session.Alike

namespace World

variable {α : Type} {w w₁ w' : World α} {c c' : Course}

/-! ### Steps -/

/-- Whether a run keeps up with another one: they have come to the same, or it has used up its steps and what
has come about in it came about in the other one. -/
def Follows (w w' : World α) : Prop :=
  w.Alike w' ∨ w.session.Spent ∧ w.session.Precedes w'.session

theorem Follows.precedes (h : w.Follows w') : w.session.Precedes w'.session :=
  h.elim (fun alike => alike.session.precedes) And.right

/-- Worlds that have come to the same go on in lockstep, until the first finds that there is no step left. -/
theorem StepsOn.follows (on : w.StepsOn w₁) (h : Shows none w c) (h' : Shows none w' c')
    (settled : w'.session.Settled) (blind : w.Calls Command.Blind) (alike : w.Alike w') :
    ∃ w₁', w'.StepsOn w₁' ∧ w₁.Follows w₁' := by
  have running' : w'.session.running = true := alike.session.running.trans on.running
  rcases alike.like.step on.step with
    ⟨w₁', step', _, _, alike₁⟩ | ⟨u, u', task, x, x', cancelled, quiet, quiet', like, here, here', plain, rfl, step'⟩
  · refine ⟨w₁', ⟨running', step', alike₁.session.running.trans on.still, ?_⟩, .inl alike₁.alike⟩
    rw [alike₁.session.run, alike.session.run, on.run]
  · have alikeU := like.alike
    have plain : x'.plain = x.plain := plain
    have shown := h.quiet quiet
    have shown' := h'.quiet quiet'
    have running : u.session.running = true := quiet.session ▸ on.running
    have free := shown.unwaiting here cancelled running on.still (quiet.session ▸ on.run)
    have free' : x'.pending? = none := by
      rcases Work.eq_of_plain plain with rfl | ⟨_, _, rfl, rfl⟩
      · exact free
      · rfl
    have grows := shown'.works_grows here' cancelled (quiet'.session ▸ running') free'
    rw [quiet'.session] at grows
    refine ⟨_, ⟨running', step', grows.running.trans running', grows.run⟩, ?_⟩
    by_cases goes : ∀ k, x = .walk k → k.mode = .walking → cancelled = false →
        Likens Session.Alike (k.traversal.step u.session) (k.traversal.step u'.session)
    · refine .inl (alikeU.turns task plain free (shown.proper task x here) ?_ cancelled running goes)
      rintro c rfl
      exact blind.quiet quiet task c here
    · obtain ⟨⟨t, mode⟩, rfl, rfl, rfl, other⟩ : ∃ k, x = .walk k ∧ k.mode = .walking ∧ cancelled = false ∧
          ¬Likens Session.Alike (k.traversal.step u.session) (k.traversal.step u'.session) := by
        simpa only [not_forall, exists_prop] using goes
      obtain rfl : x' = .walk ⟨t, .walking⟩ := by
        rcases Work.eq_of_plain plain with same | ⟨_, _, same, _⟩
        · exact same
        · cases same
      right
      have moves : ∀ v : World α, (v.works task (.walk ⟨t, .walking⟩) false).session =
          (Stage.settle (t.step v.session)).2 := fun v => v.walkMove_session task _
      rw [moves, moves]
      exact (alikeU.session.goesOn (quiet'.session ▸ settled) running t).resolve_left other

end World

end BlockGraph
