import BlockGraph.Proofs.Lifecycle
import Mathlib.Algebra.Ring.Nat
/-!
Budgets: every visit that is attempted is counted, once for the entry point or the connection that led
to it, and a run is over its budget as soon as an attempt of an active run exceeds it, and only then.
-/
namespace BlockGraph

namespace Happening

def isAttempt : Happening → Bool
  | .attempted _ => true
  | _ => false

def isTraversal : Happening → Bool
  | .traversed _ => true
  | _ => false

def isEntrance : Happening → Bool
  | .entered _ => true
  | _ => false

/-- Whether it leads to a visit, or is one. -/
def ofVisit : Happening → Bool
  | .entered _ | .attempted _ | .started _ | .traversed _ => true
  | _ => false

/-- The count and the limit that a failure for lack of budget tells. -/
def overBudget? : Happening → Option (Int × Int)
  | .failed (.budget steps limit) => some (steps, limit)
  | _ => none

/-- How many connections of a graph an emission fires. -/
def firings (g : Graph) : Happening → Nat
  | .emitted id e => ((g.outgoing id).filter (·.carries e.port)).length
  | _ => 0

/-- Histories in which attempts are counted against a limit. When an active attempt exceeds it, the
budget is spent: that is a failure, and no visit follows. -/
inductive Accounted (limit : Int) : List Happening → Nat → Bool → Prop
  | nothing : Accounted limit [] 0 false
  | attempt (active : Bool) {history : List Happening} {n : Nat} : Accounted limit history n false →
      (active = true → ((n + 1 : Nat) : Int) ≤ limit) →
      Accounted limit (.attempted active :: history) (n + 1) false
  | spend {history : List Happening} {n : Nat} : Accounted limit history n false → (n : Int) = limit →
      Accounted limit (.failed (.budget ((n + 1 : Nat) : Int) limit) :: .attempted true :: history)
        (n + 1) true
  | other {x : Happening} {history : List Happening} {n : Nat} {spent : Bool} : x.isAttempt = false →
      x.overBudget? = none → (spent = true → x.ofVisit = false) → Accounted limit history n spent →
      Accounted limit (x :: history) n spent

namespace Accounted

variable {limit : Int} {history : List Happening} {n : Nat} {spent : Bool}

theorem attempts (h : Accounted limit history n spent) : n = history.countP isAttempt := by
  induction h with
  | nothing => rfl
  | attempt active _ _ ih => rw [List.countP_cons_of_pos rfl, ← ih]
  | spend _ _ ih => rw [List.countP_cons_of_neg Bool.false_ne_true, List.countP_cons_of_pos rfl, ← ih]
  | other counted _ _ _ ih => rw [List.countP_cons_of_neg (by rw [counted]; exact Bool.false_ne_true), ← ih]

/-- As long as the budget is not spent there is no failure for lack of it. -/
theorem within (h : Accounted limit history n spent) (left : spent = false) :
    ∀ x ∈ history, x.overBudget? = none := by
  induction h with
  | nothing => exact fun _ member => (List.not_mem_nil member).elim
  | attempt active _ _ ih =>
      intro x member
      rcases List.mem_cons.mp member with rfl | old
      · rfl
      · exact ih rfl x old
  | spend _ _ _ => cases left
  | other _ none _ _ ih =>
      intro x member
      rcases List.mem_cons.mp member with rfl | old
      · exact none
      · exact ih left x old

/-- A failure for lack of budget comes with the active attempt that exceeds it, tells the count and the
limit, and no visit follows. -/
theorem raised (h : Accounted limit history n spent) {after before : List Happening} {steps bound : Int}
    (here : history = after ++ .failed (.budget steps bound) :: before) :
    steps = limit + 1 ∧ bound = limit ∧ (∃ earlier, before = .attempted true :: earlier) ∧
      (before.countP isAttempt : Int) = limit + 1 ∧ ∀ x ∈ after, x.ofVisit = false := by
  have none : ∀ {history n}, Accounted limit history n false → ∀ {after},
      history ≠ after ++ .failed (.budget steps bound) :: before := by
    intro history n h after same
    have clean := h.within rfl (.failed (.budget steps bound)) (by rw [same]; simp)
    cases clean
  induction h generalizing after with
  | nothing => exact absurd here (none .nothing)
  | attempt active h within _ => exact absurd here (none (.attempt active h within))
  | @spend history n h full _ =>
      cases after with
      | nil =>
          obtain ⟨same, rfl⟩ := List.cons.inj here
          cases same
          have counted := (h.spend full).attempts
          rw [List.countP_cons_of_neg Bool.false_ne_true] at counted
          refine ⟨by omega, rfl, ⟨history, rfl⟩, by omega, fun _ member => ?_⟩
          exact (List.not_mem_nil member).elim
      | cons x after =>
          obtain ⟨_, rest⟩ := List.cons.inj here
          cases after with
          | nil => cases rest
          | cons y after => exact absurd (List.cons.inj rest).2 (none h)
  | @other x history n spent _ clean quiet h ih =>
      cases after with
      | nil =>
          obtain ⟨rfl, _⟩ := List.cons.inj here
          cases clean
      | cons y after =>
          obtain ⟨rfl, rest⟩ := List.cons.inj here
          obtain ⟨count, bound, attempt, full, follows⟩ := ih rest
          have spent : spent = true := by
            cases spent with
            | true => rfl
            | false => exact absurd rest (none h)
          refine ⟨count, bound, attempt, full, fun z member => ?_⟩
          rcases List.mem_cons.mp member with rfl | old
          · exact quiet spent
          · exact follows z old

/-- An active attempt that finds the budget used up fails at once. -/
theorem spends (h : Accounted limit history n spent) {after before : List Happening}
    (here : history = after ++ .attempted true :: before)
    (full : (before.countP isAttempt : Int) = limit) :
    ∃ later, after = later ++ [.failed (.budget (limit + 1) limit)] := by
  induction h generalizing after with
  | nothing => cases after <;> cases here
  | attempt active h within ih =>
      cases after with
      | nil =>
          obtain ⟨same, rfl⟩ := List.cons.inj here
          cases same
          have room := within rfl
          rw [h.attempts] at room
          omega
      | cons y after =>
          obtain ⟨later, rfl⟩ := ih (List.cons.inj here).2
          exact ⟨y :: later, rfl⟩
  | spend h last ih =>
      cases after with
      | nil => cases (List.cons.inj here).1
      | cons y after =>
          obtain ⟨rfl, rest⟩ := List.cons.inj here
          cases after with
          | nil =>
              refine ⟨[], ?_⟩
              rw [← last]
              rfl
          | cons z after =>
              obtain ⟨later, rfl⟩ := ih (List.cons.inj rest).2
              exact ⟨_ :: z :: later, rfl⟩
  | other counted _ _ h ih =>
      cases after with
      | nil =>
          obtain ⟨rfl, _⟩ := List.cons.inj here
          cases counted
      | cons y after =>
          obtain ⟨later, rfl⟩ := ih (List.cons.inj here).2
          exact ⟨y :: later, rfl⟩

end Accounted

end Happening

/-! ### The account of a run -/

namespace Session

/-- The connections that were traversed. -/
def traversals (s : Session) : Nat := s.history.countP Happening.isTraversal

/-- The entry points that were turned to. -/
def entrances (s : Session) : Nat := s.history.countP Happening.isEntrance

/-- The connections that the emissions of a run have fired. -/
def firings (s : Session) : Nat := (s.history.map (Happening.firings s.graph)).sum

/-- The account of a run, with `owed` visits that were told of but not yet attempted. -/
structure Account (s : Session) (owed : Nat) (spent : Bool) : Prop where
  budget : 0 < s.options.maxSteps
  accounted : Happening.Accounted s.options.maxSteps s.history s.steps spent
  split : s.steps + owed = s.traversals + s.entrances
  bound : (s.steps : Int) ≤ s.options.maxSteps + 1
  started : s.processed.length ≤ s.steps
  within : (s.processed.length : Int) ≤ s.options.maxSteps

namespace Account

variable {s s' : Session} {owed : Nat} {spent : Bool}

theorem kept (h : s.Account owed spent) (k : Kept s s') : s'.Account owed spent where
  budget := k.options ▸ h.budget
  accounted := by rw [k.options, k.history, k.steps]; exact h.accounted
  split := by rw [k.steps, traversals, entrances, k.history]; exact h.split
  bound := by rw [k.options, k.steps]; exact h.bound
  started := by rw [k.processed, k.steps]; exact h.started
  within := by rw [k.processed, k.options]; exact h.within

theorem hears (h : s.Account owed spent) (e : Event) : (s.hears e).Account owed spent := by
  unfold Session.hears
  split
  · exact { h with }
  · exact h

/-- A happening that leads to no visit. -/
theorem note (h : s.Account owed spent) {x : Happening} (quiet : x.ofVisit = false)
    (clean : x.overBudget? = none) : (s.note x).Account owed spent := by
  have attempt : x.isAttempt = false := by cases x <;> first | rfl | cases quiet
  have traversal : x.isTraversal = false := by cases x <;> first | rfl | cases quiet
  have entrance : x.isEntrance = false := by cases x <;> first | rfl | cases quiet
  refine { h with accounted := .other attempt clean (fun _ => quiet) h.accounted, split := ?_ }
  rw [traversals, entrances, Session.note, List.countP_cons_of_neg (Bool.not_eq_true _ ▸ traversal),
    List.countP_cons_of_neg (Bool.not_eq_true _ ▸ entrance)]
  exact h.split

theorem record (h : s.Account owed spent) (id : String) (e : Emission) :
    (s.record id e).Account owed spent := by
  have written : Account (s.withSlots s.run (s.slots.write id (.text e.port) e.value)) owed spent :=
    { h with }
  exact written.note rfl rfl

theorem completing (h : s.Account owed spent) (id : String) : (s.completing id).Account owed spent :=
  (h.note rfl rfl).hears _

/-- A connection is traversed; the visit of its target is owed. -/
theorem traversing (h : s.Account 0 false) (c : Connection) : (s.traversing c).Account 1 false := by
  have told : Account (s.note (.traversed c.id)) 1 false := by
    refine { h with accounted := .other rfl rfl nofun h.accounted, split := ?_ }
    have split := h.split
    simp only [traversals, entrances, Session.note, List.countP_cons, Happening.isTraversal,
      Happening.isEntrance] at split ⊢
    simp only [if_true, if_false, Bool.false_eq_true]
    omega
  exact told.hears _

theorem entering (h : s.Account 0 false) (id : String) : (s.note (.entered id)).Account 1 false := by
  refine { h with accounted := .other rfl rfl nofun h.accounted, split := ?_ }
  have split := h.split
  simp only [traversals, entrances, Session.note, List.countP_cons, Happening.isTraversal,
    Happening.isEntrance] at split ⊢
  simp only [if_true, if_false, Bool.false_eq_true]
  omega

/-- The visit that is owed is attempted. -/
theorem counted (h : s.Account 1 false) (left : (s.steps : Int) ≤ s.options.maxSteps)
    (room : s.active = true → ((s.steps + 1 : Nat) : Int) ≤ s.options.maxSteps) :
    s.counted.Account 0 false := by
  have split := h.split
  refine ⟨h.budget, .attempt s.active h.accounted room, ?_, ?_, ?_, h.within⟩
  · simp only [traversals, entrances, Session.counted, Session.note, List.countP_cons,
      Happening.isTraversal, Happening.isEntrance, Bool.false_eq_true, if_false] at split ⊢
    omega
  · show ((s.steps + 1 : Nat) : Int) ≤ s.options.maxSteps + 1
    omega
  · exact Nat.le_succ_of_le h.started

theorem starting (h : s.Account 1 false) {id : String} (starts : s.Starts id) :
    (s.starting id).Account 0 false := by
  have room := starts.budget
  have counts := h.counted (by omega) fun _ => room
  have started := h.started
  have added : Account { s.counted with processed := s.counted.processed ++ [id] } 0 false := by
    refine { counts with started := ?_, within := ?_ }
    · show (s.processed ++ [id]).length ≤ s.steps + 1
      rw [List.length_append, List.length_singleton]
      omega
    · show ((s.processed ++ [id]).length : Int) ≤ s.options.maxSteps
      rw [List.length_append, List.length_singleton]
      omega
  have noted : Account ({ s.counted with
      processed := s.counted.processed ++ [id] }.note (.started id)) 0 false := by
    refine { added with accounted := .other rfl rfl nofun added.accounted, split := ?_ }
    have split := added.split
    simp only [traversals, entrances, Session.note, List.countP_cons, Happening.isTraversal,
      Happening.isEntrance, Bool.false_eq_true, if_false] at split ⊢
    omega
  exact { noted.hears (.start id) with }

/-- The visit that is owed exceeds the budget. -/
theorem spending (h : s.Account 1 false) (active : s.active = true)
    (left : (s.steps : Int) ≤ s.options.maxSteps)
    (beyond : s.options.maxSteps < ((s.steps + 1 : Nat) : Int)) :
    (s.counted.note (.failed (.budget ((s.steps + 1 : Nat) : Int) s.options.maxSteps))).Account
      0 true := by
  have split := h.split
  have last : (s.steps : Int) = s.options.maxSteps := by omega
  have accounted := Happening.Accounted.spend h.accounted last
  refine ⟨h.budget, ?_, ?_, ?_, ?_, h.within⟩
  · show Happening.Accounted _ (.failed _ :: .attempted s.active :: s.history) _ _
    rw [active]
    exact accounted
  · simp only [traversals, entrances, Session.counted, Session.note, List.countP_cons,
      Happening.isTraversal, Happening.isEntrance, Bool.false_eq_true, if_false] at split ⊢
    omega
  · show ((s.steps + 1 : Nat) : Int) ≤ s.options.maxSteps + 1
    omega
  · exact Nat.le_succ_of_le h.started

end Account

end Session

/-! ### The account at every stage -/

/-- The connections that are still to be traversed. -/
def Traversal.pendings (t : Traversal) : Nat := (t.stack.map (·.pending.length)).sum

def WalkEnd.pendings? : WalkEnd → Option Nat
  | .normal => some 0
  | _ => none

/-- The connections that are still to be traversed at a stage. A traversal that fails or is cancelled
leaves them. -/
def Stage.pendings? : Stage → Option Nat
  | .opening => some 0
  | .walking t | .awaiting t _ _ | .delaying t _ => some t.pendings
  | .unwinding _ e | .closing _ _ _ e | .over e => e.pendings?

/-- Whether a run that is active has not exceeded its budget. -/
def Session.Left (s : Session) : Prop := s.active = true → (s.steps : Int) ≤ s.options.maxSteps

namespace Session.Left

variable {s s' : Session}

theorem kept (h : s.Left) (k : Kept s s') : s'.Left := by
  intro active
  rw [k.steps, k.options]
  exact h (k.active active)

theorem completing (h : s.Left) (id : String) : (s.completing id).Left := by
  unfold Session.completing hears
  split <;> exact h

end Session.Left

/-- Whether all emissions of an active run have fired their connections, but for some. -/
def Session.Fires (s : Session) (pending : Nat) : Prop :=
  s.active = true → s.traversals + pending = s.firings

namespace Session.Fires

variable {s s' : Session} {pending : Nat}

theorem kept (h : s.Fires pending) (k : Kept s s') : s'.Fires pending := by
  intro active
  rw [traversals, firings, k.history, k.graph]
  exact h (k.active active)

/-- A happening that neither fires nor traverses connections. -/
theorem note (h : s.Fires pending) {x : Happening} (still : x.isTraversal = false)
    (quiet : x.firings s.graph = 0) : (s.note x).Fires pending := by
  intro active
  have balance := h active
  have still : ¬x.isTraversal = true := by rw [still]; exact nofun
  rw [traversals, firings] at balance ⊢
  show (x :: s.history).countP _ + pending = ((x :: s.history).map (Happening.firings s.graph)).sum
  rw [List.countP_cons_of_neg still, List.map_cons, List.sum_cons, quiet, Nat.zero_add]
  exact balance

theorem hears (h : s.Fires pending) (e : Event) : (s.hears e).Fires pending := by
  unfold Session.hears
  split <;> exact h

theorem counted (h : s.Fires pending) : s.counted.Fires pending := by
  have counts : Fires { s with steps := s.steps + 1 } pending := h
  exact counts.note rfl rfl

theorem starting (h : s.Fires pending) (id : String) : (s.starting id).Fires pending := by
  have counts : Fires { s.counted with processed := s.counted.processed ++ [id] } pending := h.counted
  exact (counts.note (x := .started id) rfl rfl).hears (.start id)

theorem completing (h : s.Fires pending) (id : String) : (s.completing id).Fires pending :=
  (h.note (x := .completed id) rfl rfl).hears _

/-- A pending connection is traversed. -/
theorem traversing (h : s.Fires (pending + 1)) (c : Connection) : (s.traversing c).Fires pending := by
  have told : Fires (s.note (.traversed c.id)) pending := by
    intro active
    have balance := h active
    rw [traversals, firings] at balance ⊢
    show (.traversed c.id :: s.history).countP _ + pending =
      ((.traversed c.id :: s.history).map (Happening.firings s.graph)).sum
    rw [List.countP_cons_of_pos rfl, List.map_cons, List.sum_cons]
    show _ = 0 + _
    omega
  exact told.hears _

/-- An emission fires connections. -/
theorem record (h : s.Fires pending) (id : String) (e : Emission) :
    (s.record id e).Fires ((s.fired id e).length + pending) := by
  intro active
  have balance := h active
  rw [traversals, firings] at balance ⊢
  show (.emitted id e :: s.history).countP _ + _ =
    ((.emitted id e :: s.history).map (Happening.firings s.graph)).sum
  rw [List.countP_cons_of_neg Bool.false_ne_true, List.map_cons, List.sum_cons]
  show _ = (s.fired id e).length + _
  omega

end Session.Fires

/-- Whether a failure for lack of budget is known to the run, with the count and the limit. -/
def Session.Raised (s : Session) (e? : Option WalkEnd) : Prop :=
  ∀ steps limit, e? = some (.failed (.budget steps limit)) →
    .failed (.budget steps limit) ∈ s.history

/-- The invariant of runs: their account is right, the budget is spent just when the traversal fails for
that, and every connection that was fired is traversed or pending. -/
structure Stage.Budgeted (s : Session) (st : Stage) : Prop where
  account : ∃ spent, s.Account 0 spent ∧ (spent = true → st.ending? = some .cancelled ∨
    st.ending? = some (.failed (.budget (s.options.maxSteps + 1) s.options.maxSteps)))
  left : st.ending? = none → s.Left
  fires : ∀ n, st.pendings? = some n → s.Fires n
  raised : s.Raised st.ending?

namespace Session.Raised

variable {s : Session}

theorem none (s : Session) : s.Raised none := nofun

theorem of_clean {f : RunFault} (clean : ∀ steps limit, f ≠ .budget steps limit) :
    s.Raised (some (.failed f)) := by
  intro steps limit same
  cases same
  exact absurd rfl (clean steps limit)

end Session.Raised

namespace Traversal

variable {t : Traversal} {s s' : Session} {id : String} {m : Move}

theorem walking_budgeted (account : s.Account 0 false)
    (left : s.Left) (fires : s.Fires t.pendings) :
    (Stage.walking t).Budgeted s :=
  ⟨⟨false, account, nofun⟩, fun _ => left, fun _ same => Option.some.inj same ▸ fires, .none s⟩

theorem fail_budgeted (t : Traversal) {f : RunFault} (clean : ∀ steps limit, f ≠ .budget steps limit)
    (account : s.Account 0 false) :
    (Stage.settle (.fail f t, s)).1.Budgeted (Stage.settle (.fail f t, s)).2 := by
  have quiet : (Happening.failed f).overBudget? = none := by
    cases f with
    | budget steps limit => exact absurd rfl (clean steps limit)
    | _ => rfl
  refine ⟨⟨false, account.note rfl quiet, nofun⟩, fun alive => ?_, fun n same => ?_, .of_clean clean⟩
  · cases alive
  · cases same

theorem pendings_cons {frame : Frame} {outer : List Frame} (stack : t.stack = frame :: outer) :
    t.pendings = frame.pending.length + (outer.map (·.pending.length)).sum := by
  rw [pendings, stack, List.map_cons, List.sum_cons]

/-- An element is over, between deeds. -/
theorem completed_budgeted {s₁ : Session} (before : Deeds s s₁) (after : Deeds (s₁.completing id) s')
    (started : s'.started = true) (account : s.Account 0 false) (left : s.Left)
    (fires : s.Fires t.pendings) : (Stage.walking t).Budgeted s' := by
  have kept' := after.kept_of_started started
  have kept := before.kept_of_started
    ((s₁.completing_runsOn id).began (kept'.started.symm.trans started))
  exact walking_budgeted (((account.kept kept).completing id).kept kept')
    (((left.kept kept).completing id).kept kept') (((fires.kept kept).completing id).kept kept')

theorem Visited.budgeted (h : t.Visited s id m s') (account : s.Account 1 false)
    (left : (s.steps : Int) ≤ s.options.maxSteps) (fires : s.Fires t.pendings) :
    (Stage.settle (m, s')).1.Budgeted (Stage.settle (m, s')).2 := by
  cases h with
  | skipped _ room => exact walking_budgeted (account.counted left room) room fires.counted
  | overBudget active beyond =>
      have last : ((s.steps + 1 : Nat) : Int) = s.options.maxSteps + 1 := by omega
      refine ⟨⟨true, account.spending active left beyond, fun _ => .inr ?_⟩, fun alive => ?_,
        fun n same => ?_, fun steps limit same => ?_⟩
      · show some (WalkEnd.failed _) = _
        rw [last]
        rfl
      · cases alive
      · cases same
      · cases same
        exact List.mem_cons_self
  | unknown type active room =>
      exact fail_budgeted t (fun _ _ => nofun) (account.counted left fun _ => room)
  | failed f starts kept => exact fail_budgeted t (fun _ _ => nofun) ((account.starting starts).kept kept)
  | started frame starts kept _ rest _ =>
      have left : s'.Left := by
        intro _
        rw [kept.steps, kept.options, Session.starting_steps, Session.starting_options]
        exact starts.budget
      have same : Traversal.pendings { t with stack := frame :: t.stack } = t.pendings := by
        rw [pendings_cons rfl, rest, List.length_nil, Nat.zero_add]
        rfl
      have fires := (fires.starting id).kept kept
      rw [← same] at fires
      exact walking_budgeted ((account.starting starts).kept kept) left fires

theorem Moved.budgeted (h : t.Moved s m s') (started : s'.started = true) (account : s.Account 0 false)
    (left : s.Left) (fires : s.Fires t.pendings) :
    (Stage.settle (m, s')).1.Budgeted (Stage.settle (m, s')).2 := by
  cases h with
  | finished stack _ =>
      refine ⟨⟨false, account, nofun⟩, fun alive => ?_, fun n same => ?_, nofun⟩
      · cases alive
      · rw [← Option.some.inj same]
        rwa [pendings, stack] at fires
  | entered id rest stack _ active visited =>
      exact visited.budgeted (account.entering id) (left active) (fires.note rfl rfl)
  | traversed frame outer c rest stack pending active kept visited =>
      rw [pendings_cons stack, pending, List.length_cons, Nat.add_right_comm] at fires
      refine visited.budgeted ((account.traversing c).kept kept) ?_ ?_
      · rw [kept.steps, kept.options, Session.traversing_steps, Session.traversing_options]
        exact left active
      · rw [pendings_cons rfl]
        exact (fires.traversing c).kept kept
  | cleared frame outer stack off =>
      refine walking_budgeted account left fun active => ?_
      have active : s.active = true := active
      rw [off] at active
      cases active
  | waited frame outer p stack pending _ =>
      rw [pendings_cons stack] at fires
      refine ⟨⟨false, account, nofun⟩, fun _ => left, fun n same => ?_, .none s⟩
      have same : Traversal.pendings { t with stack := { frame with source := .busy } :: outer } = n :=
        Option.some.inj same
      rw [← same, pendings_cons rfl]
      exact fires
  | went frame outer source stack _ deeds _ =>
      have kept := deeds.kept_of_started started
      have fires := fires.kept kept
      rw [pendings_cons stack] at fires
      exact walking_budgeted (account.kept kept) (left.kept kept) fires
  | @recorded frame outer source e s₁ stack rest deeds _ =>
      have kept := deeds.kept_of_started started
      have fires := (fires.kept kept).record frame.element.id e
      rw [pendings_cons stack, rest, List.length_nil, Nat.zero_add] at fires
      have left : (s₁.record frame.element.id e).Left := (left.kept kept : s₁.Left)
      exact walking_budgeted ((account.kept kept).record _ e) left fires
  | ended frame outer stack rest before after =>
      rw [pendings_cons stack, rest, List.length_nil, Nat.zero_add] at fires
      exact completed_budgeted before after started account left fires
  | delayed frame outer stack rest deeds _ =>
      have kept := deeds.kept_of_started started
      rw [pendings_cons stack, rest, List.length_nil, Nat.zero_add] at fires
      exact ⟨⟨false, account.kept kept, nofun⟩, fun _ => left.kept kept,
        fun _ same => Option.some.inj same ▸ fires.kept kept, .none _⟩
  | failed f t' deeds clean _ =>
      exact fail_budgeted t' clean (account.kept (deeds.kept_of_started started))

end Traversal

theorem Stage.ending_pendings {st : Stage} {e : WalkEnd} (ending : st.ending? = some e) :
    st.pendings? = e.pendings? := by
  cases st with
  | unwinding t e' | closing t p insists? e' | «over» e' => rw [← Option.some.inj ending]; rfl
  | _ => cases ending

theorem Session.Fresh.budgeted {s : Session} (h : s.Fresh) : Stage.opening.Budgeted s := by
  have budget := h.budget
  refine ⟨⟨false, ⟨budget, ?_, ?_, ?_, ?_, ?_⟩, nofun⟩, fun _ _ => ?_, fun n same => ?_, .none s⟩
  · rw [h.history, h.steps]
    exact .nothing
  · rw [Session.traversals, Session.entrances, h.history, h.steps]
    rfl
  · rw [h.steps]
    omega
  · rw [h.processed, h.steps]
    exact Nat.le_refl _
  · rw [h.processed]
    exact Int.le_of_lt budget
  · rw [h.steps]
    exact Int.le_of_lt budget
  · intro _
    rw [← Option.some.inj same, Session.traversals, Session.firings, h.history]
    rfl

theorem budget_law (g : Graph) : Law g fun s st => st.Budgeted s where
  begun fresh _ := fresh.budgeted
  kept := by
    intro s s' st kept ⟨⟨spent, account, ending⟩, left, fires, raised⟩
    exact ⟨⟨spent, account.kept kept, kept.options ▸ ending⟩, fun alive => (left alive).kept kept,
      fun n same => (fires n same).kept kept, fun steps limit same => kept.history ▸ raised _ _ same⟩
  closed := by
    intro s st ⟨⟨spent, account, ending⟩, left, fires, raised⟩
    have off : s.closed.active = false := rfl
    refine ⟨⟨spent, { account with }, ending⟩, fun _ active => ?_, fun _ _ active => ?_, raised⟩
    · rw [off] at active
      cases active
    · rw [off] at active
      cases active
  goes := by
    intro s s' st st' _ goes started ⟨⟨spent, account, ending⟩, left, fires, raised⟩
    have unspent : st.ending? = none → s.Account 0 false := by
      intro alive
      rw [alive] at ending
      cases spent with
      | false => exact account
      | true => rcases ending rfl with cancelled | failed <;> contradiction
    cases goes with
    | opened deeds =>
        have kept := deeds.kept_of_started started
        exact Traversal.walking_budgeted ((unspent rfl).kept kept) ((left rfl).kept kept)
          ((fires 0 rfl).kept kept)
    | barred e deeds fails clean =>
        refine ⟨⟨false, (unspent rfl).kept (deeds.kept_of_started started), nofun⟩, nofun,
          fun n same => ?_, fun steps limit same => ?_⟩
        · cases e with
          | normal => exact absurd rfl fails
          | _ => cases same
        · exact absurd (Option.some.inj same) (clean steps limit)
    | moved h =>
        exact h.budgeted ((Stage.settle_runsOn _ _).began started) (unspent rfl) (left rfl)
          (fires _ rfl)
    | answered h =>
        exact h.budgeted ((Stage.settle_runsOn _ _).began started) (unspent rfl) (left rfl)
          (fires _ rfl)
    | worked deeds _ =>
        have kept := deeds.kept_of_started started
        exact ⟨⟨false, (unspent rfl).kept kept, nofun⟩, fun _ => (left rfl).kept kept,
          fun n same => (fires n same).kept kept, .none s'⟩
    | delayed before after =>
        exact Traversal.completed_budgeted before after started (unspent rfl) (left rfl) (fires _ rfl)
    | @torn _ _ e _ here deeds still _ =>
        have kept := deeds.kept_of_started started
        refine ⟨⟨spent, account.kept kept, fun ceased => ?_⟩, fun alive => ?_, fun n same => ?_,
          fun steps limit same => ?_⟩
        · rw [kept.options]
          rcases still with on | cancelled
          · rw [on, ← here]
            exact ending ceased
          · exact .inl cancelled
        · rcases still with on | on <;> rw [alive] at on <;> cases on
        · refine (fires n ?_).kept kept
          rw [Stage.ending_pendings here]
          rcases still with on | cancelled
          · rwa [Stage.ending_pendings on] at same
          · rw [Stage.ending_pendings cancelled] at same
            cases same
        · rw [kept.history]
          rcases still with on | cancelled
          · rw [on, ← here] at same
            exact raised steps limit same
          · rw [cancelled] at same
            cases same
    | cancelled _ =>
        refine ⟨⟨spent, account, fun _ => .inl rfl⟩, nofun, fun n same => ?_, nofun⟩
        cases same

/-! ### Every run -/

/-- What the account of a run says, whenever it is looked at. -/
structure Session.InBudget (s : Session) : Prop where
  /-- The visits that are counted are the attempts, one for each connection that was traversed and for
  each entry point that was turned to. -/
  attempts : s.steps = s.history.countP Happening.isAttempt
  steps : s.steps = s.traversals + s.entrances
  bound : (s.steps : Int) ≤ s.options.maxSteps + 1
  starts : (s.starts.length : Int) ≤ s.options.maxSteps
  /-- A failure for lack of budget is the first thing after the active attempt that exceeds it, and no
  visit follows. -/
  raised : ∀ after before steps limit, s.history = after ++ .failed (.budget steps limit) :: before →
    steps = s.options.maxSteps + 1 ∧ limit = s.options.maxSteps ∧
      (∃ earlier, before = .attempted true :: earlier) ∧
      (before.countP Happening.isAttempt : Int) = s.options.maxSteps + 1 ∧
      ∀ x ∈ after, x.ofVisit = false
  /-- An active attempt that exceeds the budget fails at once. -/
  spends : ∀ after before, s.history = after ++ .attempted true :: before →
    (before.countP Happening.isAttempt : Int) = s.options.maxSteps →
    ∃ later, after = later ++ [.failed (.budget (s.options.maxSteps + 1) s.options.maxSteps)]
  /-- What listeners have heard of visits is what is counted here. -/
  told : s.Told

theorem Stage.Budgeted.inBudget {s : Session} {st st' : Stage} (h : st.Budgeted s)
    (h' : st'.Lifecycle s) : s.InBudget := by
  obtain ⟨⟨spent, account, _⟩, _, _, _⟩ := h
  obtain ⟨told, _, tidy, _⟩ := h'
  exact ⟨account.accounted.attempts, account.split, account.bound, tidy.order ▸ account.within,
    fun _ _ _ _ => account.accounted.raised, fun _ _ => account.accounted.spends, told⟩

/-- A run that failed for lack of budget is torn down for that, unless it is cancelled. -/
theorem Stage.Budgeted.ending {s : Session} {st : Stage} {steps limit : Int} (h : st.Budgeted s)
    (failed : .failed (.budget steps limit) ∈ s.history) :
    st.ending? = some .cancelled ∨ st.ending? = some (.failed (.budget steps limit)) := by
  obtain ⟨⟨spent, account, ending⟩, _, _, _⟩ := h
  have spent : spent = true := by
    cases spent with
    | true => rfl
    | false => cases account.accounted.within rfl _ failed
  obtain ⟨after, before, history⟩ := List.append_of_mem failed
  obtain ⟨rfl, rfl, _⟩ := account.accounted.raised history
  exact ending spent

/-- The execution of a run that failed for lack of budget says so, unless it ends before it knows. -/
theorem Stage.Budgeted.concluded {s s' : Session} {st : Stage} {o : Outcome} {steps limit : Int}
    (h : st.Budgeted s) (how : Concludes s st o s')
    (failed : .failed (.budget steps limit) ∈ s.history) :
    o = .failed (.budget steps limit) ∨ o = .cancelled ∨ ∃ ms, o = .failed (.runTimeout ms) := by
  have ending := h.ending failed
  cases how with
  | finished => rcases ending with ceased | ceased <;> cases ceased
  | failed f =>
      rcases ending with cancelled | ceased
      · cases cancelled
      · cases ceased
        exact .inl rfl
  | cancelled st => exact .inr (.inl rfl)
  | outOfTime st ms => exact .inr (.inr ⟨ms, rfl⟩)

end BlockGraph
