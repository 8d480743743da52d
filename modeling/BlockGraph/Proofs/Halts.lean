import BlockGraph.Proofs.Endings
/-!
What a stop comes to. From the moment it is asked for, at whatever point of a move that is, no element is
put into the execution order and no connection is traversed. A visit that was told of is still counted,
and comes to nothing.
-/
namespace BlockGraph

/-- Whether an event tells that a connection is traversed. -/
def Event.isTraverse : Event → Bool
  | .traverse _ => true
  | _ => false

/-- Whether it is something that comes about in active runs only. -/
def Happening.ofActive : Happening → Bool
  | .entered _ | .traversed _ | .attempted true | .failed (.budget _ _) => true
  | _ => false

namespace Session

/-- What listeners were told of connections traversed, in all runs. -/
def heardTraverses (s : Session) : List (Nat × Event) := s.heardVisits.filter (·.2.isTraverse)

/-- Whether a run that was asked to stop has only gone on as such a run does. -/
structure Halts (s s' : Session) : Prop where
  running : s'.running = s.running
  stopped : s'.stopRequested = true
  order : s'.processed = s.processed
  records : ∃ later, s'.history = later ++ s.history ∧ ∀ x ∈ later, x.ofActive = false
  heard : s'.heardTraverses = s.heardTraverses
  counts : s.steps ≤ s'.steps
  owed : s'.steps ≤ max s.steps (s.traversals + s.entrances)

namespace Halts

variable {s s₁ s₂ : Session}

/-- What is recorded later leaves the number of what only active runs do as it was. -/
theorem countP (h : s.Halts s₁) {p : Happening → Bool} (active : ∀ x, p x = true → x.ofActive = true) :
    s₁.history.countP p = s.history.countP p := by
  obtain ⟨later, same, quiet⟩ := h.records
  have none : later.countP p = 0 := List.countP_eq_zero.mpr fun x member found => by
    have other := quiet x member
    rw [active x found] at other
    cases other
  rw [same, List.countP_append, none, Nat.zero_add]

theorem traversals (h : s.Halts s₁) : s₁.traversals = s.traversals :=
  h.countP fun x found => by
    cases x with
    | traversed c => rfl
    | _ => cases found

theorem entrances (h : s.Halts s₁) : s₁.entrances = s.entrances :=
  h.countP fun x found => by
    cases x with
    | entered id => rfl
    | _ => cases found

/-- No run fails for lack of budget once it was asked to stop. -/
theorem budget (h : s.Halts s₁) {steps limit : Int} (member : .failed (.budget steps limit) ∈ s₁.history) :
    .failed (.budget steps limit) ∈ s.history := by
  obtain ⟨later, same, quiet⟩ := h.records
  rw [same] at member
  exact (List.mem_append.mp member).resolve_left fun new => Bool.noConfusion (quiet _ new)

theorem refl (stopped : s.stopRequested = true) : s.Halts s :=
  ⟨rfl, stopped, rfl, ⟨[], rfl, fun _ member => (List.not_mem_nil member).elim⟩, rfl, Nat.le_refl _,
    Nat.le_max_left _ _⟩

theorem trans (h : s.Halts s₁) (h' : s₁.Halts s₂) : s.Halts s₂ where
  running := h'.running.trans h.running
  stopped := h'.stopped
  order := h'.order.trans h.order
  records := by
    obtain ⟨first, same, quiet⟩ := h.records
    obtain ⟨next, same', quiet'⟩ := h'.records
    refine ⟨next ++ first, by rw [same', same, List.append_assoc], fun x member => ?_⟩
    rcases List.mem_append.mp member with new | old
    · exact quiet' x new
    · exact quiet x old
  heard := h'.heard.trans h.heard
  counts := Nat.le_trans h.counts h'.counts
  owed := by
    have first := h.owed
    have next := h'.owed
    rw [h.traversals, h.entrances] at next
    omega

theorem kept (stopped : s.stopRequested = true) (h : Kept s s₁) : s.Halts s₁ where
  running := h.running
  stopped := h.stop stopped
  order := h.processed
  records := ⟨[], h.history, fun _ member => (List.not_mem_nil member).elim⟩
  heard := congrArg (List.filter _) h.heard
  counts := Nat.le_of_eq h.steps.symm
  owed := h.steps ▸ Nat.le_max_left _ _

/-- A session in which all is the same but its slots. -/
theorem withSlots (stopped : s.stopRequested = true) (run : Nat) (slots : Slots) :
    s.Halts (s.withSlots run slots) := { refl stopped with }

/-- A happening that may come about in a run that was asked to stop. -/
theorem note (stopped : s.stopRequested = true) {x : Happening} (quiet : x.ofActive = false) :
    s.Halts (s.note x) :=
  { refl stopped with
    records := ⟨[x], rfl, fun _ member => List.mem_singleton.mp member ▸ quiet⟩ }

/-- An event that tells of no traversal. -/
theorem hears (stopped : s.stopRequested = true) {e : Event} (quiet : e.isTraverse = false) :
    s.Halts (s.hears e) := by
  have heard := s.hears_filtered quiet
  unfold Session.hears at heard ⊢
  split at heard <;> rename_i hears
  · rw [if_pos hears]
    exact { refl stopped with heard }
  · rw [if_neg hears]
    exact .refl stopped

end Halts

end Session

section Beats

variable {s s' : Session}

theorem Beat.halts (h : Beat s s') (running : s.running = true) (stopped : s.stopRequested = true) :
    s.Halts s' := by
  have off : s.active = false := by rw [Session.active, stopped, Bool.not_true, Bool.and_false]
  have inactive : s.active ≠ true := by rw [off]; exact Bool.false_ne_true
  cases h with
  | deed d => exact .kept stopped ((Relation.ReflTransGen.single d |> Deeds.kept_of_running) running)
  | entered _ on _ => exact absurd on inactive
  | traversed _ on _ => exact absurd on inactive
  | counted owed =>
      have counted : s.Halts (s.note (.attempted s.active)) := .note stopped (by rw [off]; rfl)
      exact { counted with
        counts := Nat.le_succ _
        owed := Nat.le_trans owed (Nat.le_max_right _ _) }
  | turned _ on _ => exact absurd on inactive
  | started id _ =>
      have noted : s.Halts (s.note (.started id)) := .note stopped rfl
      exact noted.trans (.hears noted.stopped rfl)
  | opened id => exact .withSlots stopped _ _
  | recorded id e =>
      have written := Session.Halts.withSlots stopped s.run (s.slots.write id (.text e.port) e.value)
      exact written.trans (.note written.stopped rfl)
  | completed id =>
      have noted : s.Halts (s.note (.completed id)) := .note stopped rfl
      exact noted.trans (.hears noted.stopped rfl)
  | failed f clean =>
      refine .note stopped ?_
      cases f with
      | budget steps limit => exact absurd rfl (clean steps limit)
      | _ => rfl
  | spent on => exact absurd on inactive

/-- Whatever happens in a run after a stop was asked for. -/
theorem Beats.halts (h : Beats s s') (running : s.running = true) (stopped : s.stopRequested = true) :
    s.Halts s' := by
  induction h with
  | refl => exact .refl stopped
  | tail _ beat ih => exact ih.trans (beat.halts (ih.running.trans running) ih.stopped)

/-- At any point of a move, at most one visit that was told of is still to be counted. -/
theorem Beat.owes (h : Beat s s') (owes : s.traversals + s.entrances ≤ s.steps + 1) :
    s'.traversals + s'.entrances ≤ s'.steps + 1 := by
  have aside : ∀ {s₁ : Session} {x : Happening}, s₁.history = x :: s.history → s.steps ≤ s₁.steps →
      x.isTraversal = false → x.isEntrance = false → s₁.traversals + s₁.entrances ≤ s₁.steps + 1 := by
    intro s₁ x history steps still outside
    rw [Session.traversals, Session.entrances] at owes ⊢
    rw [history, List.countP_cons, List.countP_cons, still, outside]
    simp only [Bool.false_eq_true, if_false]
    omega
  cases h with
  | deed d =>
      rcases d.kept with kept | gone
      · rw [Session.traversals, Session.entrances, kept.history, kept.steps]
        exact owes
      · cases d with
        | reset _ => exact Nat.zero_le _
        | _ => exact absurd gone.size (by simp)
  | entered id _ settled =>
      have visits := settled.visits
      rw [Session.traversals, Session.entrances] at visits ⊢
      simp only [Session.note, List.countP_cons, Happening.isTraversal, Happening.isEntrance,
        Bool.false_eq_true, if_false, if_true]
      omega
  | traversed c _ settled =>
      have visits := settled.visits
      have history : (s.traversing c).history = .traversed c.id :: s.history := Session.hears_history _
      rw [Session.traversals, Session.entrances] at visits ⊢
      rw [history, Session.traversing_steps]
      simp only [List.countP_cons, Happening.isTraversal, Happening.isEntrance,
        Bool.false_eq_true, if_false, if_true]
      omega
  | counted _ => exact aside (x := .attempted s.active) rfl (Nat.le_succ _) rfl rfl
  | turned _ _ _ => exact owes
  | started id _ =>
      have steps : ((s.note (.started id)).hears (.start id)).steps = s.steps := Session.hears_steps _
      exact aside (x := .started id) (Session.hears_history _) (Nat.le_of_eq steps.symm) rfl rfl
  | opened id => exact owes
  | recorded id e => exact aside (x := .emitted id e) rfl (Nat.le_refl _) rfl rfl
  | completed id =>
      have steps : (s.completing id).steps = s.steps := Session.hears_steps _
      exact aside (x := .completed id) (Session.hears_history _) (Nat.le_of_eq steps.symm) rfl rfl
  | failed f _ => exact aside (x := .failed f) rfl (Nat.le_refl _) rfl rfl
  | spent _ => exact aside (x := .failed _) rfl (Nat.le_refl _) rfl rfl

theorem Beats.owes (h : Beats s s') (settled : s.Settled) : s'.traversals + s'.entrances ≤ s'.steps + 1 := by
  induction h with
  | refl => exact settled.visits ▸ Nat.le_succ _
  | tail _ beat ih => exact beat.owes ih

/-- From the moment a stop is asked for, at most one more visit is counted. -/
theorem Beats.halts_once {s₀ : Session} (settled : s₀.Settled) (before : Beats s₀ s) (after : Beats s s')
    (running : s.running = true) (stopped : s.stopRequested = true) :
    s.Halts s' ∧ s'.steps ≤ s.steps + 1 := by
  have halts := after.halts running stopped
  exact ⟨halts, Nat.le_trans halts.owed (Nat.max_le.mpr ⟨Nat.le_succ _, before.owes settled⟩)⟩

end Beats

end BlockGraph
