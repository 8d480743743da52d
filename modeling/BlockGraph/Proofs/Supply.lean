import BlockGraph.Proofs.Budget
/-!
Supplies: connections are traversed only when an emission has fired them, and entry points are turned to
once each. So there are no more visits than entry points and fired connections.
-/
namespace BlockGraph

/-- Whether the connections that were traversed, and some that are still to be, were all fired by
emissions; and likewise for the entry points. -/
structure Session.Supplied (s : Session) (entries pending : Nat) : Prop where
  entrances : s.entrances + entries ≤ s.graph.roots.length
  traversals : s.traversals + pending ≤ s.firings

namespace Session.Supplied

variable {s s' : Session} {entries pending : Nat}

theorem kept (h : s.Supplied entries pending) (k : Kept s s') : s'.Supplied entries pending where
  entrances := by rw [Session.entrances, k.history, k.graph]; exact h.entrances
  traversals := by rw [Session.traversals, firings, k.history, k.graph]; exact h.traversals

/-- What is still to be done may be given up. -/
theorem less (h : s.Supplied entries pending) {entries' pending' : Nat} (fewer : entries' ≤ entries)
    (lighter : pending' ≤ pending) : s.Supplied entries' pending' :=
  ⟨Nat.le_trans (Nat.add_le_add_left fewer _) h.entrances,
    Nat.le_trans (Nat.add_le_add_left lighter _) h.traversals⟩

theorem hears (h : s.Supplied entries pending) (e : Event) : (s.hears e).Supplied entries pending := by
  unfold Session.hears
  split
  · exact { h with }
  · exact h

/-- A happening that fires, traverses and turns to nothing. -/
theorem note (h : s.Supplied entries pending) {x : Happening} (still : x.isTraversal = false)
    (outside : x.isEntrance = false) (quiet : x.firings s.graph = 0) :
    (s.note x).Supplied entries pending := by
  obtain ⟨entrances, traversals⟩ := h
  rw [Session.entrances] at entrances
  rw [Session.traversals, firings] at traversals
  refine ⟨?_, ?_⟩
  · show (x :: s.history).countP _ + entries ≤ _
    rw [List.countP_cons_of_neg (by rw [outside]; exact Bool.false_ne_true)]
    exact entrances
  · show (x :: s.history).countP _ + pending ≤ ((x :: s.history).map (Happening.firings s.graph)).sum
    rw [List.countP_cons_of_neg (by rw [still]; exact Bool.false_ne_true), List.map_cons, List.sum_cons,
      quiet, Nat.zero_add]
    exact traversals

theorem counted (h : s.Supplied entries pending) : s.counted.Supplied entries pending := by
  have counts : Supplied { s with steps := s.steps + 1 } entries pending := { h with }
  exact counts.note rfl rfl rfl

theorem starting (h : s.Supplied entries pending) (id : String) :
    (s.starting id).Supplied entries pending := by
  have added : Supplied { s.counted with processed := s.counted.processed ++ [id] } entries pending :=
    { h.counted with }
  exact { (added.note (x := .started id) rfl rfl rfl).hears (.start id) with }

theorem completing (h : s.Supplied entries pending) (id : String) :
    (s.completing id).Supplied entries pending :=
  (h.note (x := .completed id) rfl rfl rfl).hears _

/-- An entry point is turned to. -/
theorem entering (h : s.Supplied (entries + 1) pending) (id : String) :
    (s.note (.entered id)).Supplied entries pending := by
  obtain ⟨entrances, traversals⟩ := h
  rw [Session.entrances] at entrances
  rw [Session.traversals, firings] at traversals
  refine ⟨?_, ?_⟩
  · show (.entered id :: s.history).countP _ + entries ≤ _
    rw [List.countP_cons_of_pos rfl, Nat.add_right_comm]
    exact entrances
  · show (.entered id :: s.history).countP _ + pending ≤ (0 :: s.history.map _).sum
    rw [List.countP_cons_of_neg Bool.false_ne_true, List.sum_cons, Nat.zero_add]
    exact traversals

/-- A pending connection is traversed. -/
theorem traversing (h : s.Supplied entries (pending + 1)) (c : Connection) :
    (s.traversing c).Supplied entries pending := by
  obtain ⟨entrances, traversals⟩ := h
  rw [Session.entrances] at entrances
  rw [Session.traversals, firings] at traversals
  have told : Supplied (s.note (.traversed c.id)) entries pending := by
    refine ⟨?_, ?_⟩
    · show (.traversed c.id :: s.history).countP _ + entries ≤ _
      rw [List.countP_cons_of_neg Bool.false_ne_true]
      exact entrances
    · show (.traversed c.id :: s.history).countP _ + pending ≤ (0 :: s.history.map _).sum
      rw [List.countP_cons_of_pos rfl, List.sum_cons, Nat.zero_add, Nat.add_right_comm]
      exact traversals
  exact told.hears _

/-- An emission fires connections. -/
theorem record (h : s.Supplied entries pending) (id : String) (e : Emission) :
    (s.record id e).Supplied entries ((s.fired id e).length + pending) := by
  obtain ⟨entrances, traversals⟩ := h
  rw [Session.entrances] at entrances
  rw [Session.traversals, firings] at traversals
  refine ⟨?_, ?_⟩
  · show (.emitted id e :: s.history).countP _ + entries ≤ _
    rw [List.countP_cons_of_neg Bool.false_ne_true]
    exact entrances
  · show (.emitted id e :: s.history).countP _ + _ ≤ ((s.fired id e).length :: s.history.map _).sum
    rw [List.countP_cons_of_neg Bool.false_ne_true, List.sum_cons, Nat.add_left_comm]
    exact Nat.add_le_add_left traversals _

end Session.Supplied

/-! ### At every stage -/

/-- What a traversal still has to do at a stage. One that is torn down does nothing more. -/
def Stage.ahead (g : Graph) : Stage → Traversal
  | .opening => ⟨g.roots, []⟩
  | .walking t | .awaiting t _ _ | .delaying t _ => t
  | .unwinding .. | .closing .. | .over _ => ⟨[], []⟩

theorem Stage.ahead_ending {st : Stage} {e : WalkEnd} (ending : st.ending? = some e) (g : Graph) :
    st.ahead g = ⟨[], []⟩ := by
  cases st with
  | unwinding t e' | closing t p insists? e' | «over» e' => rfl
  | _ => cases ending

/-- The invariant of runs: all that was done, and is ahead, was supplied. -/
def Stage.Supplied (s : Session) (st : Stage) : Prop :=
  s.Supplied (st.ahead s.graph).entries.length (st.ahead s.graph).pendings

namespace Traversal

variable {t : Traversal} {s s' : Session} {id : String} {m : Move}

theorem fail_supplied (t : Traversal) (f : RunFault) {entries pending : Nat}
    (h : s.Supplied entries pending) :
    (Stage.settle (.fail f t, s)).1.Supplied (Stage.settle (.fail f t, s)).2 :=
  (h.less (Nat.zero_le _) (Nat.zero_le _)).note rfl rfl rfl

theorem Visited.supplied (h : t.Visited s id m s') (supplied : s.Supplied t.entries.length t.pendings) :
    (Stage.settle (m, s')).1.Supplied (Stage.settle (m, s')).2 := by
  cases h with
  | skipped _ _ => exact supplied.counted
  | overBudget _ _ => exact fail_supplied t _ supplied.counted
  | unknown type _ _ => exact fail_supplied t _ supplied.counted
  | failed f _ kept => exact fail_supplied t _ ((supplied.starting id).kept kept)
  | started frame _ kept _ rest _ =>
      have same : Traversal.pendings { t with stack := frame :: t.stack } = t.pendings := by
        rw [pendings_cons rfl, rest, List.length_nil, Nat.zero_add]
        rfl
      have supplied := (supplied.starting id).kept kept
      rwa [← same] at supplied

/-- An element is over, between deeds. -/
theorem completed_supplied {s₁ : Session} (before : Deeds s s₁) (after : Deeds (s₁.completing id) s')
    (started : s'.started = true) (supplied : s.Supplied t.entries.length t.pendings) :
    (Stage.walking t).Supplied s' := by
  have kept' := after.kept_of_started started
  have kept := before.kept_of_started
    ((s₁.completing_runsOn id).began (kept'.started.symm.trans started))
  exact ((supplied.kept kept).completing id).kept kept'

theorem Moved.supplied (h : t.Moved s m s') (started : s'.started = true)
    (supplied : s.Supplied t.entries.length t.pendings) :
    (Stage.settle (m, s')).1.Supplied (Stage.settle (m, s')).2 := by
  cases h with
  | finished _ _ => exact supplied.less (Nat.zero_le _) (Nat.zero_le _)
  | entered id rest stack entries _ visited =>
      rw [entries, List.length_cons] at supplied
      exact visited.supplied (supplied.entering id)
  | traversed frame outer c rest stack pending _ kept visited =>
      rw [pendings_cons stack, pending, List.length_cons, Nat.add_right_comm] at supplied
      refine visited.supplied ?_
      rw [pendings_cons rfl]
      exact (supplied.traversing c).kept kept
  | cleared frame outer stack _ =>
      refine supplied.less (Nat.le_refl _) ?_
      show Traversal.pendings _ ≤ _
      rw [pendings_cons rfl, pendings_cons stack]
      exact Nat.add_le_add_right (Nat.zero_le _) _
  | waited frame outer p stack _ _ =>
      rw [pendings_cons stack] at supplied
      exact supplied
  | went frame outer source stack _ deeds _ =>
      rw [pendings_cons stack] at supplied
      exact supplied.kept (deeds.kept_of_started started)
  | @recorded frame outer source e s₁ stack rest deeds _ =>
      rw [pendings_cons stack, rest, List.length_nil, Nat.zero_add] at supplied
      exact (supplied.kept (deeds.kept_of_started started)).record frame.element.id e
  | ended frame outer stack rest before after =>
      rw [pendings_cons stack, rest, List.length_nil, Nat.zero_add] at supplied
      exact completed_supplied before after started supplied
  | delayed frame outer stack rest deeds _ =>
      rw [pendings_cons stack, rest, List.length_nil, Nat.zero_add] at supplied
      exact supplied.kept (deeds.kept_of_started started)
  | failed f t' deeds _ _ => exact fail_supplied t' f (supplied.kept (deeds.kept_of_started started))

end Traversal

theorem Session.Fresh.supplied {s : Session} (h : s.Fresh) : Stage.opening.Supplied s := by
  refine ⟨?_, ?_⟩
  · rw [Session.entrances, h.history]
    exact Nat.le_of_eq (Nat.zero_add _)
  · rw [Session.traversals, h.history]
    exact Nat.zero_le _

theorem supply_law (g : Graph) : Law g fun s st => st.Supplied s where
  begun fresh _ := fresh.supplied
  kept := by
    intro s s' st kept supplied
    have supplied := Session.Supplied.kept supplied kept
    rwa [← kept.graph] at supplied
  closed supplied := { supplied with }
  goes := by
    intro s s' st st' _ goes started supplied
    have ended : ∀ {s' : Session} {st' : Stage}, Kept s s' → (∀ g, st'.ahead g = ⟨[], []⟩) →
        st'.Supplied s' := by
      intro s' st' kept nothing
      unfold Stage.Supplied
      rw [nothing]
      exact (Session.Supplied.less supplied (Nat.zero_le _) (Nat.zero_le _)).kept kept
    cases goes with
    | opened deeds => exact Session.Supplied.kept supplied (deeds.kept_of_started started)
    | barred e deeds _ _ => exact ended (deeds.kept_of_started started) fun _ => rfl
    | moved h => exact h.supplied ((Stage.settle_runsOn _ _).began started) supplied
    | answered h => exact h.supplied ((Stage.settle_runsOn _ _).began started) supplied
    | worked deeds _ => exact Session.Supplied.kept supplied (deeds.kept_of_started started)
    | delayed before after => exact Traversal.completed_supplied before after started supplied
    | torn _ deeds still _ =>
        refine ended (deeds.kept_of_started started) ?_
        rcases still with on | cancelled
        · exact Stage.ahead_ending on
        · exact Stage.ahead_ending cancelled
    | cancelled _ => exact ended (.refl s) fun _ => rfl

/-- There are no more visits than entry points and fired connections. -/
theorem Stage.Supplied.bound {s : Session} {st : Stage} (h : st.Supplied s) (account : s.InBudget) :
    s.history.countP Happening.isAttempt ≤ s.graph.roots.length + s.firings := by
  have entrances := h.entrances
  have traversals := h.traversals
  rw [← account.attempts, account.steps]
  omega

end BlockGraph
