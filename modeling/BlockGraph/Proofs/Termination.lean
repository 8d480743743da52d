import BlockGraph.Proofs.Arrival
import BlockGraph.Proofs.Lighter
import Mathlib.Order.WellFounded
/-!
Termination: a traversal that goes on forever is one in which the logic of some element hands over items
forever. Budgets have no part in this. Whatever others do to the session between the moves, each move
that hands over no item leaves less to do, and there are only so many elements to hand them over.
-/
namespace BlockGraph

/-! ### Elements that were never started -/

namespace Session

/-- How many elements of the graph were not started. -/
def unstarted (s : Session) : Nat :=
  ((s.graph.elements.map (·.id)).toFinset \ s.processed.toFinset).card

/-- Whether no element was started in between, or fewer are left to start. -/
def StartsOn (s s' : Session) : Prop := s'.processed = s.processed ∨ s'.unstarted < s.unstarted

variable {s s₁ s' : Session}

theorem unstarted_congr (graph : s'.graph = s.graph) (processed : s'.processed = s.processed) :
    s'.unstarted = s.unstarted := by
  rw [unstarted, unstarted, graph, processed]

/-- What neither starts elements nor changes the graph may come before and after. -/
theorem StartsOn.after (h : s₁.StartsOn s') (graph : s₁.graph = s.graph)
    (processed : s₁.processed = s.processed) : s.StartsOn s' := by
  rcases h with same | fewer
  · exact .inl (same.trans processed)
  · exact .inr (Nat.lt_of_lt_of_eq fewer (unstarted_congr graph processed))

theorem starting_unstarted {id : String} (starts : s.Starts id) :
    (s.starting id).unstarted < s.unstarted := by
  obtain ⟨e, member, rfl⟩ := starts.element
  refine Finset.card_lt_card (Finset.ssubset_iff_subset_ne.mpr ⟨fun other here => ?_, fun same => ?_⟩)
  · rw [starting_graph, starting_processed] at here
    simp only [Finset.mem_sdiff, List.mem_toFinset, List.mem_append] at here ⊢
    exact ⟨here.1, fun old => here.2 (.inl old)⟩
  · have here : e.id ∈ (s.graph.elements.map (·.id)).toFinset \ s.processed.toFinset := by
      simp only [Finset.mem_sdiff, List.mem_toFinset]
      exact ⟨List.mem_map_of_mem member, starts.fresh⟩
    rw [← same, starting_processed] at here
    simp at here

end Session

theorem Kept.startsOn {s s' : Session} (h : Kept s s') : s.StartsOn s' := .inl h.processed

namespace Traversal

variable {t : Traversal} {s s' : Session} {m : Move} {id : String}

theorem Visited.startsOn (h : t.Visited s id m s') : s.StartsOn s' := by
  have grown : s.Starts id → Kept (s.starting id) s' → s.StartsOn s' := fun starts kept =>
    .inr (Nat.lt_of_le_of_lt (Nat.le_of_eq (Session.unstarted_congr kept.graph kept.processed))
      (Session.starting_unstarted starts))
  cases h with
  | failed f starts kept => exact grown starts kept
  | started frame starts kept _ _ _ => exact grown starts kept
  | _ => exact .inl rfl

/-- An element is over, between deeds. -/
theorem completed_startsOn {s₁ : Session} (before : Deeds s s₁) (after : Deeds (s₁.completing id) s')
    (running : s.running = true) : s.StartsOn s' := by
  have kept := before.kept_of_running running
  have runs := s₁.completing_runsOn id
  have kept' := after.kept_of_running (runs.running.trans (kept.running.trans running))
  exact .inl (kept'.processed.trans ((Session.hears_processed _).trans kept.processed))

theorem Moved.startsOn (h : t.Moved s m s') (running : s.running = true) : s.StartsOn s' := by
  have deeds : ∀ {s'}, Deeds s s' → s.StartsOn s' := fun deeds =>
    (deeds.kept_of_running running).startsOn
  cases h with
  | entered id rest _ _ _ visited => exact visited.startsOn.after rfl rfl
  | traversed frame outer c rest _ _ _ kept visited =>
      refine visited.startsOn.after (kept.graph.trans ?_) (kept.processed.trans (Session.hears_processed _))
      exact (Session.traversing_runsOn c).graph
  | went _ _ _ _ _ h _ => exact deeds h
  | recorded _ _ _ _ _ _ h _ => exact .inl (h.kept_of_running running).processed
  | ended frame outer _ _ before after => exact completed_startsOn before after running
  | delayed _ _ _ _ h _ => exact deeds h
  | failed _ _ h _ _ => exact deeds h
  | _ => exact .inl rfl

end Traversal

theorem Goes.startsOn {st st' : Stage} {s s' : Session} (h : Goes s st st' s')
    (running : s.running = true) : s.StartsOn s' := by
  have settled : ∀ {t : Traversal} {m : Move} {s' : Session}, t.Moved s m s' →
      s.StartsOn (Stage.settle (m, s')).2 := by
    intro t m s' moved
    have graph := (Stage.settle_runsOn m s').graph
    have processed := Stage.settle_processed (m, s')
    rcases moved.startsOn running with same | fewer
    · exact .inl (processed.trans same)
    · exact .inr (Nat.lt_of_le_of_lt (Nat.le_of_eq (Session.unstarted_congr graph processed)) fewer)
  have deeds : ∀ {s'}, Deeds s s' → s.StartsOn s' := fun deeds =>
    (deeds.kept_of_running running).startsOn
  cases h with
  | opened h => exact deeds h
  | barred _ h _ _ => exact deeds h
  | moved h => exact settled h
  | answered h => exact settled h
  | worked h _ => exact deeds h
  | delayed before after => exact Traversal.completed_startsOn before after running
  | torn _ h _ _ => exact deeds h
  | cancelled _ => exact .inl rfl

/-! ### Endless traversals -/

namespace Stage

/-- What there is left to do in a run: elements to start first, then logic to start, then all the rest. -/
def toDo (r : Stage × Session) : ℕ ×ₗ ℕ ×ₗ ℕ :=
  toLex (r.2.unstarted, toLex (r.1.news, r.1.weight r.2.graph))

/-- Whether a traversal goes to its next stage, and others do deeds then. -/
def Onward (r r' : Stage × Session) : Prop := ∃ s, r.1.next r.2 = some (r'.1, s) ∧ Deeds s r'.2

/-- A run of a graph that is under way. -/
structure UnderWay (g : Graph) (r : Stage × Session) : Prop where
  holds : Law.Holds g (fun s st => st.Lifecycle s) ⟨r.2, r.1, []⟩
  running : r.2.running = true

variable {g : Graph} {r r' : Stage × Session} {id : String}

/-- A run that has just begun is under way. -/
theorem UnderWay.taken (s : Session) {options : Options} (listener : Listener) (bindings : Entries)
    (budget : 0 < options.maxSteps) : UnderWay s.graph (.opening, s.taken options listener bindings) := by
  obtain ⟨s', fresh, same, size, kept⟩ := s.taken_fresh listener bindings budget
  refine ⟨⟨⟨?_, opening_sound _⟩, kept.graph.trans same, fun _ => kept.started.trans fresh.started,
    fun _ => (lifecycle_law s.graph).kept kept ((lifecycle_law s.graph).begun fresh same),
    fun e member => (List.not_mem_nil member).elim⟩, kept.running.trans fresh.running⟩
  show 0 < (s.taken options listener bindings).stores.size
  rw [kept.size, size]
  exact Nat.succ_pos _

theorem UnderWay.aside {st : Stage} {s s' : Session} (h : UnderWay g (st, s)) (deeds : Deeds s s') :
    UnderWay g (st, s') :=
  ⟨Law.Holds.aside (lifecycle_law g) h.holds deeds, deeds.runsOn.running.trans h.running⟩

theorem UnderWay.next (h : UnderWay g r) (next : r.1.next r.2 = some r') : UnderWay g r' := by
  have went := next_goes h.holds.sound.1 h.holds.sound.2 next
  exact ⟨Law.Holds.goes (lifecycle_law g) h.holds went, went.runsOn.running.trans h.running⟩

theorem UnderWay.onward (h : UnderWay g r) (goes : Onward r r') : UnderWay g r' := by
  obtain ⟨s, next, deeds⟩ := goes
  exact (h.next next).aside deeds

/-- Logic that hands over items is that of an element of the graph. -/
theorem UnderWay.element (h : UnderWay g r) (hands : r.1.Hands r.2 id) :
    id ∈ g.elements.map (·.id) := by
  obtain ⟨p, _, works, _⟩ := hands
  obtain ⟨_, underway, tidy, known⟩ := h.holds.here (h.holds.started h.running)
  obtain ⟨outer, here⟩ := works?_underway works
  have graph : r.2.graph = g := h.holds.graph
  obtain ⟨e, member, same⟩ :=
    tidy.elements id (tidy.started (known _ here ▸ List.mem_cons_self))
  exact List.mem_map.mpr ⟨e, graph ▸ member, same⟩

/-- When no item is handed over, there is less left to do. -/
theorem UnderWay.lessens (h : UnderWay g r) (goes : Onward r r') (idle : ∀ id, ¬r.1.Hands r.2 id) :
    toDo r' < toDo r := by
  obtain ⟨s, next, deeds⟩ := goes
  have kept := deeds.kept_of_running (h.next next).running
  obtain ⟨stored, sound⟩ := h.holds.sound
  have went := next_goes stored sound next
  have graph := went.runsOn.graph
  have after : toDo r' = toDo (r'.1, s) := by
    rw [toDo, toDo]
    dsimp only
    rw [Session.unstarted_congr kept.graph kept.processed, kept.graph]
  rw [after, toDo, toDo, Prod.Lex.toLex_lt_toLex]
  rcases went.startsOn h.running with same | fewer
  · refine .inr ⟨Session.unstarted_congr graph same, Prod.Lex.toLex_lt_toLex.mpr ?_⟩
    dsimp only
    rw [graph]
    rcases next_lighter stored sound next same idle with old | ⟨old, less⟩
    · exact .inl old
    · rcases Nat.lt_or_eq_of_le old with older | same
      · exact .inl older
      · exact .inr ⟨same, less⟩
  · exact .inl fewer

/-- Of finitely many things, each of which ceases to happen, none happens after some time. -/
theorem exists_last {P : String → Nat → Prop} (ids : List String)
    (ceases : ∀ id ∈ ids, ∃ n, ∀ m, n ≤ m → ¬P id m) : ∃ n, ∀ id ∈ ids, ∀ m, n ≤ m → ¬P id m := by
  induction ids with
  | nil => exact ⟨0, fun _ member => (List.not_mem_nil member).elim⟩
  | cons id rest ih =>
      obtain ⟨n₁, first⟩ := ceases id List.mem_cons_self
      obtain ⟨n₂, others⟩ := ih fun id member => ceases id (List.mem_cons_of_mem _ member)
      refine ⟨max n₁ n₂, fun other member m late => ?_⟩
      rcases List.mem_cons.mp member with rfl | old
      · exact first m (Nat.le_trans (Nat.le_max_left _ _) late)
      · exact others other old m (Nat.le_trans (Nat.le_max_right _ _) late)

/-- A traversal that goes on forever has an element whose logic hands over items forever. -/
theorem UnderWay.endless {f : Nat → Stage × Session} (h : UnderWay g (f 0))
    (goes : ∀ n, Onward (f n) (f (n + 1))) : ∃ id, ∀ n, ∃ m, n ≤ m ∧ (f m).1.Hands (f m).2 id := by
  have under : ∀ n, UnderWay g (f n) := by
    intro n
    induction n with
    | zero => exact h
    | succ n ih => exact ih.onward (goes n)
  by_contra finite
  have ceases : ∀ id ∈ g.elements.map (·.id), ∃ n, ∀ m, n ≤ m → ¬(f m).1.Hands (f m).2 id := by
    intro id _
    by_contra always
    refine finite ⟨id, fun n => ?_⟩
    by_contra never
    exact always ⟨n, fun m late hands => never ⟨m, late, hands⟩⟩
  obtain ⟨n, last⟩ := exists_last _ ceases
  obtain ⟨k, stays⟩ := WellFounded.not_rel_apply_succ (r := (· < ·)) fun k => toDo (f (n + k))
  refine stays ((under (n + k)).lessens (goes (n + k)) fun id hands => ?_)
  exact last id ((under (n + k)).element hands) (n + k) (Nat.le_add_right _ _) hands

/-- A traversal that does not go on is over. -/
theorem next_none {st : Stage} {s : Session} (h : st.next s = none) : ∃ how, st = .over how := by
  cases st with
  | «over» how => exact ⟨how, rfl⟩
  | opening =>
      simp only [next] at h
      split at h <;> cases h
  | awaiting t a given? =>
      simp only [next] at h
      split at h <;> cases h
  | unwinding t e =>
      simp only [next] at h
      split at h
      · cases h
      · split at h <;> cases h
  | _ => cases h

/-- Left to itself, a traversal comes to its end or goes on forever. -/
theorem ends_or_endless (r : Stage × Session) : Ends r ∨
    ∃ f : Nat → Stage × Session, f 0 = r ∧ ∀ n, (f n).1.next (f n).2 = some (f (n + 1)) := by
  by_cases ends : Ends r
  · exact .inl ends
  have goes : ∀ r', Leads r r' → ∃ r'', r'.1.next r'.2 = some r'' := by
    intro r' leads
    cases next : r'.1.next r'.2 with
    | some r'' => exact ⟨r'', rfl⟩
    | none =>
        obtain ⟨how, same⟩ := next_none next
        exact absurd ⟨how, r'.2, same ▸ leads⟩ ends
  let f : Nat → Stage × Session := fun n => Nat.rec r (fun _ r' => (r'.1.next r'.2).getD r') n
  have leads : ∀ n, Leads r (f n) := by
    intro n
    induction n with
    | zero => exact .refl
    | succ n ih =>
        obtain ⟨r'', next⟩ := goes _ ih
        refine ih.tail ?_
        show _ = some (((f n).1.next (f n).2).getD (f n))
        rw [next, Option.getD_some]
  refine .inr ⟨f, rfl, fun n => ?_⟩
  obtain ⟨r'', next⟩ := goes _ (leads n)
  show _ = some (((f n).1.next (f n).2).getD (f n))
  rw [next, Option.getD_some]

end Stage

/-- No run attempts more visits than there are entry points and connections that its emissions fired.
However large its budgets are and whatever is done beside it, its traversal comes to an end, unless the
logic of some element hands over items forever. -/
theorem run_terminates {α : Type} {graph : Graph} {registry : Registry} {draws : List Double}
    {commands : List (Command α)} (proper : ∀ x ∈ commands, x.Proper) {w : World α}
    (steps : (World.ofCommands (Session.ofGraph graph registry draws) commands).Leads w) :
    (w.session.started = true → w.session.history.countP Happening.isAttempt ≤
        graph.roots.length + w.session.firings) ∧
      (∀ e, w.Ended e → e.session.started = true → e.session.history.countP Happening.isAttempt ≤
        graph.roots.length + e.session.firings) ∧
      ∀ (s s' : Session) (options : Options) (listener : Listener) (bindings : Entries),
        0 < options.maxSteps → Deeds (s.taken options listener bindings) s' →
        (∀ f : Nat → Stage × Session, f 0 = (.opening, s') → (∀ n, Stage.Onward (f n) (f (n + 1))) →
          ∃ id, ∀ n, ∃ m, n ≤ m ∧ (f m).1.Hands (f m).2 id) ∧
        (Stage.Ends (.opening, s') ∨ ∃ (f : Nat → Stage × Session) (id : String),
          f 0 = (.opening, s') ∧ (∀ n, (f n).1.next (f n).2 = some (f (n + 1))) ∧
          ∀ n, ∃ m, n ≤ m ∧ (f m).1.Hands (f m).2 id) := by
  have law := ((lifecycle_law graph).and (budget_law graph)).and (supply_law graph)
  obtain ⟨⟨graph', here⟩, ended⟩ := law.everywhere proper steps
  refine ⟨fun started => ?_, fun e ceased started => ?_,
    fun s s' options listener bindings budget deeds => ?_⟩
  · obtain ⟨st, ⟨lifecycle, budgeted⟩, supplied⟩ := here started
    exact graph' ▸ supplied.bound (budgeted.inBudget lifecycle)
  · obtain ⟨graph', ends⟩ := ended e ceased
    obtain ⟨_, here, _⟩ := law.after ends
    obtain ⟨st, ⟨lifecycle, budgeted⟩, supplied⟩ := here started
    exact graph' ▸ supplied.bound (budgeted.inBudget lifecycle)
  · have under := (Stage.UnderWay.taken s listener bindings budget).aside deeds
    refine ⟨fun f start goes => Stage.UnderWay.endless (start ▸ under) goes, ?_⟩
    refine (Stage.ends_or_endless (.opening, s')).imp_right ?_
    rintro ⟨f, start, goes⟩
    have onward : ∀ n, Stage.Onward (f n) (f (n + 1)) := fun n => ⟨_, goes n, .refl⟩
    obtain ⟨id, forever⟩ := Stage.UnderWay.endless (start ▸ under) onward
    exact ⟨f, id, start, goes, forever⟩

/-- The run of the two elements attempts no more visits than it was given cause for, and its traversal is
not an endless one without endless items. -/
theorem run_terminates_pair : ∃ e, (World.run 50 .pair).Ended e ∧
    e.session.history.countP Happening.isAttempt ≤ Graph.pair.roots.length + e.session.firings ∧
    ∀ f : Nat → Stage × Session, f 0 = (.opening, Graph.pairSession.taken .default .silent []) →
      (∀ n, Stage.Onward (f n) (f (n + 1))) → ∃ id, ∀ n, ∃ m, n ≤ m ∧ (f m).1.Hands (f m).2 id := by
  obtain ⟨e, ended, completes⟩ := World.ended_of_tells World.pair_completes
  obtain ⟨_, started, _⟩ := Execution.of_completes completes
  obtain ⟨_, bound, endless⟩ := run_terminates Request.plain_proper (World.leads_run 50 World.pair)
  exact ⟨e, ended, bound e ended started,
    (endless Graph.pairSession _ .default .silent [] (by decide) .refl).1⟩

end BlockGraph
