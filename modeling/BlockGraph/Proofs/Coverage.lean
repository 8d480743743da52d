import Mathlib.Order.WellFoundedSet
import BlockGraph.Proofs.Footprints
/-!
Coverage: in an acyclic graph every element can be reached from an entry point, so a completed run in which
every connection of a started element is fired leaves no element out.
-/
namespace BlockGraph

namespace Graph

/-- Whether a connection leads from one element to another. -/
def Joins (g : Graph) (a b : String) : Prop := ∃ c ∈ g.connections, c.source = a ∧ c.target = b

/-- Whether no element can be reached from itself. -/
def Acyclic (g : Graph) : Prop := ∀ id, ¬Relation.TransGen g.Joins id id

/-- A graph is acyclic when all its connections lead upwards. -/
theorem acyclic_of_rank {g : Graph} (rank : String → Nat)
    (upwards : ∀ c ∈ g.connections, rank c.source < rank c.target) : g.Acyclic := by
  have climbs : ∀ a b, Relation.TransGen g.Joins a b → rank a < rank b := by
    intro a b path
    induction path with
    | single edge =>
        obtain ⟨c, member, rfl, rfl⟩ := edge
        exact upwards c member
    | tail _ edge ih =>
        obtain ⟨c, member, rfl, rfl⟩ := edge
        exact Nat.lt_trans ih (upwards c member)
  exact fun id cycle => Nat.lt_irrefl _ (climbs id id cycle)

/-- In an acyclic graph what holds of an element as soon as it holds of all that lead to it holds of each. -/
theorem Acyclic.induct {g : Graph} (acyclic : g.Acyclic) {P : String → Prop}
    (step : ∀ e ∈ g.elements, (∀ other ∈ g.elements, g.Joins other.id e.id → P other.id) → P e.id) :
    ∀ e ∈ g.elements, P e.id := by
  have irrefl : Std.Irrefl (Relation.TransGen g.Joins) := ⟨acyclic⟩
  have order : IsStrictOrder String (Relation.TransGen g.Joins) := { }
  let ids : Set String := {id | id ∈ g.elements.map (·.id)}
  have founded : ids.WellFoundedOn (Relation.TransGen g.Joins) :=
    (List.finite_toSet (g.elements.map (·.id))).wellFoundedOn
  intro e member
  have inside : e.id ∈ ids := List.mem_map_of_mem member
  refine founded.induction (P := P) inside fun id there ih => ?_
  obtain ⟨e, member, rfl⟩ := List.mem_map.mp there
  exact step e member fun other within joins => ih other.id (List.mem_map_of_mem within) (.single joins)

/-- Sources of connections are elements of a graph that was accepted. -/
theorem source_of_checkEndpoints {g : Graph} (h : g.checkEndpoints = .ok ()) :
    ∀ c ∈ g.connections, ∃ e ∈ g.elements, e.id = c.source := by
  intro c member
  have passed := check_of_forM h c member
  split at passed
  · cases passed
  · rename_i found
    rw [Bool.not_eq_true', Bool.not_eq_false] at found
    obtain ⟨e, here, same⟩ := List.any_eq_true.mp found
    exact ⟨e, here, beq_iff_eq.mp same⟩

/-- An element is an entry point, or a connection leads to it. -/
theorem entry_or_joined (g : Graph) {e : Element} (member : e ∈ g.elements) :
    e.id ∈ g.entryPoints ∨ ∃ c ∈ g.connections, c.target = e.id := by
  cases reached : g.connections.any (·.target == e.id) with
  | false =>
      refine .inl (List.mem_map_of_mem (List.mem_filter.mpr ⟨member, ?_⟩))
      rw [reached]
      rfl
  | true =>
      obtain ⟨c, joins, same⟩ := List.any_eq_true.mp reached
      exact .inr ⟨c, joins, beq_iff_eq.mp same⟩

/-- Every element of an acyclic graph can be reached from an entry point. -/
theorem Acyclic.reached {g : Graph} (acyclic : g.Acyclic) (accepted : g.checkEndpoints = .ok ()) :
    ∀ e ∈ g.elements, ∃ root ∈ g.entryPoints, Relation.ReflTransGen g.Joins root e.id := by
  refine acyclic.induct (P := fun id => ∃ root ∈ g.entryPoints, Relation.ReflTransGen g.Joins root id)
    fun e member ih => ?_
  rcases g.entry_or_joined member with entry | ⟨c, joins, target⟩
  · exact ⟨e.id, entry, .refl⟩
  · obtain ⟨source, within, same⟩ := source_of_checkEndpoints accepted c joins
    have edge : g.Joins source.id e.id := ⟨c, joins, same.symm, target⟩
    obtain ⟨root, entry, path⟩ := ih source within edge
    exact ⟨root, entry, path.tail edge⟩

/-- Entry points are roots. -/
theorem roots_of_entryPoints {g : Graph} {id : String} (entry : id ∈ g.entryPoints) : id ∈ g.roots := by
  unfold roots
  split
  · rename_i none
    rw [none] at entry
    exact (List.not_mem_nil entry).elim
  · exact entry

end Graph

namespace Session

/-- Whether each element that was started has fired all connections that leave it. -/
def FiresAll (s : Session) : Prop :=
  ∀ c ∈ s.graph.connections, c.source ∈ s.processed →
    ∃ x ∈ s.emissions, x.1 = c.source ∧ c.carries x.2.port = true

instance (s : Session) : Decidable s.FiresAll :=
  inferInstanceAs (Decidable (∀ c ∈ s.graph.connections, c.source ∈ s.processed →
    ∃ x ∈ s.emissions, x.1 = c.source ∧ c.carries x.2.port = true))

theorem mem_emissions {s : Session} {x : String × Emission} (h : x ∈ s.emissions) :
    .emitted x.1 x.2 ∈ s.history := by
  obtain ⟨happening, member, same⟩ := List.mem_filterMap.mp h
  cases happening with
  | emitted id e =>
      cases same
      exact member
  | _ => cases same

/-- What encloses a run in which every connection is fired has all that can be reached from its roots. -/
theorem Encloses.reaches {s : Session} (encloses : s.Encloses (· ∈ s.processed)) (fires : s.FiresAll)
    {root id : String} (entry : root ∈ s.graph.roots) (path : Relation.ReflTransGen s.graph.Joins root id) :
    id ∈ s.processed := by
  induction path with
  | refl => exact encloses.roots root entry
  | tail _ edge ih =>
      obtain ⟨c, member, rfl, rfl⟩ := edge
      obtain ⟨⟨_, e⟩, emits, rfl, carries⟩ := fires c member ih
      exact encloses.fired c member e ih (mem_emissions emits) carries

end Session

/-- An execution that completed its run ended a session that was active to the end, and whose traversal came to
its end. -/
theorem Execution.Ends.completed {J : Session → Stage → Prop} {e : Execution} (h : e.Ends J)
    (finished : e.outcome = .finished) (done : e.session.status = .completed) :
    ∃ s s', J s (.over .normal) ∧ s.active = true ∧ Kept s s' ∧ e.session = s'.closed := by
  cases h with
  | refused st refusal _ =>
      rw [finished] at refusal
      cases refusal
  | concluded s s' st running started here how same =>
      have done : s'.status = .completed := by rwa [same] at done
      obtain ⟨rfl, _, unstopped⟩ := how.completed running done
      have active : s.active = true := by rw [Session.active, running, unstopped]; rfl
      exact ⟨s, s', here, active, how.kept running, same⟩

/-- Every element of an accepted acyclic graph can be reached from an entry point. So when a run of it is
completed, and each element that was started has fired all its connections, every element of the graph was
started once and came to its end once, whatever callers did. -/
theorem run_covers {α : Type} {graph : Graph} (accepted : graph.checkEndpoints = .ok ())
    (acyclic : graph.Acyclic) :
    (∀ e ∈ graph.elements, ∃ root ∈ graph.entryPoints, Relation.ReflTransGen graph.Joins root e.id) ∧
      ∀ {registry : Registry} {draws : List Double} {commands : List (Command α)},
        (∀ x ∈ commands, x.Proper) → ∀ {w : World α},
        (World.ofCommands (Session.ofGraph graph registry draws) commands).Leads w → ∀ x, w.Ended x →
        x.outcome = .finished → x.session.status = .completed → x.session.FiresAll →
        ∀ e ∈ graph.elements, x.session.processed.count e.id = 1 ∧ x.session.starts.count e.id = 1 ∧
          x.session.completions.count e.id = 1 := by
  have reached := acyclic.reached accepted
  refine ⟨reached, fun proper w steps x ceased finished done fires e member => ?_⟩
  have law := reach_law (Graph.joined_of_checkEndpoints accepted)
  obtain ⟨same, ends⟩ := (law.everywhere proper steps).2 x ceased
  obtain ⟨s, s', here, active, kept, session⟩ := ends.completed finished done
  have covers := (here.2.covers active fun e on => (Option.some.inj on).symm).mute kept.mute
  have encloses : x.session.Encloses (· ∈ x.session.processed) := by
    rw [session]
    exact ⟨covers.encloses.roots, covers.encloses.fired⟩
  obtain ⟨root, entry, path⟩ := reached e member
  rw [← same] at entry path
  have started : e.id ∈ x.session.processed :=
    encloses.reaches fires (Graph.roots_of_entryPoints entry) path
  obtain ⟨⟨_, underway, tidy, known⟩, _⟩ := (law.after ends).2.2 finished
  obtain rfl := known [] rfl
  have once : x.session.processed.count e.id = 1 := List.count_eq_one_of_mem tidy.once started
  have ended : x.session.completions.Perm x.session.starts := by
    have perm := tidy.nested.perm
    rw [List.append_nil] at perm
    rw [Session.completions, Session.starts, List.filterMap_reverse, List.filterMap_reverse]
    exact (List.reverse_perm _).trans (perm.trans (List.reverse_perm _).symm)
  refine ⟨once, tidy.order ▸ once, ?_⟩
  rw [ended.count_eq, tidy.order]
  exact once

/-- The two elements, the first of which leads to the second, are both started and over. -/
theorem run_covers_pair : Graph.pair.Acyclic ∧ ∃ x, (World.run 50 .pair).Ended x ∧ x.session.FiresAll ∧
    ∀ e ∈ Graph.pair.elements, x.session.processed.count e.id = 1 ∧ x.session.starts.count e.id = 1 ∧
      x.session.completions.count e.id = 1 := by
  have acyclic : Graph.pair.Acyclic := by
    refine Graph.acyclic_of_rank (fun id => if id = "first" then 0 else 1) fun c member => ?_
    rw [List.mem_singleton.mp member]
    decide
  have told : (World.run 50 .pair).tells (fun x => x.completes && decide x.session.FiresAll) = true := by
    decide +kernel
  obtain ⟨x, ended, seen⟩ := World.ended_of_tells told
  obtain ⟨completes, fires⟩ := Bool.and_eq_true_iff.mp seen
  obtain ⟨finished, _, completed⟩ := Execution.of_completes completes
  have fires : x.session.FiresAll := of_decide_eq_true fires
  have accepted : Graph.pair.checkEndpoints = .ok () := rfl
  obtain ⟨_, covers⟩ := run_covers (α := Unit) accepted acyclic
  exact ⟨acyclic, x, ended, fires, covers Request.plain_proper (World.leads_run 50 World.pair) x ended finished
    completed fires⟩

end BlockGraph
