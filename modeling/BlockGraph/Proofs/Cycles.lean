import BlockGraph.Proofs.Coverage
/-!
Cycles. The search for them ends, each path that it reports is a cycle of the graph, and a graph without the
connections that close one has none left. A path is reported once for each connection that makes its last hop.

The search is followed with the row of the elements that it has left, last first: each connection of such an element
closes a reported cycle or leads to an element that was left before it. When the search is over all elements have been
left, so that their places in the row rank them.
-/
namespace BlockGraph

namespace Graph

/-- A closed path along connections: it ends on the element on which it starts, and is on no other one twice. -/
structure IsCycle (g : Graph) (cycle : List String) : Prop where
  hops : cycle.IsChain g.Joins
  closed : cycle.head? = cycle.getLast?
  distinct : cycle.dropLast.Nodup
  leaves : 2 ≤ cycle.length

/-- The two elements between which a path has its last hop. -/
def lastHop? (cycle : List String) : Option (String × String) :=
  match cycle.reverse with
  | target :: source :: _ => some (source, target)
  | _ => none

/-- The graph without the connections that make the last hop of a reported cycle. -/
def opened (g : Graph) : Graph :=
  { g with connections := g.connections.filter fun c =>
      !g.cycles.any fun cycle => lastHop? cycle == some (c.source, c.target) }

/-- The search after some roots. -/
def searched (g : Graph) (roots : List Element) : Search :=
  roots.foldl (fun s e => s.fromRoot g e.id) ⟨[], [], [], []⟩

theorem mem_outgoing {g : Graph} {id : String} {c : Connection} :
    c ∈ g.outgoing id ↔ c ∈ g.connections ∧ c.source = id := by
  rw [outgoing, List.mem_filter, beq_iff_eq]

/-- Targets of connections are elements of a graph that was accepted. -/
theorem target_of_checkEndpoints {g : Graph} (h : g.checkEndpoints = .ok ()) :
    ∀ c ∈ g.connections, ∃ e ∈ g.elements, e.id = c.target := by
  intro c member
  have passed := check_of_forM h c member
  split at passed
  · cases passed
  · split at passed
    · cases passed
    · rename_i found
      rw [Bool.not_eq_true', Bool.not_eq_false] at found
      obtain ⟨e, here, same⟩ := List.any_eq_true.mp found
      exact ⟨e, here, beq_iff_eq.mp same⟩

end Graph

namespace Graph.Search

variable {g : Graph} {s : Search} {cycles : List (List String)} {done path : List String} {id target : String}
  {inner? : Option String} {edges : List (List Connection)}

/-! ### Closing a path -/

/-- A path is closed by what of it lies behind the target, and the target once more. -/
theorem closing_eq (on : target ∈ path) : ∃ before after,
    path.reverse = before ++ target :: after ∧ closing path target = target :: after ++ [target] := by
  obtain ⟨before, after, split, fresh⟩ := List.eq_append_cons_of_mem (List.mem_reverse.mpr on)
  refine ⟨before, after, split, ?_⟩
  rw [closing, split, List.dropWhile_append_of_pos, List.dropWhile_cons_of_neg]
  · simp
  · intro other member
    simp only [bne_iff_ne, ne_eq]
    rintro rfl
    exact fresh member

/-- The last hop of a closed path leads from its innermost element to the target. -/
theorem lastHop?_closing (on : target ∈ id :: path) : lastHop? (closing (id :: path) target) = some (id, target) := by
  obtain ⟨before, after, split, closed⟩ := closing_eq on
  have turned : id :: path = (target :: after).reverse ++ before.reverse := by
    rw [← List.reverse_append, ← split, List.reverse_reverse]
  rw [lastHop?, closed, List.reverse_append]
  cases inner : (target :: after).reverse with
  | nil => simp at inner
  | cons last rest =>
      rw [inner] at turned
      cases turned
      rfl

theorem isCycle_closing (hops : (id :: path).reverse.IsChain g.Joins) (distinct : (id :: path).Nodup)
    (on : target ∈ id :: path) (joins : g.Joins id target) : g.IsCycle (closing (id :: path) target) := by
  obtain ⟨before, after, split, closed⟩ := closing_eq on
  have suffix : target :: after <:+ (id :: path).reverse := ⟨before, split.symm⟩
  have last : (target :: after).getLast? = some id := by
    rw [← List.getLast?_append_of_ne_nil before (List.cons_ne_nil _ _), ← split, List.getLast?_reverse, List.head?_cons]
  rw [closed]
  refine ⟨List.isChain_append.mpr ⟨hops.suffix suffix, List.isChain_singleton _, ?_⟩, ?_, ?_, ?_⟩
  · intro a there b here
    rw [last] at there
    cases there
    cases here
    exact joins
  · rw [List.getLast?_append, List.getLast?_singleton]
    rfl
  · rw [List.dropLast_concat]
    exact (List.nodup_reverse.mpr distinct).sublist suffix.sublist
  · rw [List.length_append, List.length_cons, List.length_singleton]
    omega

/-! ### The path of a search -/

/-- What has become of the connections of an element on the path that were followed: each leads back to the path, to
an element that was left, or to the one inside of it. The reported cycles that end with a hop of this element are its
closed paths, each reported once for each of these connections. -/
structure Followed (cycles : List (List String)) (done : List String) (inner? : Option String) (id : String)
    (outer : List String) (followed : List Connection) : Prop where
  settled : ∀ c ∈ followed, c.target ∈ id :: outer ∨ c.target ∈ done ∨ inner? = some c.target
  counted : ∀ target ∈ id :: outer,
    cycles.count (closing (id :: outer) target) = followed.countP (·.target == target)
  only : ∀ cycle ∈ cycles, ∀ target, lastHop? cycle = some (id, target) →
    target ∈ id :: outer ∧ cycle = closing (id :: outer) target

/-- The path of a search, and the connections of its elements that are left to follow. -/
inductive Spine (g : Graph) (cycles : List (List String)) (done : List String) :
    Option String → List String → List (List Connection) → Prop
  | nil {inner? : Option String} : Spine g cycles done inner? [] []
  | cons {inner? : Option String} {id : String} {outer : List String} {followed rest : List Connection}
      {edges : List (List Connection)} (all : g.outgoing id = followed ++ rest)
      (known : Followed cycles done inner? id outer followed) (joins : ∀ inner ∈ inner?, g.Joins id inner)
      (spine : Spine g cycles done (some id) outer edges) : Spine g cycles done inner? (id :: outer) (rest :: edges)

theorem Followed.imp {done' : List String} {outer : List String} {followed : List Connection}
    (h : Followed cycles done inner? id outer followed) (more : ∀ x ∈ done, x ∈ done') :
    Followed cycles done' inner? id outer followed :=
  ⟨fun c member => (h.settled c member).imp_right (Or.imp_left (more _)), h.counted, h.only⟩

theorem Spine.imp {done' : List String} (h : Spine g cycles done inner? path edges) (more : ∀ x ∈ done, x ∈ done') :
    Spine g cycles done' inner? path edges := by
  induction h with
  | nil => exact .nil
  | cons all known joins _ ih => exact .cons all (known.imp more) joins ih

/-- Along a path connections lead from each element to the one inside of it. -/
theorem Spine.hops (h : Spine g cycles done inner? path edges) : path.reverse.IsChain g.Joins := by
  rw [List.isChain_reverse]
  induction h with
  | nil => exact .nil
  | cons _ _ _ spine ih =>
      refine List.isChain_cons.mpr ⟨fun outer there => ?_, ih⟩
      cases spine with
      | nil => cases there
      | cons _ _ joins _ =>
          cases there
          exact joins _ rfl

/-- An element that is left was inside of no other one. -/
theorem Spine.leave (h : Spine g cycles done (some id) path edges) : Spine g cycles (id :: done) none path edges := by
  cases h with
  | nil => exact .nil
  | cons all known _ spine =>
      refine .cons all ⟨fun c member => ?_, known.counted, known.only⟩ (fun _ there => by cases there)
        (spine.imp fun _ => List.mem_cons_of_mem _)
      rcases known.settled c member with on | left | inner
      · exact .inl on
      · exact .inr (.inl (List.mem_cons_of_mem _ left))
      · exact .inr (.inl (by cases inner; exact List.mem_cons_self))

/-- A cycle that ends with a hop of another element is none of those of this one. -/
theorem Followed.found {outer : List String} {followed : List Connection} {other : String} {cycle : List String}
    (h : Followed cycles done inner? id outer followed) (hop : lastHop? cycle = some (other, target))
    (apart : id ≠ other) : Followed (cycle :: cycles) done inner? id outer followed := by
  refine ⟨h.settled, fun target' on => ?_, ?_⟩
  · rw [← h.counted target' on]
    refine List.count_cons_of_ne ?_
    rintro rfl
    rw [lastHop?_closing on] at hop
    cases hop
    exact apart rfl
  · rintro cycle' member target' ends
    rcases List.mem_cons.mp member with rfl | member
    · rw [hop] at ends
      cases ends
      exact absurd rfl apart
    · exact h.only cycle' member target' ends

theorem Spine.found {other : String} {cycle : List String} (h : Spine g cycles done inner? path edges)
    (hop : lastHop? cycle = some (other, target)) (apart : other ∉ path) :
    Spine g (cycle :: cycles) done inner? path edges := by
  induction h with
  | nil => exact .nil
  | cons all known joins _ ih =>
      obtain ⟨here, others⟩ := not_or.mp (mt List.mem_cons.mpr apart)
      exact .cons all (known.found hop (Ne.symm here)) joins (ih others)

/-- A connection that leads off the path adds no cycle. -/
theorem Followed.off {outer : List String} {followed : List Connection} {c : Connection}
    (h : Followed cycles done none id outer followed) (off : c.target ∉ id :: outer)
    (settled : c.target ∈ done ∨ inner? = some c.target) :
    Followed cycles done inner? id outer (followed ++ [c]) := by
  refine ⟨fun c' member => ?_, fun target on => ?_, h.only⟩
  · rcases List.mem_append.mp member with member | member
    · exact (h.settled c' member).imp_right fun known => known.elim .inl fun none => by cases none
    · cases List.mem_singleton.mp member
      exact .inr settled
  · have other : ¬(c.target == target) = true := by
      rw [beq_iff_eq]
      rintro rfl
      exact off on
    rw [h.counted target on, List.countP_append, List.countP_singleton, if_neg other, Nat.add_zero]

/-- A connection that leads back to the path closes it once more. -/
theorem Followed.back {outer : List String} {followed : List Connection} {c : Connection}
    (h : Followed cycles done none id outer followed) (on : c.target ∈ id :: outer) :
    Followed (closing (id :: outer) c.target :: cycles) done none id outer (followed ++ [c]) := by
  refine ⟨fun c' member => ?_, fun target there => ?_, fun cycle member target ends => ?_⟩
  · rcases List.mem_append.mp member with member | member
    · exact h.settled c' member
    · cases List.mem_singleton.mp member
      exact .inl on
  · rw [List.count_cons, h.counted target there, List.countP_append, List.countP_singleton]
    congr 1
    by_cases same : c.target = target
    · rw [same, if_pos BEq.rfl, if_pos BEq.rfl]
    · have other : closing (id :: outer) c.target ≠ closing (id :: outer) target := by
        intro equal
        have hop := congrArg lastHop? equal
        rw [lastHop?_closing on, lastHop?_closing there] at hop
        cases hop
        exact same rfl
      rw [if_neg (mt beq_iff_eq.mp other), if_neg (mt beq_iff_eq.mp same)]
  · rcases List.mem_cons.mp member with rfl | member
    · rw [lastHop?_closing on] at ends
      cases ends
      exact ⟨on, rfl⟩
    · exact h.only cycle member target ends

/-! ### The elements that were left -/

/-- The elements that were left, last first. Each of their connections makes the last hop of a reported cycle or leads
to an element that was left before, and a cycle is reported once for each connection that makes its last hop. -/
inductive Left (g : Graph) (cycles : List (List String)) : List String → Prop
  | nil : Left g cycles []
  | cons {id : String} {rest : List String}
      (settled : ∀ c ∈ g.outgoing id, (∃ cycle ∈ cycles, lastHop? cycle = some (id, c.target)) ∨ c.target ∈ rest)
      (counted : ∀ cycle ∈ cycles, ∀ target, lastHop? cycle = some (id, target) →
        cycles.count cycle = (g.outgoing id).countP (·.target == target))
      (before : Left g cycles rest) : Left g cycles (id :: rest)

theorem Left.found {other : String} {cycle : List String} (h : Left g cycles done)
    (hop : lastHop? cycle = some (other, target)) (apart : other ∉ done) : Left g (cycle :: cycles) done := by
  induction h with
  | nil => exact .nil
  | @cons id rest settled counted _ ih =>
      obtain ⟨here, others⟩ := not_or.mp (mt List.mem_cons.mpr apart)
      refine .cons (fun c member => ?_) (fun cycle' member target' ends => ?_) (ih others)
      · refine (settled c member).imp_left fun ⟨cycle', there, ends⟩ => ?_
        exact ⟨cycle', List.mem_cons_of_mem _ there, ends⟩
      · have other' : cycle' ≠ cycle := by
          rintro rfl
          rw [hop] at ends
          cases ends
          exact here rfl
        rw [List.count_cons_of_ne other'.symm]
        exact counted cycle' ((List.mem_cons.mp member).resolve_left other') target' ends

/-- All connections of an element were followed when it is left. -/
theorem Followed.left {outer : List String} (h : Followed cycles done none id outer (g.outgoing id))
    (before : Left g cycles done) : Left g cycles (id :: done) := by
  refine .cons (fun c member => ?_) (fun cycle member target ends => ?_) before
  · rcases h.settled c member with on | left | none
    · refine .inl ⟨closing (id :: outer) c.target, ?_, lastHop?_closing on⟩
      rw [← List.count_pos_iff, h.counted c.target on, List.countP_pos_iff]
      exact ⟨c, member, BEq.rfl⟩
    · exact .inr left
    · cases none
  · obtain ⟨on, rfl⟩ := h.only cycle member target ends
    exact h.counted target on

/-- A connection of an element that was left makes the last hop of a reported cycle, or its target comes after the
element in the row. -/
theorem Left.upwards (h : Left g cycles done) (distinct : done.Nodup) : ∀ c ∈ g.connections, c.source ∈ done →
    (∃ cycle ∈ cycles, lastHop? cycle = some (c.source, c.target)) ∨
      c.target ∈ done ∧ done.idxOf c.source < done.idxOf c.target := by
  induction h with
  | nil => exact fun c _ member => absurd member List.not_mem_nil
  | @cons id rest settled counted _ ih =>
      obtain ⟨fresh, distinct⟩ := List.nodup_cons.mp distinct
      have behind : ∀ {other}, other ∈ rest → (id :: rest).idxOf other = rest.idxOf other + 1 := by
        intro other there
        exact List.idxOf_cons_ne _ fun same => fresh (same ▸ there)
      intro c there member
      rcases List.mem_cons.mp member with here | before
      · refine (settled c (Graph.mem_outgoing.mpr ⟨there, here⟩)).imp (fun closed => here ▸ closed) fun later => ?_
        rw [here, List.idxOf_cons_self, behind later]
        exact ⟨List.mem_cons_of_mem _ later, Nat.succ_pos _⟩
      · refine (ih distinct c there before).imp_right fun ⟨later, less⟩ => ?_
        rw [behind before, behind later]
        exact ⟨List.mem_cons_of_mem _ later, Nat.succ_lt_succ less⟩

theorem Left.count (h : Left g cycles done) : ∀ cycle ∈ cycles, ∀ source target,
    lastHop? cycle = some (source, target) → source ∈ done →
      cycles.count cycle = (g.outgoing source).countP (·.target == target) := by
  induction h with
  | nil => exact fun _ _ _ _ _ left => absurd left List.not_mem_nil
  | cons _ counted _ ih =>
      intro cycle member source target ends left
      rcases List.mem_cons.mp left with rfl | before
      · exact counted cycle member target ends
      · exact ih cycle member source target ends before

/-! ### The search -/

/-- What is known of a search, given the row of elements that it has left. -/
structure Sound (g : Graph) (done : List String) (s : Search) : Prop where
  spine : Spine g s.cycles done none s.path s.edges
  distinct : (s.path ++ done).Nodup
  visited : ∀ id, id ∈ s.visited ↔ id ∈ s.path ++ done
  left : Left g s.cycles done
  found : ∀ cycle ∈ s.cycles, g.IsCycle cycle ∧ ∃ hop, lastHop? cycle = some hop ∧ hop.1 ∈ s.visited

/-- How many steps a search may still take: connections to follow, elements to leave, and as many of both for the
elements that were not reached. -/
def remaining (g : Graph) (s : Search) : Nat :=
  (s.edges.map List.length).sum + s.edges.length +
    (g.elements.countP (fun e => !s.visited.contains e.id) +
      g.connections.countP (fun c => !s.visited.contains c.source))

/-- What is reached for the first time was not reached before. -/
theorem countP_unvisited {α : Type} (name : α → String) {visited : List String} (fresh : id ∉ visited) (row : List α) :
    row.countP (fun a => !(id :: visited).contains (name a)) + row.countP (fun a => name a == id) =
      row.countP (fun a => !visited.contains (name a)) := by
  induction row with
  | nil => rfl
  | cons a rest ih =>
      simp only [List.countP_cons, ← ih]
      by_cases same : name a = id
      · simp [same, fresh]
        omega
      · by_cases there : name a ∈ visited
        · simp [same, there]
        · simp [same, there]
          omega

/-- To reach an element takes no more steps than were counted for it. -/
theorem remaining_reached {e : Element} (member : e ∈ g.elements) (fresh : e.id ∉ s.visited) (path : List String)
    (edges : List (List Connection)) :
    remaining g ⟨path, g.outgoing e.id :: edges, e.id :: s.visited, s.cycles⟩ ≤
      (edges.map List.length).sum + edges.length +
        (g.elements.countP (fun e => !s.visited.contains e.id) +
          g.connections.countP (fun c => !s.visited.contains c.source)) := by
  have elements := countP_unvisited (·.id) fresh g.elements
  have connections := countP_unvisited (·.source) fresh g.connections
  have here : 0 < g.elements.countP (fun e' => e'.id == e.id) := List.countP_pos_iff.mpr ⟨e, member, BEq.rfl⟩
  have all : (g.outgoing e.id).length = g.connections.countP (fun c => c.source == e.id) :=
    List.countP_eq_length_filter.symm
  simp only [remaining, List.map_cons, List.sum_cons, List.length_cons, all]
  omega

/-- What a step does for the search: it stays sound, fewer steps remain, and what was reached stays so. -/
structure Advances (g : Graph) (s s' : Search) : Prop where
  sound : ∃ done, Sound g done s'
  fewer : remaining g s' < remaining g s
  visited : ∀ id ∈ s.visited, id ∈ s'.visited

section

variable {outer visited : List String} {followed rest : List Connection} {c : Connection}

/-- An element without connections left to follow is left. -/
theorem leave_advances (h : Sound g done ⟨id :: outer, [] :: edges, visited, cycles⟩) :
    Advances g ⟨id :: outer, [] :: edges, visited, cycles⟩ ⟨outer, edges, visited, cycles⟩ := by
  have spine : Spine g cycles done none (id :: outer) ([] :: edges) := h.spine
  cases spine with
  | cons all known _ spine =>
      rw [List.append_nil] at all
      have order : (id :: outer ++ done).Perm (outer ++ id :: done) := List.perm_middle.symm
      refine ⟨⟨id :: done, spine.leave, order.nodup_iff.mp h.distinct, fun other => ?_, (all ▸ known).left h.left,
        h.found⟩, ?_, fun _ there => there⟩
      · exact (h.visited other).trans order.mem_iff
      · simp only [remaining, List.map_cons, List.sum_cons, List.length_nil, List.length_cons]
        omega

theorem remaining_followed (cycles' : List (List String)) :
    remaining g ⟨path, rest :: edges, visited, cycles'⟩ <
      remaining g ⟨path, (c :: rest) :: edges, visited, cycles⟩ := by
  simp only [remaining, List.map_cons, List.sum_cons, List.length_cons]
  omega

theorem followed_snoc (all : g.outgoing id = followed ++ c :: rest) : g.outgoing id = followed ++ [c] ++ rest := by
  rw [all, List.append_assoc, List.singleton_append]

/-- A connection back to the path closes a cycle. -/
theorem back_advances (h : Sound g done ⟨id :: outer, (c :: rest) :: edges, visited, cycles⟩)
    (on : c.target ∈ id :: outer) : Advances g ⟨id :: outer, (c :: rest) :: edges, visited, cycles⟩
      ⟨id :: outer, rest :: edges, visited, closing (id :: outer) c.target :: cycles⟩ := by
  have spine : Spine g cycles done none (id :: outer) ((c :: rest) :: edges) := h.spine
  have hop := lastHop?_closing on
  have hops := spine.hops
  obtain ⟨fresh, -⟩ := List.nodup_cons.mp h.distinct
  cases spine with
  | @cons _ _ _ followed _ _ all known joins spine =>
      have here := Graph.mem_outgoing.mp (all ▸ List.mem_append_right followed List.mem_cons_self)
      have cycle := isCycle_closing hops (List.nodup_append.mp h.distinct).1 on ⟨c, here.1, here.2, rfl⟩
      have whole := followed_snoc all
      refine ⟨⟨done, ?_, h.distinct, h.visited, ?_, ?_⟩, remaining_followed _, fun _ there => there⟩
      · refine .cons whole (known.back on) joins (spine.found hop fun member => fresh ?_)
        exact List.mem_append_left _ member
      · exact h.left.found hop fun member => fresh (List.mem_append_right _ member)
      · exact List.forall_mem_cons.mpr ⟨⟨cycle, _, hop, (h.visited id).mpr List.mem_cons_self⟩, h.found⟩

/-- A connection to an element that was left is passed over. -/
theorem pass_advances (h : Sound g done ⟨id :: outer, (c :: rest) :: edges, visited, cycles⟩)
    (off : c.target ∉ id :: outer) (seen : c.target ∈ visited) :
    Advances g ⟨id :: outer, (c :: rest) :: edges, visited, cycles⟩ ⟨id :: outer, rest :: edges, visited, cycles⟩ := by
  have spine : Spine g cycles done none (id :: outer) ((c :: rest) :: edges) := h.spine
  have before : c.target ∈ done := (List.mem_append.mp ((h.visited _).mp seen)).resolve_left off
  cases spine with
  | @cons _ _ _ followed _ _ all known joins spine =>
      have whole := followed_snoc all
      refine ⟨⟨done, ?_, h.distinct, h.visited, h.left, h.found⟩, remaining_followed _, fun _ there => there⟩
      exact .cons whole (known.off off (.inl before)) joins spine

/-- Nothing of an element that was not reached has been followed. -/
theorem Followed.fresh (found : ∀ cycle ∈ cycles, ∃ hop, lastHop? cycle = some hop ∧ hop.1 ∈ visited)
    (unseen : id ∉ visited) (outer : List String) : Followed cycles done none id outer [] := by
  have none : ∀ cycle ∈ cycles, ∀ target, lastHop? cycle ≠ some (id, target) := by
    intro cycle member target ends
    obtain ⟨hop, ends', inside⟩ := found cycle member
    rw [ends] at ends'
    cases ends'
    exact unseen inside
  refine ⟨fun c member => absurd member List.not_mem_nil, fun target on => ?_, fun cycle member target ends => ?_⟩
  · refine List.count_eq_zero.mpr fun member => ?_
    exact none _ member target (lastHop?_closing on)
  · exact absurd ends (none cycle member target)

/-- A connection to an element that was not reached makes the path longer. -/
theorem reach_advances (accepted : g.checkEndpoints = .ok ())
    (h : Sound g done ⟨id :: outer, (c :: rest) :: edges, visited, cycles⟩) (unseen : c.target ∉ visited) :
    Advances g ⟨id :: outer, (c :: rest) :: edges, visited, cycles⟩
      ⟨c.target :: id :: outer, g.outgoing c.target :: rest :: edges, c.target :: visited, cycles⟩ := by
  have spine : Spine g cycles done none (id :: outer) ((c :: rest) :: edges) := h.spine
  have off : c.target ∉ id :: outer ++ done := mt (h.visited _).mpr unseen
  cases spine with
  | @cons _ _ _ followed _ _ all known joins spine =>
      have here := Graph.mem_outgoing.mp (all ▸ List.mem_append_right followed List.mem_cons_self)
      obtain ⟨e, member, same⟩ := Graph.target_of_checkEndpoints accepted c here.1
      have whole := followed_snoc all
      have nothing : g.outgoing c.target = [] ++ g.outgoing c.target := rfl
      refine ⟨⟨done, ?_, List.nodup_cons.mpr ⟨off, h.distinct⟩, fun other => ?_, h.left, fun cycle there => ?_⟩, ?_,
        fun _ => List.mem_cons_of_mem _⟩
      · have known' := known.off (mt (List.mem_append_left _) off) (.inr rfl)
        refine .cons nothing (.fresh (fun cycle there => (h.found cycle there).2) unseen _)
          (fun _ none => by cases none) (.cons whole known' ?_ spine)
        intro inner there
        cases there
        exact ⟨c, here.1, here.2, rfl⟩
      · show other ∈ c.target :: visited ↔ other ∈ c.target :: (id :: outer ++ done)
        rw [List.mem_cons, List.mem_cons, h.visited other]
      · obtain ⟨cycle, hop, ends, inside⟩ := h.found cycle there
        exact ⟨cycle, hop, ends, List.mem_cons_of_mem _ inside⟩
      · rw [← same] at unseen ⊢
        have reached := remaining_reached (s := ⟨id :: outer, rest :: edges, visited, cycles⟩) member unseen
          (e.id :: id :: outer) (rest :: edges)
        exact Nat.lt_of_le_of_lt reached (remaining_followed cycles)

end

/-- Each step of a search that is not over takes it on. -/
theorem Sound.step (h : Sound g done s) (accepted : g.checkEndpoints = .ok ()) (goes : s.edges ≠ []) :
    Advances g s (s.step g) := by
  obtain ⟨path, edges, visited, cycles⟩ := s
  cases h.spine with
  | nil => exact absurd rfl goes
  | @cons _ id outer _ rest edges =>
      cases rest with
      | nil => exact leave_advances h
      | cons c rest =>
          simp only [Search.step]
          split
          · exact back_advances h (List.contains_iff_mem.mp ‹_›)
          · have off : c.target ∉ id :: outer := mt List.contains_iff_mem.mpr ‹_›
            split
            · exact pass_advances h off (List.contains_iff_mem.mp ‹_›)
            · exact reach_advances accepted h (mt List.contains_iff_mem.mpr ‹_›)

/-- With as many steps as may remain a search comes to its end. -/
theorem Sound.run (h : Sound g done s) (accepted : g.checkEndpoints = .ok ()) {fuel : Nat}
    (enough : remaining g s ≤ fuel) : (run g fuel s).edges = [] ∧ (∃ done, Sound g done (run g fuel s)) ∧
      ∀ id ∈ s.visited, id ∈ (run g fuel s).visited := by
  induction fuel generalizing s done with
  | zero =>
      have ended : s.edges = [] := by
        rw [remaining] at enough
        exact List.length_eq_zero_iff.mp (by omega)
      exact ⟨ended, ⟨done, h⟩, fun _ there => there⟩
  | succ fuel ih =>
      rw [Search.run]
      split
      · exact ⟨List.isEmpty_iff.mp ‹_›, ⟨done, h⟩, fun _ there => there⟩
      · rename_i goes
        obtain ⟨⟨done', sound⟩, fewer, stays⟩ := h.step accepted (mt List.isEmpty_iff.mpr goes)
        obtain ⟨ended, still, keeps⟩ := ih sound (by omega)
        exact ⟨ended, still, fun id there => keeps id (stays id there)⟩

/-- Whether a search has no connection left to follow. -/
structure Over (g : Graph) (s : Search) : Prop where
  edges : s.edges = []
  sound : ∃ done, Sound g done s

/-- A root is reached, and the search from it comes to its end. -/
theorem Over.fromRoot {e : Element} (h : Over g s) (accepted : g.checkEndpoints = .ok ()) (member : e ∈ g.elements) :
    Over g (s.fromRoot g e.id) ∧ e.id ∈ (s.fromRoot g e.id).visited ∧
      ∀ id ∈ s.visited, id ∈ (s.fromRoot g e.id).visited := by
  obtain ⟨path, edges, visited, cycles⟩ := s
  obtain ⟨ended, done, sound⟩ := h
  cases ended
  have pathless : path = [] := by cases sound.spine; rfl
  cases pathless
  unfold Search.fromRoot
  split
  · exact ⟨⟨rfl, done, sound⟩, List.contains_iff_mem.mp ‹_›, fun _ there => there⟩
  · rename_i unseen
    have unseen : e.id ∉ visited := mt List.contains_iff_mem.mpr unseen
    have begun : Sound g done ⟨[e.id], [g.outgoing e.id], e.id :: visited, cycles⟩ := by
      have known : Followed cycles done none e.id [] [] :=
        .fresh (fun cycle there => (sound.found cycle there).2) unseen []
      have nothing : g.outgoing e.id = [] ++ g.outgoing e.id := rfl
      refine ⟨.cons nothing known (fun _ none => by cases none) .nil, ?_, fun other => ?_, sound.left,
        fun cycle there => ?_⟩
      · exact List.nodup_cons.mpr ⟨mt (sound.visited e.id).mpr unseen, sound.distinct⟩
      · show other ∈ e.id :: visited ↔ other ∈ e.id :: done
        rw [List.mem_cons, List.mem_cons, sound.visited other]
        rfl
      · obtain ⟨cycle, hop, ends, inside⟩ := sound.found cycle there
        exact ⟨cycle, hop, ends, List.mem_cons_of_mem _ inside⟩
    have enough : remaining g ⟨[e.id], [g.outgoing e.id], e.id :: visited, cycles⟩ ≤
        g.connections.length + g.elements.length := by
      have reached := remaining_reached (s := ⟨[], [], visited, cycles⟩) member unseen [e.id] []
      have elements : g.elements.countP (fun e => !visited.contains e.id) ≤ g.elements.length := List.countP_le_length
      have connections : g.connections.countP (fun c => !visited.contains c.source) ≤ g.connections.length :=
        List.countP_le_length
      simp only [List.map_nil, List.sum_nil, List.length_nil] at reached
      omega
    obtain ⟨ended, still, keeps⟩ := begun.run accepted enough
    exact ⟨⟨ended, still⟩, keeps _ List.mem_cons_self, fun id there => keeps id (List.mem_cons_of_mem _ there)⟩

/-- Searches from roots one after the other come to their ends, and reach them all. -/
theorem Over.fromRoots {roots : List Element} (h : Over g s) (accepted : g.checkEndpoints = .ok ())
    (inside : ∀ e ∈ roots, e ∈ g.elements) :
    Over g (roots.foldl (fun s e => s.fromRoot g e.id) s) ∧
      (∀ id ∈ s.visited, id ∈ (roots.foldl (fun s e => s.fromRoot g e.id) s).visited) ∧
      ∀ e ∈ roots, e.id ∈ (roots.foldl (fun s e => s.fromRoot g e.id) s).visited := by
  induction roots generalizing s with
  | nil => exact ⟨h, fun _ there => there, fun _ member => absurd member List.not_mem_nil⟩
  | cons e rest ih =>
      obtain ⟨here, others⟩ := List.forall_mem_cons.mp inside
      obtain ⟨done, reached, stays⟩ := h.fromRoot accepted here
      obtain ⟨ended, keeps, all⟩ := ih done others
      exact ⟨ended, fun id there => keeps id (stays id there), List.forall_mem_cons.mpr ⟨keeps _ reached, all⟩⟩

end Graph.Search

/-! ### The cycles of a graph -/

namespace Graph

variable {g : Graph}

theorem searched_over (accepted : g.checkEndpoints = .ok ()) {roots : List Element}
    (inside : ∀ e ∈ roots, e ∈ g.elements) :
    Search.Over g (g.searched roots) ∧ ∀ e ∈ roots, e.id ∈ (g.searched roots).visited := by
  have start : Search.Over g ⟨[], [], [], []⟩ :=
    ⟨rfl, [], .nil, .nil, fun _ => .rfl, .nil, fun _ member => absurd member List.not_mem_nil⟩
  obtain ⟨ended, -, reached⟩ := start.fromRoots accepted inside
  exact ⟨ended, reached⟩

theorem mem_cycles {cycle : List String} : cycle ∈ g.cycles ↔ cycle ∈ (g.searched g.elements).cycles :=
  List.mem_reverse

/-- Sources of connections are reached. -/
theorem source_visited (accepted : g.checkEndpoints = .ok ()) {c : Connection} (member : c ∈ g.connections) :
    c.source ∈ (g.searched g.elements).visited := by
  obtain ⟨e, there, same⟩ := source_of_checkEndpoints accepted c member
  exact same ▸ (searched_over accepted fun _ member => member).2 e there

/-- When the search is over each element that it reached has been left. -/
theorem searched_left (accepted : g.checkEndpoints = .ok ()) : ∃ done : List String, done.Nodup ∧
    Search.Left g (g.searched g.elements).cycles done ∧ ∀ id ∈ (g.searched g.elements).visited, id ∈ done := by
  obtain ⟨⟨ended, done, sound⟩, reached⟩ := searched_over accepted fun _ member => member
  have pathless : (g.searched g.elements).path = [] := by
    have spine := sound.spine
    rw [ended] at spine
    generalize (g.searched g.elements).path = path at spine
    cases spine
    rfl
  refine ⟨done, ?_, sound.left, fun id there => ?_⟩
  · have distinct := sound.distinct
    rwa [pathless] at distinct
  · have inside := (sound.visited id).mp there
    rwa [pathless] at inside

/-- Without the connections that make the last hop of a reported cycle a graph is acyclic. -/
theorem opened_acyclic (accepted : g.checkEndpoints = .ok ()) : g.opened.Acyclic := by
  obtain ⟨done, distinct, left, all⟩ := searched_left accepted
  refine acyclic_of_rank done.idxOf fun c member => ?_
  obtain ⟨there, kept⟩ := List.mem_filter.mp member
  rcases left.upwards distinct c there (all _ (source_visited accepted there)) with ⟨cycle, reported, ends⟩ | ⟨-, less⟩
  · rw [Bool.not_eq_true', List.any_eq_false] at kept
    exact absurd (beq_iff_eq.mpr ends) (kept cycle (mem_cycles.mpr reported))
  · exact less

/-- Along a cycle one comes back to the element where one was. -/
theorem IsCycle.not_acyclic {cycle : List String} (h : g.IsCycle cycle) : ¬g.Acyclic := by
  obtain ⟨hops, closed, -, leaves⟩ := h
  rcases cycle with _ | ⟨id, _ | ⟨next, rest⟩⟩
  · exact absurd leaves (by decide)
  · exact absurd leaves (Nat.lt_irrefl 1)
  · obtain ⟨first, others⟩ := List.isChain_cons_cons.mp hops
    have last : (next :: rest).getLast (List.cons_ne_nil _ _) = id := by
      rw [List.getLast?_cons_cons, List.getLast?_eq_getLast_of_ne_nil (List.cons_ne_nil _ _)] at closed
      exact (Option.some.inj closed).symm
    exact fun acyclic => acyclic id (.head' first (List.relationReflTransGen_of_exists_isChain_cons rest others last))

/-- The search for cycles ends from each root in its turn, with no connection left to follow, in each graph that is
accepted. What it reports are cycles; without the connections that make the last hop of one the graph is acyclic, so
that nothing is reported exactly of an acyclic graph. -/
theorem cycles_found (accepted : g.checkEndpoints = .ok ()) :
    (∀ roots, roots <+: g.elements → (g.searched roots).edges = []) ∧ (∀ cycle ∈ g.cycles, g.IsCycle cycle) ∧
      g.opened.Acyclic ∧ (g.cycles = [] ↔ g.Acyclic) := by
  obtain ⟨⟨-, done, sound⟩, -⟩ := searched_over accepted fun _ member => member
  have found : ∀ cycle ∈ g.cycles, g.IsCycle cycle := fun cycle member => (sound.found cycle (mem_cycles.mp member)).1
  refine ⟨fun roots before => ?_, found, opened_acyclic accepted, fun nothing => ?_, fun acyclic => ?_⟩
  · exact (searched_over accepted fun _ member => before.subset member).1.edges
  · have same : g.opened = g := by simp [opened, nothing]
    exact same ▸ opened_acyclic accepted
  · exact List.eq_nil_iff_forall_not_mem.mpr fun cycle member => (found cycle member).not_acyclic acyclic

/-- Two elements that lead to each other, one of them by two connections, and one that both lead to. -/
def tangle : Graph where
  elements := ["a", "b", "c"].map fun id => ⟨id, "comment", .int 0, .int 0, []⟩
  connections := [("1", "a", "b"), ("2", "b", "a"), ("3", "b", "c"), ("4", "b", "a"), ("5", "a", "c")].map
    fun (id, source, target) => ⟨id, source, target, none, none⟩

theorem cycles_found_tangle : tangle.checkEndpoints = .ok () ∧ tangle.cycles = [["a", "b", "a"], ["a", "b", "a"]] ∧
    tangle.opened.Acyclic ∧ (tangle.cycles = [] ↔ tangle.Acyclic) := by
  have accepted : tangle.checkEndpoints = .ok () := rfl
  exact ⟨accepted, by decide, (cycles_found accepted).2.2⟩

/-- Where no two connections join the same two elements in one direction, at most one joins any two. -/
theorem countP_joining (single : g.connections.Pairwise fun a b => ¬(a.source = b.source ∧ a.target = b.target))
    (source target : String) : g.connections.countP (fun c => c.source == source && c.target == target) ≤ 1 := by
  rw [List.countP_eq_length_filter]
  have between : ∀ c ∈ g.connections.filter (fun c => c.source == source && c.target == target),
      c.source = source ∧ c.target = target := by
    intro c member
    simpa using (List.mem_filter.mp member).2
  have apart := single.filter fun c => c.source == source && c.target == target
  generalize g.connections.filter (fun c => c.source == source && c.target == target) = row at between apart ⊢
  rcases row with _ | ⟨a, _ | ⟨b, rest⟩⟩
  · exact Nat.zero_le 1
  · exact Nat.le_refl 1
  · obtain ⟨from_, to_⟩ := between a List.mem_cons_self
    obtain ⟨from', to'⟩ := between b (List.mem_cons_of_mem _ List.mem_cons_self)
    have differ := (List.pairwise_cons.mp apart).1 b List.mem_cons_self
    exact absurd ⟨from_.trans from'.symm, to_.trans to'.symm⟩ differ

/-- A cycle is reported once for each connection that makes its last hop; so in a graph in which no two connections
lead from one element to the same other one no cycle is reported twice. -/
theorem cycles_counted (accepted : g.checkEndpoints = .ok ()) :
    (∀ cycle ∈ g.cycles, ∃ source target, lastHop? cycle = some (source, target) ∧
      g.cycles.count cycle = g.connections.countP fun c => c.source == source && c.target == target) ∧
    ((g.connections.Pairwise fun a b => ¬(a.source = b.source ∧ a.target = b.target)) → g.cycles.Nodup) := by
  obtain ⟨⟨-, _, sound⟩, -⟩ := searched_over accepted fun _ member => member
  obtain ⟨done, -, left, all⟩ := searched_left accepted
  have counted : ∀ cycle ∈ g.cycles, ∃ source target, lastHop? cycle = some (source, target) ∧
      g.cycles.count cycle = g.connections.countP fun c => c.source == source && c.target == target := by
    intro cycle member
    obtain ⟨-, hop, ends, inside⟩ := sound.found cycle (mem_cycles.mp member)
    refine ⟨hop.1, hop.2, ends, ?_⟩
    have count := left.count cycle (mem_cycles.mp member) hop.1 hop.2 ends (all _ inside)
    have turned : g.cycles.count cycle = (g.searched g.elements).cycles.count cycle := List.count_reverse
    rw [turned, count, outgoing, List.countP_filter]
    exact List.countP_congr fun c _ => by rw [Bool.and_comm]
  refine ⟨counted, fun single => List.nodup_iff_count_le_one.mpr fun cycle => ?_⟩
  by_cases member : cycle ∈ g.cycles
  · obtain ⟨source, target, -, count⟩ := counted cycle member
    rw [count]
    exact countP_joining single source target
  · rw [List.count_eq_zero_of_not_mem member]
    exact Nat.zero_le 1

/-- The cycle of the tangle is reported for each of the two connections that close it. -/
theorem cycles_counted_tangle : tangle.checkEndpoints = .ok () ∧ tangle.cycles.count ["a", "b", "a"] = 2 ∧
    ∃ source target, lastHop? ["a", "b", "a"] = some (source, target) ∧
      tangle.cycles.count ["a", "b", "a"] =
        tangle.connections.countP fun c => c.source == source && c.target == target := by
  have accepted : tangle.checkEndpoints = .ok () := rfl
  exact ⟨accepted, by decide, (cycles_counted accepted).1 _ (by decide)⟩

/-- A cycle is reported twice when two connections close it. -/
theorem reported_twice : ∃ g : Graph, g.checkEndpoints = .ok () ∧ ¬g.cycles.Nodup :=
  ⟨tangle, rfl, by decide⟩

end Graph

end BlockGraph
