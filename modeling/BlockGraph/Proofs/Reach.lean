import BlockGraph.Proofs.Lifecycle
/-!
Reach: the elements that a run starts. Nothing is started but the roots of the graph and the targets of
connections that were fired; and while a run is active each of them is started, or still waits to be
visited. When the traversal has come to its end nothing waits any longer.
-/
namespace BlockGraph

namespace Graph

/-- Whether all connections lead to elements of the graph. -/
def Joined (g : Graph) : Prop := ∀ c ∈ g.connections, ∃ e ∈ g.elements, e.id = c.target

/-- A check that a list passes is passed by each of its members. -/
theorem check_of_forM {α ε : Type} {check : α → Except ε Unit} {xs : List α}
    (h : xs.forM check = .ok ()) : ∀ x ∈ xs, check x = .ok () := by
  induction xs with
  | nil => exact fun _ member => (List.not_mem_nil member).elim
  | cons x rest ih =>
      have h : ((check x).bind fun _ => rest.forM check) = .ok () := h
      cases passed : check x with
      | error f =>
          rw [passed] at h
          cases h
      | ok u =>
          rw [passed] at h
          intro other member
          rcases List.mem_cons.mp member with rfl | old
          · exact passed
          · exact ih h other old

/-- In a graph that was accepted they do. -/
theorem joined_of_checkEndpoints {g : Graph} (h : g.checkEndpoints = .ok ()) : g.Joined := by
  intro c member
  have passed := check_of_forM h c member
  split at passed
  · cases passed
  · split at passed
    · cases passed
    · rename_i found
      rw [Bool.not_eq_true', Bool.not_eq_false] at found
      obtain ⟨e, here, same⟩ := List.any_eq_true.mp found
      exact ⟨e, here, beq_iff_eq.mp same⟩

theorem roots_elements (g : Graph) : ∀ id ∈ g.roots, ∃ e ∈ g.elements, e.id = id := by
  intro id member
  unfold roots at member
  split at member
  · rw [Option.mem_toList, Option.map_eq_some_iff] at member
    obtain ⟨e, first, same⟩ := member
    exact ⟨e, List.mem_of_mem_head? first, same⟩
  · rw [entryPoints, List.mem_map] at member
    obtain ⟨e, here, same⟩ := member
    exact ⟨e, (List.mem_filter.mp here).1, same⟩

theorem element?_of_mem {g : Graph} {id : String} (h : ∃ e ∈ g.elements, e.id = id) :
    g.element? id ≠ none := by
  obtain ⟨e, member, rfl⟩ := h
  intro none
  have other := List.find?_eq_none.mp none e member
  exact other (beq_self_eq_true e.id)

end Graph

/-- The emission that is made, and the element that makes it. -/
def Happening.emitted? : Happening → Option (String × Emission)
  | .emitted id e => some (id, e)
  | _ => none

namespace Session

/-- Whether a set of elements has all roots of the graph, and with the source of a connection that an
emission of this run has fired its target too. -/
structure Encloses (s : Session) (P : String → Prop) : Prop where
  roots : ∀ id ∈ s.graph.roots, P id
  fired : ∀ c ∈ s.graph.connections, ∀ e, P c.source → .emitted c.source e ∈ s.history →
    c.carries e.port = true → P c.target

/-- Whether no set that encloses the run leaves out an element that was started, or waits. -/
def Within (s : Session) (waiting : List String) : Prop :=
  ∀ P, s.Encloses P → ∀ id, id ∈ s.processed ∨ id ∈ waiting → P id

/-- Whether every root, and every target of a connection that was fired, was started or waits. -/
structure Covers (s : Session) (waiting : List String) : Prop where
  roots : ∀ id ∈ s.graph.roots, id ∈ s.processed ∨ id ∈ waiting
  fired : ∀ c ∈ s.graph.connections, ∀ e, .emitted c.source e ∈ s.history → c.carries e.port = true →
    c.target ∈ s.processed ∨ c.target ∈ waiting

/-- One session comes of another without an element being started or an emission being made. -/
structure Mute (s s' : Session) : Prop where
  graph : s'.graph = s.graph
  processed : s'.processed = s.processed
  emitted : ∀ id e, .emitted id e ∈ s'.history ↔ .emitted id e ∈ s.history

namespace Mute

theorem trans {s₁ s₂ s₃ : Session} (h : s₁.Mute s₂) (h' : s₂.Mute s₃) : s₁.Mute s₃ where
  graph := h'.graph.trans h.graph
  processed := h'.processed.trans h.processed
  emitted id e := (h'.emitted id e).trans (h.emitted id e)

theorem note (s : Session) {x : Happening} (quiet : x.emitted? = none) : s.Mute (s.note x) := by
  refine ⟨rfl, rfl, fun id e => ?_⟩
  rw [Session.note, List.mem_cons]
  refine or_iff_right fun same => ?_
  rw [← same] at quiet
  cases quiet

theorem hears (s : Session) (e : Event) : s.Mute (s.hears e) := by
  unfold Session.hears
  split <;> exact ⟨rfl, rfl, fun _ _ => .rfl⟩

theorem counted (s : Session) : s.Mute s.counted := by
  have counts : s.Mute { s with steps := s.steps + 1 } := ⟨rfl, rfl, fun _ _ => .rfl⟩
  exact counts.trans (note _ rfl)

theorem traversing (s : Session) (c : Connection) : s.Mute (s.traversing c) :=
  (note s (x := .traversed c.id) rfl).trans (hears _ _)

theorem completing (s : Session) (id : String) : s.Mute (s.completing id) :=
  (note s (x := .completed id) rfl).trans (hears _ _)

end Mute

end Session

theorem Kept.mute {s s' : Session} (h : Kept s s') : s.Mute s' :=
  ⟨h.graph, h.processed, fun id e => by rw [h.history]⟩

namespace Session

variable {s s' : Session} {waiting : List String} {id : String}

/-- What encloses a run encloses it as it was before. -/
theorem Encloses.earlier {P : String → Prop} (h : s'.Encloses P) (graph : s'.graph = s.graph)
    (emitted : ∀ id e, .emitted id e ∈ s.history → .emitted id e ∈ s'.history) : s.Encloses P where
  roots := graph ▸ h.roots
  fired c member e source emits :=
    h.fired c (graph ▸ member) e source (emitted c.source e emits)

namespace Within

theorem mute (h : s.Within waiting) (m : s.Mute s') : s'.Within waiting := by
  intro P encloses id here
  rw [m.processed] at here
  exact h P (encloses.earlier m.graph fun id e => (m.emitted id e).mpr) id here

/-- Nothing is started or waits that did not before. -/
theorem subset (h : s.Within waiting) {fewer : List String} (fewer_sub : fewer ⊆ waiting) :
    s.Within fewer := fun P encloses id here => h P encloses id (here.imp_right (@fewer_sub id))

/-- An element that waits is one of the graph. -/
theorem element (h : s.Within waiting) (joined : s.graph.Joined) (member : id ∈ waiting) :
    ∃ e ∈ s.graph.elements, e.id = id := by
  have encloses : s.Encloses fun id => ∃ e ∈ s.graph.elements, e.id = id :=
    ⟨s.graph.roots_elements, fun c here _ _ _ _ => joined c here⟩
  exact h _ encloses id (.inr member)

theorem starting (h : s.Within (id :: waiting)) : (s.starting id).Within waiting := by
  intro P encloses other here
  have before : s.Encloses P := by
    refine encloses.earlier (s.starting_graph id) fun other e member => ?_
    rw [starting_history]
    exact List.mem_cons_of_mem _ (List.mem_cons_of_mem _ member)
  refine h P before other ?_
  rw [starting_processed, List.mem_append, List.mem_singleton] at here
  rcases here with (old | new) | waits
  · exact .inl old
  · exact .inr (new ▸ List.mem_cons_self)
  · exact .inr (List.mem_cons_of_mem _ waits)

/-- The targets of connections that an element fires wait from then on. -/
theorem record (h : s.Within waiting) (started : id ∈ s.processed) (e : Emission) :
    (s.record id e).Within ((s.fired id e).map (·.target) ++ waiting) := by
  intro P encloses other here
  have before : s.Encloses P := encloses.earlier rfl fun _ _ => List.mem_cons_of_mem _
  rw [List.mem_append] at here
  rcases here with old | new | waits
  · exact h P before other (.inl old)
  · obtain ⟨c, fires, rfl⟩ := List.mem_map.mp new
    rw [fired, List.mem_filter, Graph.outgoing, List.mem_filter, beq_iff_eq] at fires
    obtain ⟨⟨member, rfl⟩, carries⟩ := fires
    exact encloses.fired c member e (h P before c.source (.inl started)) List.mem_cons_self carries
  · exact h P before other (.inr waits)

end Within

namespace Covers

theorem mute (h : s.Covers waiting) (m : s.Mute s') : s'.Covers waiting where
  roots := by rw [m.graph, m.processed]; exact h.roots
  fired c member e emits := by
    rw [m.graph] at member
    rw [m.processed]
    exact h.fired c member e ((m.emitted _ e).mp emits)

/-- An element that was started need not wait. -/
theorem drop (h : s.Covers (id :: waiting)) (started : id ∈ s.processed) : s.Covers waiting := by
  have keep : ∀ other, other ∈ s.processed ∨ other ∈ id :: waiting →
      other ∈ s.processed ∨ other ∈ waiting := by
    intro other here
    rcases here with old | waits
    · exact .inl old
    · rcases List.mem_cons.mp waits with rfl | rest
      · exact .inl started
      · exact .inr rest
  exact ⟨fun id root => keep _ (h.roots id root),
    fun c member e emits carries => keep _ (h.fired c member e emits carries)⟩

theorem starting (h : s.Covers (id :: waiting)) : (s.starting id).Covers waiting := by
  have added : Covers { s.counted with processed := s.counted.processed ++ [id] } (id :: waiting) := by
    have counted := h.mute (.counted s)
    exact ⟨fun other root => (counted.roots other root).imp_left (List.mem_append_left _),
      fun c member e emits carries =>
        (counted.fired c member e emits carries).imp_left (List.mem_append_left _)⟩
  have kept := added.drop (List.mem_append_right _ (List.mem_singleton.mpr rfl))
  have noted := kept.mute (.note _ (x := .started id) rfl)
  exact (noted.mute (.hears _ (.start id))).mute ⟨rfl, rfl, fun _ _ => .rfl⟩

theorem record (h : s.Covers waiting) (id : String) (e : Emission) :
    (s.record id e).Covers ((s.fired id e).map (·.target) ++ waiting) where
  roots other root := (h.roots other root).imp_right (List.mem_append_right _)
  fired c member other emits carries := by
    rcases List.mem_cons.mp emits with new | old
    · cases new
      have outgoing : c ∈ s.graph.outgoing c.source :=
        List.mem_filter.mpr ⟨member, beq_self_eq_true _⟩
      have fires : c ∈ s.fired c.source e := List.mem_filter.mpr ⟨outgoing, carries⟩
      exact .inr (List.mem_append_left _ (List.mem_map_of_mem fires))
    · exact (h.fired c member other old carries).imp_right (List.mem_append_right _)

/-- When nothing waits, the elements that were started enclose the run. -/
theorem encloses (h : s.Covers []) : s.Encloses (· ∈ s.processed) where
  roots id root := (h.roots id root).resolve_right List.not_mem_nil
  fired c member e _ emits carries := (h.fired c member e emits carries).resolve_right List.not_mem_nil

end Covers

end Session

/-! ### What waits at every stage -/

/-- The elements that wait to be visited: targets of connections that were fired, and entry points. -/
def Traversal.waiting (t : Traversal) : List String :=
  t.stack.flatMap (fun frame => frame.pending.map (·.target)) ++ t.entries

/-- The elements that wait at a stage. Once a traversal is being torn down nothing waits. -/
def Stage.waiting (g : Graph) : Stage → List String
  | .opening => g.roots
  | .walking t | .awaiting t _ _ | .delaying t _ => t.waiting
  | .unwinding _ _ | .closing _ _ _ _ | .over _ => []

/-- Whether a traversal goes on, or has come to its end by itself. -/
def Stage.Whole (st : Stage) : Prop := ∀ e, st.ending? = some e → e = .normal

theorem Stage.whole_of_going {st : Stage} (going : st.ending? = none) : st.Whole := by
  intro e same
  rw [going] at same
  cases same

/-- The invariant of runs: nothing was started or waits that need not, and while the run is active all
that need be was started or waits. -/
structure Stage.Reaching (s : Session) (st : Stage) : Prop where
  joined : s.graph.Joined
  within : s.Within (st.waiting s.graph)
  covers : s.active = true → st.Whole → s.Covers (st.waiting s.graph)

theorem Stage.ending_waiting {g : Graph} {st : Stage} {e : WalkEnd} (ending : st.ending? = some e) :
    st.waiting g = [] := by
  cases st with
  | unwinding t e' | closing t p insists? e' | «over» e' => rfl
  | _ => cases ending

theorem Stage.Reaching.kept {s s' : Session} {st : Stage} (h : st.Reaching s) (k : Kept s s') :
    st.Reaching s' := by
  refine ⟨k.graph ▸ h.joined, ?_, fun active whole => ?_⟩
  · rw [k.graph]
    exact h.within.mute k.mute
  · rw [k.graph]
    exact (h.covers (k.active active) whole).mute k.mute

namespace Traversal

variable {t : Traversal} {s s' : Session} {id : String} {m : Move}

theorem walking_reaching (joined : s.graph.Joined) (within : s.Within t.waiting)
    (covers : s.active = true → s.Covers t.waiting) : (Stage.walking t).Reaching s :=
  ⟨joined, within, fun active _ => covers active⟩

theorem fail_reaching (t : Traversal) (f : RunFault) {waiting : List String} (joined : s.graph.Joined)
    (within : s.Within waiting) :
    (Stage.settle (.fail f t, s)).1.Reaching (Stage.settle (.fail f t, s)).2 := by
  refine ⟨joined, (within.mute (.note s (x := .failed f) rfl)).subset (List.nil_subset _),
    fun _ whole => ?_⟩
  cases whole _ rfl

theorem waiting_cons {frame : Frame} {outer : List Frame} (stack : t.stack = frame :: outer) :
    t.waiting = frame.pending.map (·.target) ++ Traversal.waiting { t with stack := outer } := by
  rw [waiting, stack, List.flatMap_cons, List.append_assoc]
  rfl

/-- Where the emissions of an element come from says nothing of what waits. -/
theorem waiting_source {frame : Frame} {outer : List Frame} (stack : t.stack = frame :: outer)
    (source : Source) :
    Traversal.waiting { t with stack := { frame with source } :: outer } = t.waiting := by
  rw [waiting, waiting, stack, List.flatMap_cons, List.flatMap_cons]

/-- With nothing left to fire, the innermost element keeps nothing waiting. -/
theorem waiting_rest {frame : Frame} {outer : List Frame} (stack : t.stack = frame :: outer)
    (rest : frame.pending = []) : t.waiting = Traversal.waiting { t with stack := outer } := by
  rw [waiting_cons stack, rest, List.map_nil, List.nil_append]

/-- An element is over, between deeds. -/
theorem completed_reaching {s₁ : Session} (before : Deeds s s₁) (after : Deeds (s₁.completing id) s')
    (started : s'.started = true) (h : (Stage.walking t).Reaching s) : (Stage.walking t).Reaching s' := by
  have kept' := after.kept_of_started started
  have kept := before.kept_of_started
    ((s₁.completing_runsOn id).began (kept'.started.symm.trans started))
  have here := h.kept kept
  have active : (s₁.completing id).active = true → s₁.active = true := by
    unfold Session.completing Session.hears
    split <;> exact fun active => active
  have mute := Session.Mute.completing s₁ id
  have ceased : (Stage.walking t).Reaching (s₁.completing id) :=
    walking_reaching (mute.graph ▸ here.joined) (here.within.mute mute) fun on =>
      (here.covers (active on) (Stage.whole_of_going rfl)).mute mute
  exact ceased.kept kept'

theorem Visited.reaching (h : t.Visited s id m s') (joined : s.graph.Joined)
    (within : s.Within (id :: t.waiting)) (covers : s.active = true → s.Covers (id :: t.waiting)) :
    (Stage.settle (m, s')).1.Reaching (Stage.settle (m, s')).2 := by
  have counted : s.counted.Within (id :: t.waiting) := within.mute (.counted s)
  cases h with
  | skipped idle _ =>
      refine walking_reaching joined (counted.subset (List.subset_cons_self _ _)) fun active => ?_
      have active : s.active = true := active
      have started : id ∈ s.processed := by
        rcases idle with off | started | none
        · rw [off] at active
          cases active
        · exact started
        · exact absurd none (Graph.element?_of_mem (within.element joined List.mem_cons_self))
      exact ((covers active).drop started).mute (.counted s)
  | overBudget _ _ => exact fail_reaching t _ joined counted
  | unknown type _ _ => exact fail_reaching t _ joined counted
  | failed f _ kept =>
      have graph := kept.graph.trans (s.starting_graph id)
      exact fail_reaching t _ (graph ▸ joined) (within.starting.mute kept.mute)
  | started frame starts kept _ rest _ =>
      have graph := kept.graph.trans (s.starting_graph id)
      have same : Traversal.waiting { t with stack := frame :: t.stack } = t.waiting :=
        waiting_rest rfl rest
      refine walking_reaching (graph ▸ joined) ?_ fun _ => ?_
      · rw [same]
        exact within.starting.mute kept.mute
      · rw [same]
        exact (covers starts.active).starting.mute kept.mute

theorem Moved.reaching (h : t.Moved s m s') (started : s'.started = true)
    (underway : ∀ frame ∈ t.stack, frame.element.id ∈ s.processed) (joined : s.graph.Joined)
    (within : s.Within t.waiting) (covers : s.active = true → s.Covers t.waiting) :
    (Stage.settle (m, s')).1.Reaching (Stage.settle (m, s')).2 := by
  have here : (Stage.walking t).Reaching s := walking_reaching joined within covers
  cases h with
  | finished stack done =>
      refine ⟨joined, within.subset (List.nil_subset _), fun active _ => ?_⟩
      have entries : t.entries = [] := by
        rcases done with none | off
        · exact none
        · have active : s.active = true := active
          rw [off] at active
          cases active
      have none : t.waiting = [] := by rw [waiting, stack, entries]; rfl
      have covers := covers active
      rwa [none] at covers
  | entered id rest stack entries active visited =>
      have same : t.waiting = id :: Traversal.waiting { t with entries := rest } := by
        rw [waiting, waiting, stack, entries]
        rfl
      rw [same] at within covers
      have mute : s.Mute (s.note (.entered id)) := .note s rfl
      exact visited.reaching joined (within.mute mute) fun _ => (covers active).mute mute
  | traversed frame outer c rest stack pending active kept visited =>
      have same : t.waiting =
          c.target :: Traversal.waiting { t with stack := { frame with pending := rest } :: outer } := by
        rw [waiting_cons stack, pending, waiting, waiting, List.flatMap_cons, List.append_assoc]
        rfl
      rw [same] at within covers
      have mute := (Session.Mute.traversing s c).trans kept.mute
      exact visited.reaching (mute.graph ▸ joined) (within.mute mute) fun _ => (covers active).mute mute
  | cleared frame outer stack off =>
      refine walking_reaching joined ?_ fun active => ?_
      · rw [waiting_cons stack] at within
        rw [waiting_rest rfl rfl]
        exact within.subset (List.subset_append_right _ _)
      · have active : s.active = true := active
        rw [off] at active
        cases active
  | waited frame outer p stack rest _ =>
      have same := waiting_source stack .busy
      refine ⟨joined, ?_, fun active _ => ?_⟩
      · show s.Within (Traversal.waiting _)
        rw [same]
        exact within
      · show s.Covers (Traversal.waiting _)
        rw [same]
        exact covers active
  | went frame outer source stack rest deeds _ =>
      have same := waiting_source stack source
      have there : (Stage.walking { t with stack := { frame with source } :: outer }).Reaching s :=
        walking_reaching joined (same.symm ▸ within) (same.symm ▸ covers)
      exact there.kept (deeds.kept_of_started started)
  | @recorded frame outer source e s₁ stack rest deeds _ =>
      have kept := deeds.kept_of_started started
      have member : frame.element.id ∈ s₁.processed := by
        rw [kept.processed]
        exact underway frame (stack ▸ List.mem_cons_self)
      have same : Traversal.waiting
          { t with stack := { frame with source, pending := s₁.fired frame.element.id e } :: outer } =
          (s₁.fired frame.element.id e).map (·.target) ++ t.waiting := by
        rw [waiting_rest stack rest, waiting_cons rfl]
      have there := here.kept kept
      refine walking_reaching there.joined ?_ fun active => ?_
      · rw [same]
        exact there.within.record member e
      · rw [same]
        exact (there.covers active (Stage.whole_of_going rfl)).record _ e
  | ended frame outer stack rest before after =>
      rw [waiting_rest stack rest] at within covers
      exact completed_reaching before after started (walking_reaching joined within covers)
  | delayed frame outer stack rest deeds _ =>
      rw [waiting_rest stack rest] at within covers
      have there : (Stage.delaying { t with stack := outer } frame.element.id).Reaching s :=
        ⟨joined, within, fun active _ => covers active⟩
      exact there.kept (deeds.kept_of_started started)
  | failed f t' deeds _ _ =>
      have kept := deeds.kept_of_started started
      exact fail_reaching t' f (kept.graph ▸ joined) (within.mute kept.mute)

end Traversal

theorem Session.Fresh.reaching {s : Session} (h : s.Fresh) (joined : s.graph.Joined) :
    Stage.opening.Reaching s := by
  refine ⟨joined, fun P encloses id here => ?_, fun _ _ => ⟨fun _ root => .inr root, fun c _ e emits => ?_⟩⟩
  · rw [h.processed] at here
    rcases here with old | root
    · exact (List.not_mem_nil old).elim
    · exact encloses.roots id root
  · rw [h.history] at emits
    exact (List.not_mem_nil emits).elim

theorem reach_law {g : Graph} (joined : g.Joined) :
    Law g fun s st => st.Lifecycle s ∧ st.Reaching s where
  begun fresh graph := ⟨(lifecycle_law g).begun fresh graph, fresh.reaching (graph ▸ joined)⟩
  kept kept h := ⟨(lifecycle_law g).kept kept h.1, h.2.kept kept⟩
  closed := by
    intro s st ⟨lifecycle, reaching⟩
    refine ⟨(lifecycle_law g).closed lifecycle, reaching.joined, ?_, fun active => ?_⟩
    · exact reaching.within.mute ⟨rfl, rfl, fun _ _ => .rfl⟩
    · have off : s.closed.active = false := rfl
      rw [off] at active
      cases active
  goes := by
    intro s s' st st' stored goes started ⟨lifecycle, reaching⟩
    refine ⟨(lifecycle_law g).goes stored goes started lifecycle, ?_⟩
    have underway : ∀ {t : Traversal}, st.underway? = some t.underway →
        ∀ frame ∈ t.stack, frame.element.id ∈ s.processed := by
      intro t same frame member
      obtain ⟨_, ids, tidy, known⟩ := lifecycle
      rw [known _ same] at tidy
      exact tidy.started (List.mem_map_of_mem member)
    cases goes with
    | opened deeds =>
        have kept := deeds.kept_of_started started
        have there := reaching.kept kept
        have same : Stage.waiting s'.graph (.walking ⟨s.graph.roots, []⟩) =
            Stage.waiting s'.graph .opening := by
          rw [kept.graph]
          rfl
        refine ⟨there.joined, ?_, fun active _ => ?_⟩
        · rw [same]
          exact there.within
        · rw [same]
          exact there.covers active (Stage.whole_of_going rfl)
    | barred e deeds fails _ =>
        have there := reaching.kept (deeds.kept_of_started started)
        exact ⟨there.joined, there.within.subset (List.nil_subset _), fun _ whole =>
          absurd (whole e rfl) fails⟩
    | moved h =>
        exact h.reaching ((Stage.settle_runsOn _ _).began started) (underway rfl) reaching.joined
          reaching.within fun active => reaching.covers active (Stage.whole_of_going rfl)
    | answered h =>
        exact h.reaching ((Stage.settle_runsOn _ _).began started) (underway rfl) reaching.joined
          reaching.within fun active => reaching.covers active (Stage.whole_of_going rfl)
    | worked deeds _ =>
        have there := reaching.kept (deeds.kept_of_started started)
        exact ⟨there.joined, there.within, fun active _ => there.covers active (Stage.whole_of_going rfl)⟩
    | delayed before after =>
        have there := Traversal.walking_reaching reaching.joined reaching.within fun active =>
          reaching.covers active (Stage.whole_of_going rfl)
        exact Traversal.completed_reaching before after started there
    | @torn _ _ e _ ending deeds still _ =>
        have there := reaching.kept (deeds.kept_of_started started)
        have before : st.waiting s'.graph = [] := Stage.ending_waiting ending
        have after : st'.waiting s'.graph = [] := by
          rcases still with on | on <;> exact Stage.ending_waiting on
        refine ⟨there.joined, ?_, fun active whole => ?_⟩
        · rw [after, ← before]
          exact there.within
        · have normal : e = .normal := by
            rcases still with on | cancelled
            · exact whole e on
            · cases whole _ cancelled
          rw [after, ← before]
          refine there.covers active fun other same => ?_
          rw [ending] at same
          rw [← Option.some.inj same]
          exact normal
    | cancelled _ =>
        refine ⟨reaching.joined, reaching.within.subset (List.nil_subset _), fun _ whole => ?_⟩
        cases whole _ rfl

/-! ### Every run -/

/-- Whatever callers do, in every world that comes of it every set that encloses a run of an accepted
graph has all elements that the run has started. When a run is completed, these elements enclose it
themselves: they are the least set that does. -/
theorem run_reaches {α : Type} {graph : Graph} {registry : Registry} {draws : List Double}
    {commands : List (Command α)} (accepted : graph.checkEndpoints = .ok ())
    (proper : ∀ x ∈ commands, x.Proper) {w : World α}
    (steps : (World.ofCommands (Session.ofGraph graph registry draws) commands).Leads w) :
    (w.session.started = true → ∀ P, w.session.Encloses P → ∀ id ∈ w.session.processed, P id) ∧
      ∀ e, w.Ended e →
        (e.session.started = true → ∀ P, e.session.Encloses P → ∀ id ∈ e.session.processed, P id) ∧
        (e.outcome = .finished → e.session.status = .completed →
          e.session.Encloses (· ∈ e.session.processed)) := by
  have law := reach_law (Graph.joined_of_checkEndpoints accepted)
  obtain ⟨⟨_, here⟩, ended⟩ := law.everywhere proper steps
  refine ⟨fun started P encloses id member => ?_, fun e ceased => ⟨fun started P encloses id member => ?_,
    fun finished done => ?_⟩⟩
  · obtain ⟨st, _, reaching⟩ := here started
    exact reaching.within P encloses id (.inl member)
  · obtain ⟨_, ends⟩ := ended e ceased
    obtain ⟨_, here, _⟩ := law.after ends
    obtain ⟨st, _, reaching⟩ := here started
    exact reaching.within P encloses id (.inl member)
  · obtain ⟨_, ends⟩ := ended e ceased
    cases ends with
    | refused st refusal _ =>
        rw [finished] at refusal
        cases refusal
    | concluded s s' st running started here how same =>
        have done : s'.status = .completed := by rwa [same] at done
        obtain ⟨rfl, _, unstopped⟩ := how.completed running done
        have active : s.active = true := by rw [Session.active, running, unstopped]; rfl
        have whole : (Stage.over .normal).Whole := fun e on => (Option.some.inj on).symm
        have covers := (here.2.covers active whole).mute (how.kept running).mute
        have encloses := covers.encloses
        have closing : s'.closed.Encloses (· ∈ s'.closed.processed) :=
          ⟨encloses.roots, encloses.fired⟩
        rwa [same]

/-- The run of the two elements reaches the second by what the first emits. -/
theorem run_reaches_pair : Graph.pair.checkEndpoints = .ok () ∧ ∃ e, (World.run 50 .pair).Ended e ∧
    e.session.Encloses (· ∈ e.session.processed) ∧
    ∀ P, e.session.Encloses P → ∀ id ∈ e.session.processed, P id := by
  obtain ⟨e, ended, completes⟩ := World.ended_of_tells World.pair_completes
  obtain ⟨finished, started, completed⟩ := Execution.of_completes completes
  obtain ⟨within, encloses⟩ :=
    (run_reaches rfl Request.plain_proper (World.leads_run 50 World.pair)).2 e ended
  exact ⟨rfl, e, ended, encloses finished completed, within started⟩

end BlockGraph
