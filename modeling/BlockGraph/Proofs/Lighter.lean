import BlockGraph.Proofs.Weight
/-!
Moves and weights: a move in which no element is started, and no logic hands over an item, leaves a
traversal lighter.
-/
namespace BlockGraph

namespace Stage

/-- The logic that is asked to go on in the next move, and the element that it is of. -/
def works? : Stage → Option (String × Process)
  | .walking ⟨_, ⟨e, .gathering p _, []⟩ :: _⟩ | .walking ⟨_, ⟨e, .sequence p, []⟩ :: _⟩ =>
    some (e.id, p)
  | .awaiting ⟨_, frame :: _⟩ a _ => match a.mode with
    | .over _ => none
    | _ => some (frame.element.id, a.process)
  | _ => none

theorem works?_awaiting {a : Attempt} (alive : ∀ y, a.mode ≠ .over y) {entries : List String}
    {frame : Frame} {outer : List Frame} (given? : Option Bool) :
    (awaiting ⟨entries, frame :: outer⟩ a given?).works? = some (frame.element.id, a.process) := by
  obtain ⟨p, collected?, mode⟩ := a
  cases mode with
  | «over» y => exact absurd rfl (alive y)
  | _ => rfl

/-- Logic that goes on is that of the innermost element. -/
theorem works?_underway {st : Stage} {id : String} {p : Process} (works : st.works? = some (id, p)) :
    ∃ outer, st.underway? = some (id :: outer) := by
  unfold works? at works
  split at works
  · cases works
    exact ⟨_, rfl⟩
  · cases works
    exact ⟨_, rfl⟩
  · split at works
    · cases works
    · cases works
      exact ⟨_, rfl⟩
  · cases works

/-- Whether the logic of an element hands over an item in the next move. -/
def Hands (st : Stage) (s : Session) (id : String) : Prop :=
  ∃ p v, st.works? = some (id, p) ∧ (p.resume s).1 = .item v

/-- No item is handed over by logic that goes on. -/
theorem withheld {st : Stage} {s : Session} {id : String} {p : Process} (idle : ∀ id, ¬st.Hands s id)
    (works : st.works? = some (id, p)) (v : Value) : (p.resume s).1 ≠ .item v :=
  fun hands => idle id ⟨p, v, works, hands⟩

end Stage

namespace Traversal

variable {entries : List String} {frame : Frame} {outer : List Frame} {s s' : Session} {g : Graph}
  {t : Traversal} {m : Move} {id : String}

/-! ### What is left after each move -/

theorem complete_bound (t : Traversal) (s : Session) (id : String) (g : Graph) :
    (Stage.settle (complete t s id)).1.news = t.news ∧
      (Stage.settle (complete t s id)).1.weight g ≤ t.weight g.connections.length + 3 := by
  unfold complete
  split
  · exact ⟨rfl, Nat.le_succ _⟩
  · exact ⟨rfl, Nat.le_refl _⟩

theorem fail_bound (entries : List String) (frame : Frame) (outer : List Frame) (f : RunFault) (s : Session)
    (g : Graph) :
    (Stage.settle (.fail f ⟨entries, frame :: outer⟩, s)).1.news =
        frame.source.news + news ⟨entries, outer⟩ ∧
      (Stage.settle (.fail f ⟨entries, frame :: outer⟩, s)).1.weight g ≤
        weight g.connections.length ⟨entries, outer⟩ + frame.source.toClose + 3 := by
  refine ⟨rfl, ?_⟩
  have outer := toClose_le g.connections.length ⟨entries, outer⟩
  show toClose _ + 1 ≤ _
  rw [toClose_cons]
  omega

theorem endWith_bound (entries : List String) (frame : Frame) (outer : List Frame) (s : Session) (e : Ending)
    (g : Graph) :
    (Stage.settle (endWith ⟨entries, frame :: outer⟩ s e)).1.news ≤
        frame.source.news + news ⟨entries, outer⟩ ∧
      (Stage.settle (endWith ⟨entries, frame :: outer⟩ s e)).1.weight g ≤
        weight g.connections.length ⟨entries, outer⟩ + frame.source.toClose + 3 := by
  have ceased := complete_bound ⟨entries, outer⟩ s frame.element.id g
  have over_ : ∀ r : Move × Session, (Stage.settle r).1.news = news ⟨entries, outer⟩ ∧
      (Stage.settle r).1.weight g ≤ weight g.connections.length ⟨entries, outer⟩ + 3 →
      (Stage.settle r).1.news ≤ frame.source.news + news ⟨entries, outer⟩ ∧
        (Stage.settle r).1.weight g ≤
          weight g.connections.length ⟨entries, outer⟩ + frame.source.toClose + 3 := by
    intro r ⟨same, less⟩
    omega
  unfold endWith
  cases e with
  | fault f =>
      simp only
      split <;> exact ⟨Nat.le_of_eq (fail_bound _ _ _ _ _ g).1, (fail_bound _ _ _ _ _ g).2⟩
  | _ => exact over_ _ ceased

theorem fired_le (s : Session) (id : String) (e : Emission) :
    (s.fired id e).length ≤ s.graph.connections.length :=
  Nat.le_trans (List.length_filter_le _ _) (List.length_filter_le _ _)

theorem accept_bound (entries : List String) (frame : Frame) (outer : List Frame) (s : Session)
    (item : Value) :
    (Stage.settle (accept ⟨entries, frame :: outer⟩ s item)).1.news =
        frame.source.news + news ⟨entries, outer⟩ ∧
      (Stage.settle (accept ⟨entries, frame :: outer⟩ s item)).1.weight s.graph ≤
        weight s.graph.connections.length ⟨entries, outer⟩ +
          frame.source.weight s.graph.connections.length + s.graph.connections.length + 6 := by
  have closes := frame.source.toClose_le s.graph.connections.length
  unfold accept
  simp only
  cases Emission.ofItem item with
  | error f =>
      obtain ⟨same, less⟩ := fail_bound entries frame outer (s.blockFailed frame.element f).1
        (s.blockFailed frame.element f).2 s.graph
      exact ⟨same, Nat.le_trans less (by omega)⟩
  | ok e =>
      have fires := fired_le s frame.element.id e
      refine ⟨rfl, ?_⟩
      show weight _ _ + 2 ≤ _
      rw [weight_cons]
      dsimp only
      omega

/-! ### Each move leaves less -/

/-- A visit that starts no element leaves the traversal as it is, or fails. -/
theorem Visited.still (h : t.Visited s id m s') (same : s'.processed = s.processed) :
    m = .go t ∨ ∃ f, m = .fail f t := by
  have grown : Kept (s.starting id) s' → False := by
    intro kept
    have length := congrArg List.length (kept.processed.symm.trans same)
    rw [Session.starting_processed, List.length_append, List.length_singleton] at length
    omega
  cases h with
  | skipped _ _ => exact .inl rfl
  | started frame _ kept _ _ _ => exact (grown kept).elim
  | _ => exact .inr ⟨_, rfl⟩

/-- A visit that starts no element costs what led to it. -/
theorem Visited.lighter {t₀ : Traversal} (h : t.Visited s id m s') (same : s'.processed = s.processed)
    (news : t.news ≤ t₀.news) (less : t.weight g.connections.length < t₀.weight g.connections.length) :
    (Stage.settle (m, s')).1.Lighter g (.walking t₀) := by
  right
  rcases h.still same with rfl | ⟨f, rfl⟩
  · exact ⟨news, Nat.add_lt_add_right less 2⟩
  · have closes := t.toClose_le g.connections.length
    refine ⟨news, ?_⟩
    show t.toClose + 1 < t₀.weight _ + 2
    omega

/-- Immediate logic goes on. -/
theorem gather_lighter {e : Element} {p : Process} {collected : List Value}
    (idle : ∀ v, (p.resume s).1 ≠ .item v) :
    (Stage.settle (gather ⟨entries, ⟨e, .gathering p collected, []⟩ :: outer⟩ s
      ⟨e, .gathering p collected, []⟩ p collected)).1.Lighter g
      (.walking ⟨entries, ⟨e, .gathering p collected, []⟩ :: outer⟩) := by
  have eases := p.resume_eases s
  have closes := toClose_le g.connections.length ⟨entries, outer⟩
  unfold gather
  cases resumed : p.resume s with
  | mk pause rest =>
      obtain ⟨q, s₁⟩ := rest
      rw [resumed] at eases idle
      unfold Stage.Lighter
      cases pause with
      | item v => exact absurd rfl (idle v)
      | sleep length insists =>
          show q.news + _ < p.news + _ ∨ q.news + _ ≤ p.news + _ ∧ _
          rcases eases with old | ⟨old, less⟩
          · exact .inl (Nat.add_lt_add_right old _)
          · have less : q.left < p.left := less
            refine .inr ⟨Nat.add_le_add_right old _, ?_⟩
            show weight _ _ + 2 < weight _ _ + 2
            rw [withSource, weight_cons, weight_cons]
            simp only [Source.weight]
            omega
      | ended how =>
          have over_ : ∀ st' : Stage, st'.news = news ⟨entries, outer⟩ →
              st'.weight g ≤ weight g.connections.length ⟨entries, outer⟩ +
                collected.length * (g.connections.length + 1) + 6 →
              st'.news < p.news + news ⟨entries, outer⟩ ∨ st'.news ≤ p.news + news ⟨entries, outer⟩ ∧
                st'.weight g < (Stage.walking ⟨entries, ⟨e, .gathering p collected, []⟩ :: outer⟩).weight g := by
            intro st' same less
            refine .inr ⟨by omega, Nat.lt_of_le_of_lt less ?_⟩
            show _ < weight _ _ + 2
            rw [weight_cons]
            simp only [Source.weight]
            omega
          cases how with
          | fault f =>
              refine over_ _ rfl ?_
              show toClose ⟨entries, outer⟩ + 1 ≤ _
              omega
          | _ =>
              refine over_ _ (Nat.zero_add _) ?_
              show weight _ _ + 2 ≤ _
              rw [withSource, weight_cons]
              simp only [Source.weight, List.length_reverse, List.length_nil]
              omega

/-- The innermost element goes on. -/
theorem advance_lighter {e : Element} {source : Source}
    (idle : ∀ id, ¬(Stage.walking ⟨entries, ⟨e, source, []⟩ :: outer⟩).Hands s id) :
    (Stage.settle (advance ⟨entries, ⟨e, source, []⟩ :: outer⟩ s ⟨e, source, []⟩)).1.Lighter s.graph
      (.walking ⟨entries, ⟨e, source, []⟩ :: outer⟩) := by
  have weighs : ∀ source : Source, (Stage.walking ⟨entries, ⟨e, source, []⟩ :: outer⟩).weight s.graph =
      weight s.graph.connections.length ⟨entries, outer⟩ +
        source.weight s.graph.connections.length + 6 := by
    intro source
    show weight _ _ + 2 = _
    rw [weight_cons, List.length_nil]
    dsimp only
    omega
  have waits : ∀ p : Process, source.news = p.news →
      source.weight s.graph.connections.length = p.left + 3 →
      (Stage.awaiting ⟨entries, ⟨e, .busy, []⟩ :: outer⟩ (.ofProcess p) none).Lighter s.graph
        (.walking ⟨entries, ⟨e, source, []⟩ :: outer⟩) := by
    intro p same left
    refine .inr ⟨?_, ?_⟩
    · show Source.news .busy + _ + p.news ≤ source.news + _
      rw [same]
      show 0 + _ + _ ≤ _
      omega
    · have begins : (Attempt.ofProcess p).weight s.graph.connections.length = p.left + 2 := by
        unfold Attempt.ofProcess
        simp only [Attempt.weight]
        split
        · split <;> simp
        · simp
      rw [weighs, left]
      show weight _ _ + _ + 2 < _
      rw [weight_cons, begins, List.length_nil]
      simp only [Source.weight]
      omega
  cases source with
  | gathering p collected => exact gather_lighter (Stage.withheld idle rfl)
  | items vs =>
      cases vs with
      | nil =>
          obtain ⟨old, less⟩ := endWith_bound entries ⟨e, .items [], []⟩ outer s .normal s.graph
          refine .inr ⟨old, ?_⟩
          rw [weighs]
          exact Nat.lt_of_le_of_lt less (by simp only [Source.toClose, Source.weight]; omega)
      | cons v rest =>
          obtain ⟨old, less⟩ := accept_bound entries ⟨e, .items rest, []⟩ outer s v
          refine .inr ⟨Nat.le_of_eq old, ?_⟩
          rw [weighs]
          refine Nat.lt_of_le_of_lt less ?_
          simp only [Source.weight, List.length_cons, Nat.add_mul]
          omega
  | sequence p =>
      have eases := p.resume_eases s
      have idle : ∀ v, (p.resume s).1 ≠ .item v := Stage.withheld idle rfl
      unfold advance
      simp only
      cases resumed : p.resume s with
      | mk pause rest =>
          obtain ⟨q, s₁⟩ := rest
          rw [resumed] at eases idle
          cases pause with
          | item v => exact absurd rfl (idle v)
          | sleep length insists =>
              rcases eases with old | ⟨old, less⟩
              · exact .inl (Nat.add_lt_add_right (show (Source.sequence q).news < _ from old) _)
              · have less : q.left < p.left := less
                refine .inr ⟨Nat.add_le_add_right (show (Source.sequence q).news ≤ _ from old) _, ?_⟩
                rw [weighs]
                refine Nat.lt_of_le_of_lt (Nat.le_of_eq (weighs (.sequence q))) ?_
                simp only [Source.weight]
                omega
          | ended how =>
              obtain ⟨same, bound⟩ := endWith_bound entries ⟨e, .sequence q, []⟩ outer s₁ how s.graph
              rcases eases with old | ⟨old, less⟩
              · exact .inl (Nat.lt_of_le_of_lt same
                  (Nat.add_lt_add_right (show (Source.sequence q).news < _ from old) _))
              · have less : q.left ≤ p.left := less
                refine .inr ⟨Nat.le_trans same
                  (Nat.add_le_add_right (show (Source.sequence q).news ≤ _ from old) _), ?_⟩
                rw [weighs]
                refine Nat.lt_of_le_of_lt bound ?_
                simp only [Source.weight, Source.toClose]
                omega
  | stream p => exact waits p rfl rfl
  | deferred p => exact waits p rfl rfl
  | busy =>
      obtain ⟨old, less⟩ := endWith_bound entries ⟨e, .busy, []⟩ outer s .normal s.graph
      refine .inr ⟨old, ?_⟩
      rw [weighs]
      exact Nat.lt_of_le_of_lt less (by simp only [Source.toClose, Source.weight]; omega)

/-- One step. -/
theorem step_lighter (stored : 0 < s.stores.size) (still : (t.step s).2.processed = s.processed)
    (idle : ∀ id, ¬(Stage.walking t).Hands s id) :
    (Stage.settle (t.step s)).1.Lighter s.graph (.walking t) := by
  obtain ⟨entries, stack⟩ := t
  unfold step at still ⊢
  cases stack with
  | nil =>
      have ceased : ∀ entries, (Stage.settle (.finished, s)).1.Lighter s.graph
          (.walking ⟨entries, []⟩) := fun entries =>
        .inr ⟨Nat.le_refl _, Nat.succ_lt_succ (Nat.succ_pos _)⟩
      cases entries with
      | nil => exact ceased []
      | cons id rest =>
          cases on : s.active with
          | false => exact ceased (id :: rest)
          | true =>
              simp only [on, if_true] at still ⊢
              have visited := visit_visited ⟨rest, []⟩ (s := s.note (.entered id)) stored id
              exact visited.lighter still (Nat.le_refl _) (Nat.lt_succ_self _)
  | cons frame outer =>
      obtain ⟨e, source, pending⟩ := frame
      cases pending with
      | nil => exact advance_lighter idle
      | cons c rest =>
          have fewer : ∀ pending : List Connection, pending.length ≤ rest.length →
              weight s.graph.connections.length ⟨entries, ⟨e, source, pending⟩ :: outer⟩ <
                weight s.graph.connections.length ⟨entries, ⟨e, source, c :: rest⟩ :: outer⟩ := by
            intro pending fewer
            rw [weight_cons, weight_cons, List.length_cons]
            dsimp only
            omega
          cases on : s.active with
          | false =>
              exact .inr ⟨Nat.le_refl _, Nat.add_lt_add_right (fewer [] (Nat.zero_le _)) 2⟩
          | true =>
              have running : (s.traversing c).running = true := by
                simp only [Session.active, Bool.and_eq_true] at on
                unfold Session.traversing Session.hears
                split <;> exact on.1
              have kept := (Session.notify_deeds (s.note (.traversed c.id))
                (.traverse c.id)).kept_of_running running
              have same : ((s.note (.traversed c.id)).notify (.traverse c.id)).processed =
                  s.processed := kept.processed.trans (Session.hears_processed _)
              have stored : 0 < ((s.note (.traversed c.id)).notify (.traverse c.id)).stores.size := by
                rw [kept.size, Session.hears_size]
                exact stored
              simp only [on, if_true] at still ⊢
              have visited := visit_visited ⟨entries, ⟨e, source, rest⟩ :: outer⟩ stored c.target
              exact visited.lighter (still.trans same.symm) (Nat.le_refl _) (fewer rest (Nat.le_refl _))

end Traversal

namespace Stage

variable {entries : List String} {frame : Frame} {outer : List Frame} {s s' : Session} {g : Graph}
  {st st' : Stage}

theorem settle_processed (r : Move × Session) : (settle r).2.processed = r.2.processed := by
  obtain ⟨m, s⟩ := r
  cases m <;> rfl

/-- What an attempt came to is taken. -/
theorem took_lighter (entries : List String) (outer : List Frame) {a : Attempt} {y : Yield} (ceased : a.mode = .over y) (rest : frame.pending = [])
    (outOfTime : Bool) (s : Session) (given? : Option Bool) :
    (took ⟨entries, frame :: outer⟩ a outOfTime y s).1.Lighter s.graph
      (.awaiting ⟨entries, frame :: outer⟩ a given?) := by
  obtain ⟨p, collected?, mode⟩ := a
  obtain ⟨e, old, pending⟩ := frame
  cases ceased
  cases rest
  -- The frame counts for what it costs to take it off, whatever its source was.
  have lighter : ∀ st' : Stage, st'.news ≤ p.news + Traversal.news ⟨entries, outer⟩ →
      st'.weight s.graph < Traversal.weight s.graph.connections.length ⟨entries, outer⟩ +
        Attempt.weight s.graph.connections.length ⟨p, collected?, .over y⟩ + 6 →
      st'.Lighter s.graph (.awaiting ⟨entries, ⟨e, old, []⟩ :: outer⟩ ⟨p, collected?, .over y⟩ given?) := by
    intro st' older less
    refine .inr ⟨?_, Nat.lt_of_lt_of_le less ?_⟩
    · show _ ≤ Source.news old + Traversal.news ⟨entries, outer⟩ + p.news
      omega
    · show _ ≤ Traversal.weight _ _ + _ + 2
      rw [Traversal.weight_cons, List.length_nil]
      omega
  have closes := Traversal.toClose_le s.graph.connections.length ⟨entries, outer⟩
  have unwound : (Stage.unwinding ⟨entries, ⟨e, .stream p, []⟩ :: outer⟩ .cancelled).news ≤
        p.news + Traversal.news ⟨entries, outer⟩ ∧
      (Stage.unwinding ⟨entries, ⟨e, .stream p, []⟩ :: outer⟩ .cancelled).weight s.graph <
        Traversal.weight s.graph.connections.length ⟨entries, outer⟩ + p.left + 6 := by
    refine ⟨Nat.le_refl _, ?_⟩
    show Traversal.toClose _ + 1 < _
    rw [Traversal.toClose_cons]
    simp only [Source.toClose]
    omega
  cases y with
  | items vs =>
      refine lighter _ ?_ ?_
      · show Source.news (.items vs) + _ ≤ _
        exact Nat.add_le_add_right (Nat.zero_le _) _
      · show Traversal.weight _ ⟨entries, ⟨e, .items vs, []⟩ :: outer⟩ + 2 < _
        rw [Traversal.weight_cons]
        simp only [Source.weight, Attempt.weight, List.length_nil]
        omega
  | pause pause =>
      cases pause with
      | item v =>
          obtain ⟨same, less⟩ := Traversal.accept_bound entries ⟨e, .stream p, []⟩ outer s v
          refine lighter _ (Nat.le_of_eq same) (Nat.lt_of_le_of_lt less ?_)
          simp only [Source.weight, Attempt.weight]
          omega
      | sleep length insists =>
          refine lighter _ (Nat.le_refl _) ?_
          show Traversal.weight _ ⟨entries, ⟨e, .stream p, []⟩ :: outer⟩ + 2 < _
          rw [Traversal.weight_cons]
          simp only [Source.weight, Attempt.weight, List.length_nil]
          omega
      | ended how =>
          have ends := fun how => Traversal.endWith_bound entries ⟨e, .stream p, []⟩ outer s how s.graph
          have over_ : ∀ st' : Stage, st'.news ≤ p.news + Traversal.news ⟨entries, outer⟩ ∧
              st'.weight s.graph ≤ Traversal.weight s.graph.connections.length ⟨entries, outer⟩ +
                p.left + 3 → st'.Lighter s.graph (.awaiting ⟨entries, ⟨e, old, []⟩ :: outer⟩
                  ⟨p, collected?, .over (.pause (.ended how))⟩ given?) := by
            intro st' ⟨older, less⟩
            refine lighter st' older (Nat.lt_of_le_of_lt less ?_)
            simp only [Attempt.weight]
            omega
          cases how with
          | interrupted =>
              cases outOfTime with
              | false => exact lighter _ unwound.1 unwound.2
              | true =>
                  have fails := Traversal.fail_bound entries ⟨e, .stream p, []⟩ outer (s.blockTimedOut e).1
                    (s.blockTimedOut e).2 s.graph
                  exact over_ _ ⟨Nat.le_of_eq fails.1, fails.2⟩
          | normal => exact over_ _ (ends .normal)
          | fault f => exact over_ _ (ends (.fault f))
          | closed => exact over_ _ (ends .closed)

/-- Logic that is waited for goes on. -/
theorem paused_lighter {t : Traversal} {a : Attempt} (alive : ∀ y, a.mode ≠ .over y)
    (idle : ∀ v, (a.process.resume s).1 ≠ .item v) (given? : Option Bool) :
    (awaiting t (a.paused (a.process.resume s).1 (a.process.resume s).2.1) given?).Lighter g
      (.awaiting t a given?) := by
  obtain ⟨p, collected?, mode⟩ := a
  have eases := p.resume_eases s
  have weighs : Attempt.weight g.connections.length ⟨p, collected?, mode⟩ =
      p.left + (collected?.getD []).length * (g.connections.length + 1) + 2 := by
    cases mode with
    | «over» y => exact absurd rfl (alive y)
    | _ => rfl
  dsimp only at idle ⊢
  rcases eases with old | ⟨old, less⟩
  · left
    show t.news + _ < t.news + _
    rw [Attempt.paused_process]
    exact Nat.add_lt_add_left old _
  · refine .inr ⟨?_, ?_⟩
    · show t.news + _ ≤ t.news + _
      rw [Attempt.paused_process]
      exact Nat.add_le_add_left old _
    · show t.weight _ + _ + 2 < t.weight _ + _ + 2
      rw [weighs]
      cases resumed : p.resume s with
      | mk pause rest =>
          obtain ⟨q, s₁⟩ := rest
          rw [resumed] at less idle
          dsimp only at less ⊢
          cases pause with
          | item v => exact absurd rfl (idle v)
          | sleep length insists =>
              have less : q.left < p.left := less
              simp only [Attempt.paused, Attempt.weight]
              omega
          | ended how =>
              have less : q.left ≤ p.left := less
              cases how <;> cases collected? <;>
                simp only [Attempt.paused, Attempt.weight, Option.getD_some, List.length_reverse] <;> omega

/-- Logic that is being closed has paused. -/
theorem closed_lighter {t : Traversal} {e : WalkEnd} {p : Process} {r : Pause × Process × Session}
    (eases : p.Eases r) (older : t.news + p.news ≤ st.news)
    (less : t.toClose + p.left + 2 ≤ st.weight g) : (closed t e r).1.Lighter g st := by
  obtain ⟨pause, q, s₁⟩ := r
  have unwound : (Stage.unwinding t e).Lighter g st := by
    refine .inr ⟨Nat.le_trans (Nat.le_add_right _ _) older, ?_⟩
    show t.toClose + 1 < _
    omega
  cases pause with
  | item v => exact unwound
  | sleep length insists =>
      rcases eases with old | ⟨old, fewer⟩
      · exact .inl (Nat.lt_of_lt_of_le (Nat.add_lt_add_left old _) older)
      · have fewer : q.left < p.left := fewer
        refine .inr ⟨Nat.le_trans (Nat.add_le_add_left old _) older, ?_⟩
        show t.toClose + q.left + 2 < _
        omega
  | ended how =>
      cases how with
      | interrupted =>
          refine .inr ⟨Nat.zero_le _, ?_⟩
          show 0 < _
          omega
      | _ => exact unwound

/-- A move that starts no element, and in which no logic hands over an item, leaves less to do. -/
theorem next_lighter (stored : 0 < s.stores.size) (sound : st.Sound s)
    (h : st.next s = some (st', s')) (still : s'.processed = s.processed)
    (idle : ∀ id, ¬st.Hands s id) : st'.Lighter s.graph st := by
  cases st with
  | opening =>
      obtain ⟨_, roots, _⟩ := s.opening_deeds
      unfold next at h
      cases opened : s.opening with
      | mk r s₁ =>
          rw [opened] at h roots
          cases r with
          | ok entries =>
              cases h
              rw [roots entries rfl]
              exact .inr ⟨Nat.le_refl _, Nat.lt_succ_self _⟩
          | error f =>
              cases h
              exact .inr ⟨Nat.le_refl _, Nat.succ_pos _⟩
  | walking t =>
      have same : settle (t.step s) = (st', s') := Option.some.inj h
      have still : (t.step s).2.processed = s.processed := by
        rw [← settle_processed, same]
        exact still
      have lighter := Traversal.step_lighter stored still idle
      rwa [same] at lighter
  | awaiting t a given? =>
      obtain ⟨_, _, frame, outer, stack, rest⟩ := sound
      obtain ⟨entries, _⟩ := t
      cases stack
      simp only [next] at h
      split at h
      · rename_i y ceased
        have lighter := took_lighter entries outer ceased rest
          (given? == some true) s given?
        rwa [Option.some.inj h] at lighter
      · rename_i alive
        cases h
        exact paused_lighter alive (withheld idle (works?_awaiting alive given?)) given?
  | delaying t id =>
      cases h
      exact .inr ⟨Nat.le_refl _, Nat.lt_succ_self _⟩
  | unwinding t e =>
      obtain ⟨entries, stack⟩ := t
      cases stack with
      | nil =>
          cases h
          exact .inr ⟨Nat.le_refl _, Nat.succ_pos _⟩
      | cons frame outer =>
          obtain ⟨element, source, pending⟩ := frame
          have closes : ∀ p : Process, source.news = p.news → source.toClose = p.left →
              (closed ⟨entries, outer⟩ e (p.close s)).1.Lighter s.graph
                (.unwinding ⟨entries, ⟨element, source, pending⟩ :: outer⟩ e) := by
            intro p news left
            refine closed_lighter (p.close_eases s) ?_ ?_
            · show _ ≤ source.news + Traversal.news ⟨entries, outer⟩
              omega
            · show _ ≤ source.toClose + 2 + Traversal.toClose ⟨entries, outer⟩ + 1
              omega
          have dropped : (Stage.unwinding ⟨entries, outer⟩ e).Lighter s.graph
              (.unwinding ⟨entries, ⟨element, source, pending⟩ :: outer⟩ e) := by
            refine .inr ⟨Nat.le_add_left _ _, ?_⟩
            show Traversal.toClose _ + 1 < source.toClose + 2 + Traversal.toClose ⟨entries, outer⟩ + 1
            omega
          cases source with
          | stream p =>
              have lighter := closes p rfl rfl
              rwa [show closed _ e (p.close s) = (st', s') from Option.some.inj h] at lighter
          | sequence p =>
              have lighter := closes p rfl rfl
              rwa [show closed _ e (p.close s) = (st', s') from Option.some.inj h] at lighter
          | _ =>
              cases h
              exact dropped
  | closing t p insists? e =>
      have lighter : (closed t e (p.resume s)).1.Lighter s.graph (.closing t p insists? e) :=
        closed_lighter (p.resume_eases s) (Nat.le_refl _) (Nat.le_refl _)
      rwa [show closed t e (p.resume s) = (st', s') from Option.some.inj h] at lighter
  | «over» e => cases h

end Stage

end BlockGraph
