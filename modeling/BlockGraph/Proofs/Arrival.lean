import BlockGraph.Proofs.Unrolling
/-!
Arrival: where the recursion comes to a result, the traversal comes to its end. The induction is on the
approximations of the recursion; each of its calls is a stretch of stages, after which the traversal still
has to end.
-/
namespace BlockGraph

namespace Process

/-- What holds when logic goes on without sleeping, and is handed back over its sleep, holds of logic that
is waited for. -/
theorem await_induct {P : Process → Session → Prop} {pause : Pause} {q : Process} {s' : Session}
    (sleeps : ∀ p s length insists p₁ s₁, p.resume s = (.sleep length insists, p₁, s₁) → P p₁ s₁ → P p s)
    (pauses : ∀ p s, p.resume s = (pause, q, s') → (∀ length insists, pause ≠ .sleep length insists) →
      P p s) {p : Process} {s : Session} (h : p.await s = some (pause, q, s')) : P p s := by
  refine await.partial_correctness (fun p s r => r = (pause, q, s') → P p s) ?_ p s _ h rfl
  intro await ih p s r found same
  split at found <;> rename_i resumed
  · exact sleeps p s _ _ _ _ resumed (ih _ _ _ found same)
  · cases found
    cases same
    exact pauses p s resumed fun _ _ same => by cases same
  · cases found
    cases same
    exact pauses p s resumed fun _ _ same => by cases same

theorem gather_induct {P : Process → List Value → Session → Prop} {how : Ending} {items : List Value}
    {s' : Session}
    (sleeps : ∀ p s collected length insists p₁ s₁, p.resume s = (.sleep length insists, p₁, s₁) →
      P p₁ collected s₁ → P p collected s)
    (hands : ∀ p s collected v p₁ s₁, p.resume s = (.item v, p₁, s₁) → P p₁ (v :: collected) s₁ →
      P p collected s)
    (ends : ∀ p s collected q, p.resume s = (.ended how, q, s') → items = collected.reverse →
      P p collected s) {p : Process} {s : Session} {collected : List Value}
    (h : p.gather s collected = some (how, items, s')) : P p collected s := by
  refine gather.partial_correctness (fun p s collected r => r = (how, items, s') → P p collected s) ?_
    p s collected _ h rfl
  intro gather ih p s collected r found same
  split at found <;> rename_i resumed
  · exact sleeps p s collected _ _ _ _ resumed (ih _ _ _ _ found same)
  · exact hands p s collected _ _ _ resumed (ih _ _ _ _ found same)
  · cases found
    cases same
    exact ends p s collected _ resumed rfl

/-- Intact logic that is waited for stays intact. -/
theorem await_went {p q : Process} {s s' : Session} {pause : Pause} (h : p.Intact)
    (found : p.await s = some (pause, q, s')) :
    q.Went pause ∧ ∀ length insists, pause ≠ .sleep length insists := by
  refine await_induct (P := fun p _ => p.Intact → q.Went pause ∧
    ∀ length insists, pause ≠ .sleep length insists) ?_ ?_ found h
  · intro p s length insists p₁ s₁ resumed ih intact
    have went := resume_went intact s
    rw [resumed] at went
    exact ih went.intact
  · intro p s resumed awake intact
    have went := resume_went intact s
    rw [resumed] at went
    exact ⟨went, awake⟩

end Process

namespace Stage

/-- Whether a traversal comes to its end when it is left to itself. -/
def Ends (r : Stage × Session) : Prop := ∃ e s, Leads r (.over e, s)

theorem Ends.next {st : Stage} {s : Session} {r : Stage × Session} (h : Ends r)
    (next : st.next s = some r) : Ends (st, s) := by
  obtain ⟨e, s', steps⟩ := h
  exact ⟨e, s', steps.head next⟩

end Stage

open Stage (Ends)

namespace Traversal

/-- Where a traversal is after something in it came out in some way. -/
def after (t : Traversal) (r : Visit) : Stage × Session :=
  match r with
  | (none, s) => (.walking t, s)
  | (some f, s) => (.unwinding t (.failed f), s)

/-- Where a traversal is after the logic of an element has answered. -/
def answered (entries : List String) (outer : List Frame) (e : Element) (r : Pulled) : Stage × Session :=
  match r with
  | (.error f, s) => (⟨entries, outer⟩ : Traversal).after (.fail f s)
  | (.ok none, s) => (.walking ⟨entries, outer⟩, s.completed e.id)
  | (.ok (some (item, source)), s) =>
    Stage.settle (accept ⟨entries, ⟨e, source, []⟩ :: outer⟩ s item)

variable {entries : List String} {outer : List Frame} {e : Element} {source : Source} {s s' : Session}

theorem complete_ends {t : Traversal} {id : String} (h : Ends (.walking t, s.completed id)) :
    Ends (Stage.settle (complete t s id)) := by
  unfold complete
  split
  · exact h
  · exact h.next rfl

/-- Logic that sleeps while it is closed is waited for. -/
theorem closing_ends {t : Traversal} {p q : Process} {pause : Pause} {how : WalkEnd} (intact : p.Intact)
    (waited : p.await s = some (pause, q, s')) (h : Ends (.unwinding t how, s')) (insists? : Option Span) :
    Ends (.closing t p insists? how, s) := by
  refine Process.await_induct (P := fun p s => p.Intact → ∀ insists?,
    Ends (.closing t p insists? how, s)) ?_ ?_ waited intact insists?
  · intro p s length insists p₁ s₁ resumed ih intact insists?
    have went := Process.resume_went intact s
    rw [resumed] at went
    refine (ih went.intact (if insists then some length else none)).next ?_
    rw [Stage.next, resumed]
    rfl
  · intro p s resumed awake intact insists?
    have went := Process.resume_went intact s
    rw [resumed] at went
    refine h.next ?_
    rw [Stage.next, resumed]
    cases pause with
    | item v => rfl
    | sleep length insists => exact absurd rfl (awake length insists)
    | ended e =>
        cases e with
        | interrupted => exact absurd rfl went.uninterrupted
        | _ => rfl

/-- An element is closed, and those around it after it. -/
theorem unwinding_ends {how : WalkEnd} (shut : source.shut s = some s')
    (h : Ends (.unwinding ⟨entries, outer⟩ how, s')) (pending : List Connection) :
    Ends (.unwinding ⟨entries, ⟨e, source, pending⟩ :: outer⟩ how, s) := by
  have closes : ∀ p : Process, p.shut s = some s' →
      Ends (Stage.closed ⟨entries, outer⟩ how (p.close s)) := by
    intro p shut
    have went := p.shut_went s
    rw [Process.shut] at shut
    cases result : p.close s with
    | mk pause rest =>
        obtain ⟨q, s₁⟩ := rest
        rw [result] at shut went
        cases pause with
        | item v =>
            cases shut
            exact h
        | ended e =>
            cases shut
            cases e with
            | interrupted => exact absurd rfl went.uninterrupted
            | _ => exact h
        | sleep length insists =>
            obtain ⟨⟨pause, q', s₂⟩, waited, rfl⟩ := Option.map_eq_some_iff.mp shut
            exact closing_ends went.intact waited h _
  cases source with
  | stream p => exact (closes p shut).next rfl
  | sequence p => exact (closes p shut).next rfl
  | _ =>
      cases shut
      exact h.next rfl

theorem endWith_ends (how : Ending) (ended : ∀ s, source.shut s = some s)
    (h : Ends (answered entries outer e (s.pulledEnd e how))) (pending : List Connection) :
    Ends (Stage.settle (endWith ⟨entries, ⟨e, source, pending⟩ :: outer⟩ s how)) := by
  unfold endWith
  cases how with
  | fault f =>
      rw [Session.pulledEnd] at h
      simp only at h ⊢
      split <;> rename_i kind
      · rw [if_pos kind] at h
        exact unwinding_ends (ended _) h pending
      · rw [if_neg kind] at h
        exact unwinding_ends (ended _) h pending
  | normal => exact complete_ends h
  | closed => exact complete_ends h
  | interrupted => exact complete_ends h

theorem answer_ends {pause : Pause} {p : Process} (went : p.Went pause)
    (awake : ∀ length insists, pause ≠ .sleep length insists)
    (drawn : source = .stream p ∨ source = .sequence p)
    (h : Ends (answered entries outer e (s.pulledPause e source pause))) (old : Source) :
    Ends (Stage.settle (answer ⟨entries, ⟨e, old, []⟩ :: outer⟩ s pause source)) := by
  cases pause with
  | item v => exact h
  | sleep length insists => exact absurd rfl (awake length insists)
  | ended how =>
      refine endWith_ends how (fun s => ?_) h []
      have ceased := Process.shut_over (went.ended how rfl) s
      rcases drawn with rfl | rfl <;> exact ceased

theorem items_ends {vs : List Value} (h : Ends (answered entries outer e (s.pulledItems vs))) :
    Ends (.walking ⟨entries, ⟨e, .items vs, []⟩ :: outer⟩, s) := by
  cases vs with
  | nil =>
      have ceased : ∀ s, (Source.items []).shut s = some s := fun _ => rfl
      exact (endWith_ends .normal ceased h []).next rfl
  | cons v rest => exact h.next rfl

/-! ### Logic that is waited for -/

section Waiting

variable {a : Attempt} {r : Pulled}

/-- An attempt that is over is taken. -/
theorem took_ends {y : Yield} (intact : a.Intact) (ceased : a.mode = .over y) (found : a.pull s e = some r)
    (h : Ends (answered entries outer e r)) :
    Ends (.awaiting ⟨entries, ⟨e, .busy, []⟩ :: outer⟩ a none, s) := by
  obtain ⟨p, collected?, mode⟩ := a
  cases ceased
  cases y with
  | items vs =>
      cases found
      exact (items_ends h).next rfl
  | pause pause =>
      cases found
      obtain ⟨went, awake⟩ := intact.ended pause rfl
      have answers := answer_ends went awake (.inl rfl) h .busy
      refine Ends.next ?_ rfl
      cases pause with
      | item v => exact answers
      | sleep length insists => exact answers
      | ended how =>
          cases how with
          | interrupted => exact absurd rfl went.uninterrupted
          | _ => exact answers

/-- An attempt that is not over goes on, and is over then unless it has to go on again. -/
theorem attempt_ends {p : Process} {pause : Pause} {s₁ : Session} (alive : ∀ y, a.mode ≠ .over y)
    (intact : a.process.Intact) (found : a.pull s e = some r) (h : Ends (answered entries outer e r))
    (resumed : a.process.resume s = (pause, p, s₁))
    (goes : (∀ y, (a.paused pause p).mode ≠ .over y) → p.Intact → (a.paused pause p).pull s₁ e = some r →
      Ends (.awaiting ⟨entries, ⟨e, .busy, []⟩ :: outer⟩ (a.paused pause p) none, s₁)) :
    Ends (.awaiting ⟨entries, ⟨e, .busy, []⟩ :: outer⟩ a none, s) := by
  obtain ⟨working, same⟩ := Attempt.paused_pull alive intact s e
  rw [resumed] at working same
  rw [same] at found
  have next : (Stage.awaiting ⟨entries, ⟨e, .busy, []⟩ :: outer⟩ a none).next s =
      some (.awaiting ⟨entries, ⟨e, .busy, []⟩ :: outer⟩ (a.paused pause p) none, s₁) := by
    unfold Stage.next
    simp only
    rw [resumed]
  refine Ends.next ?_ next
  by_cases ceased : ∃ y, (a.paused pause p).mode = .over y
  · obtain ⟨y, ceased⟩ := ceased
    exact took_ends working ceased found h
  · refine goes (fun y same => ceased ⟨y, same⟩) ?_ found
    have intact := working.process
    rwa [Attempt.paused_process] at intact

theorem await_ends {p : Process} (intact : p.Intact)
    (found : (⟨p, none, .fresh⟩ : Attempt).pull s e = some r) (h : Ends (answered entries outer e r)) :
    Ends (.awaiting ⟨entries, ⟨e, .busy, []⟩ :: outer⟩ ⟨p, none, .fresh⟩ none, s) := by
  obtain ⟨⟨pause, q, s'⟩, waited, _⟩ := Option.map_eq_some_iff.mp found
  refine Process.await_induct (P := fun p s => p.Intact → ∀ mode, (∀ y, mode ≠ .over y) →
    (⟨p, none, mode⟩ : Attempt).pull s e = some r →
    Ends (.awaiting ⟨entries, ⟨e, .busy, []⟩ :: outer⟩ ⟨p, none, mode⟩ none, s)) ?_ ?_ waited intact
    .fresh (fun _ => nofun) found
  · intro p s length insists p₁ s₁ resumed ih intact mode alive found
    exact attempt_ends alive intact found h resumed fun alive intact found => ih intact _ alive found
  · intro p s resumed awake intact mode alive found
    refine attempt_ends alive intact found h resumed fun alive _ _ => ?_
    cases pause with
    | item v => exact absurd rfl (alive _)
    | sleep length insists => exact absurd rfl (awake length insists)
    | ended how => cases how <;> exact absurd rfl (alive _)

theorem collect_ends {p : Process} (intact : p.Intact)
    (found : (⟨p, some [], .fresh⟩ : Attempt).pull s e = some r) (h : Ends (answered entries outer e r)) :
    Ends (.awaiting ⟨entries, ⟨e, .busy, []⟩ :: outer⟩ ⟨p, some [], .fresh⟩ none, s) := by
  obtain ⟨⟨how, items, s'⟩, waited, _⟩ := Option.map_eq_some_iff.mp found
  refine Process.gather_induct (P := fun p collected s => p.Intact → ∀ mode, (∀ y, mode ≠ .over y) →
    (⟨p, some collected, mode⟩ : Attempt).pull s e = some r →
    Ends (.awaiting ⟨entries, ⟨e, .busy, []⟩ :: outer⟩ ⟨p, some collected, mode⟩ none, s)) ?_ ?_ ?_ waited
    intact .fresh (fun _ => nofun) found
  · intro p s collected length insists p₁ s₁ resumed ih intact mode alive found
    exact attempt_ends alive intact found h resumed fun alive intact found => ih intact _ alive found
  · intro p s collected v p₁ s₁ resumed ih intact mode alive found
    exact attempt_ends alive intact found h resumed fun alive intact found => ih intact _ alive found
  · intro p s collected q resumed _ intact mode alive found
    refine attempt_ends alive intact found h resumed fun alive _ _ => ?_
    cases how <;> exact absurd rfl (alive _)

end Waiting

/-! ### Items -/

theorem next_advance (entries : List String) (outer : List Frame) (e : Element) (source : Source)
    (s : Session) : (Stage.walking ⟨entries, ⟨e, source, []⟩ :: outer⟩).next s =
      some (Stage.settle (advance ⟨entries, ⟨e, source, []⟩ :: outer⟩ s ⟨e, source, []⟩)) := rfl

/-- Where the logic of an element answers, the traversal comes to take the answer. -/
theorem pull_ends {r : Pulled} (intact : source.Intact) (found : s.pull e source = some r)
    (h : Ends (answered entries outer e r)) :
    Ends (.walking ⟨entries, ⟨e, source, []⟩ :: outer⟩, s) := by
  have waits : ∀ p collected?, (Attempt.ofProcess p).collected? = collected? →
      Ends (.awaiting ⟨entries, ⟨e, .busy, []⟩ :: outer⟩ ⟨p, collected?, .fresh⟩ none, s) →
      Ends (.awaiting ⟨entries, ⟨e, .busy, []⟩ :: outer⟩ (.ofProcess p) none, s) := by
    intro p collected? same ends
    subst same
    exact ends
  cases source with
  | items vs =>
      cases found
      exact items_ends h
  | busy =>
      cases found
      have ceased : ∀ s, Source.busy.shut s = some s := fun _ => rfl
      exact (endWith_ends .normal ceased h []).next rfl
  | stream p =>
      have form := (Attempt.ofProcess_collected p).trans (if_neg (intact.stream p rfl))
      exact (waits p none form (await_ends (intact.intact p rfl) found h)).next rfl
  | deferred p =>
      have form := (Attempt.ofProcess_collected p).trans (if_pos (intact.deferred p rfl))
      exact (waits p (some []) form (collect_ends (intact.intact p rfl) found h)).next rfl
  | sequence p =>
      obtain ⟨⟨pause, q, s'⟩, waited, rfl⟩ := Option.map_eq_some_iff.mp found
      obtain ⟨went, awake⟩ := Process.await_went (intact.intact p rfl) waited
      refine Process.await_induct (P := fun p s =>
        Ends (.walking ⟨entries, ⟨e, .sequence p, []⟩ :: outer⟩, s)) ?_ ?_ waited
      · intro p s length insists p₁ s₁ resumed ih
        refine ih.next ?_
        rw [next_advance]
        unfold advance
        simp only [resumed]
        rfl
      · intro p s resumed awake
        refine Ends.next (answer_ends went awake (.inr rfl) h (.sequence p)) ?_
        rw [next_advance]
        unfold advance
        simp only [resumed]
  | gathering p collected =>
      obtain ⟨⟨how, items, s'⟩, waited, rfl⟩ := Option.map_eq_some_iff.mp found
      refine Process.gather_induct (P := fun p collected s =>
        Ends (.walking ⟨entries, ⟨e, .gathering p collected, []⟩ :: outer⟩, s)) ?_ ?_ ?_ waited
      · intro p s collected length insists p₁ s₁ resumed ih
        refine ih.next ?_
        rw [next_advance]
        unfold advance gather
        simp only [resumed]
        rfl
      · intro p s collected v p₁ s₁ resumed ih
        refine ih.next ?_
        rw [next_advance]
        unfold advance gather
        simp only [resumed]
        rfl
      · intro p s collected q resumed items
        subst items
        cases how with
        | fault f =>
            refine Ends.next h ?_
            rw [next_advance]
            unfold advance gather
            simp only [resumed]
            rfl
        | _ =>
            refine (items_ends h).next ?_
            rw [next_advance]
            unfold advance gather
            simp only [resumed]
            rfl

/-- Logic that hands over an item leaves an intact source for the next ones. -/
theorem pull_intact {s₁ : Session} {item : Value} {next : Source} (intact : source.Intact)
    (found : s.pull e source = some (.ok (some (item, next)), s₁)) : next.Intact := by
  have drawn : ∀ (next' : Source) {s : Session} {pause : Pause},
      s.pulledPause e next' pause = (.ok (some (item, next)), s₁) → next = next' := by
    intro next' s pause same
    cases pause with
    | item v =>
        cases same
        rfl
    | sleep length insists => cases same
    | ended how =>
        cases how <;> cases same
  have listed : ∀ {s : Session} {vs : List Value}, s.pulledItems vs = (.ok (some (item, next)), s₁) →
      next.Intact := by
    intro s vs same
    cases vs with
    | nil => cases same
    | cons v rest =>
        cases same
        exact .items rest
  cases source with
  | items vs => exact listed (Option.some.inj found)
  | busy => cases found
  | sequence p =>
      obtain ⟨⟨pause, q, s'⟩, waited, same⟩ := Option.map_eq_some_iff.mp found
      rw [drawn _ same]
      exact .sequence (Process.await_went (intact.intact p rfl) waited).1.intact
  | stream p =>
      obtain ⟨⟨pause, q, s'⟩, waited, same⟩ := Option.map_eq_some_iff.mp found
      rw [drawn _ same]
      exact .stream_of_went (Process.await_went (intact.intact p rfl) waited).1
  | gathering p collected =>
      obtain ⟨⟨how, items, s'⟩, _, same⟩ := Option.map_eq_some_iff.mp found
      cases how with
      | fault f => cases same
      | _ => exact listed same
  | deferred p =>
      obtain ⟨⟨how, items, s'⟩, _, same⟩ := Option.map_eq_some_iff.mp found
      cases how with
      | normal => exact listed same
      | _ => cases same

/-! ### Visits -/

/-- What an element that is being torn down would still have to fire does not matter. -/
theorem unwinding_pending {how : WalkEnd} {pending : List Connection} (other : List Connection)
    (h : Ends (.unwinding ⟨entries, ⟨e, source, pending⟩ :: outer⟩ how, s)) :
    Ends (.unwinding ⟨entries, ⟨e, source, other⟩ :: outer⟩ how, s) := by
  obtain ⟨how', s', steps⟩ := h
  rcases Relation.ReflTransGen.cases_head steps with same | ⟨r, next, rest⟩
  · cases same
  · exact ⟨how', s', rest.head next⟩

/-- Where the recursion comes to a result, the traversal has gone the whole way there once it ends
afterwards. -/
theorem visits_end :
    (∀ s id r, Session.visit s id = some r → ∀ t : Traversal, Ends (t.after r) →
      Ends (Stage.settle (t.visit s id))) ∧
    (∀ s e source r, Session.drive s e source = some r → source.Intact → ∀ entries outer,
      Ends (after ⟨entries, outer⟩ r) → Ends (.walking ⟨entries, ⟨e, source, []⟩ :: outer⟩, s)) ∧
    (∀ s cs r, Session.follow s cs = some r → ∀ e source entries outer,
      Ends (after ⟨entries, ⟨e, source, []⟩ :: outer⟩ r) →
      Ends (.walking ⟨entries, ⟨e, source, cs⟩ :: outer⟩, s)) := by
  refine Session.visit.mutual_partial_correctness _ _ _ ?_ ?_ ?_
  · intro drive ih s id r found t h
    unfold Traversal.visit
    cases on : s.active with
    | false =>
        rw [if_pos on] at found
        cases found
        rw [begin_inactive on]
        exact h
    | true =>
        rw [if_neg fun off => by rw [on] at off; cases off] at found
        by_cases beyond : s.options.maxSteps < ((s.steps + 1 : Nat) : Int)
        · rw [if_pos beyond] at found
          cases found
          rw [begin_overBudget on beyond]
          exact h
        rw [if_neg beyond] at found
        by_cases seen : id ∈ s.processed
        · rw [if_pos seen] at found
          cases found
          rw [begin_seen on (Int.not_lt.mp beyond) seen]
          exact h
        rw [if_neg seen] at found
        rw [begin_fresh on (Int.not_lt.mp beyond) seen]
        cases element : s.graph.element? id with
        | none =>
            rw [element] at found
            cases found
            exact h
        | some e =>
            simp only [element] at found ⊢
            cases type : s.registry.find? e.type with
            | none =>
                rw [type] at found
                cases found
                exact h
            | some d =>
                simp only [type] at found ⊢
                have started := start_frame s.counted e d.logic
                cases begun : start s.counted e d.logic with
                | mk result s' =>
                    rw [begun] at started found
                    rcases started with ⟨f, same⟩ | ⟨c, same⟩
                    · cases same
                      cases found
                      exact h
                    · cases same
                      exact ih s' e _ r found (.ofLogic c d.logic) t.entries t.stack h
  · intro drive follow ihDrive ihFollow s e source r found intact entries outer h
    obtain ⟨⟨answer, s₁⟩, pulled, found⟩ := Option.bind_eq_some_iff.mp found
    refine pull_ends intact pulled ?_
    cases answer with
    | error f =>
        cases found
        exact h
    | ok item? =>
        cases item? with
        | none =>
            cases found
            exact h
        | some item =>
            obtain ⟨item, next⟩ := item
            unfold answered accept
            simp only at found ⊢
            cases made : Emission.ofItem item with
            | error f =>
                simp only [made] at found ⊢
                obtain ⟨s₂, shut, same⟩ := Option.bind_eq_some_iff.mp found
                cases same
                exact unwinding_ends shut h []
            | ok emission =>
                simp only [made] at found ⊢
                obtain ⟨⟨f?, s₂⟩, followed, found⟩ := Option.bind_eq_some_iff.mp found
                refine ihFollow _ _ _ followed e next entries outer ?_
                cases f? with
                | none => exact ihDrive _ _ _ _ found (pull_intact intact pulled) entries outer h
                | some f =>
                    obtain ⟨s₃, shut, same⟩ := Option.bind_eq_some_iff.mp found
                    cases same
                    exact unwinding_ends shut h []
  · intro visit follow ihVisit ihFollow s cs r found e source entries outer h
    cases cs with
    | nil =>
        cases found
        exact h
    | cons c rest =>
        simp only at found
        cases on : s.active with
        | false =>
            rw [if_neg fun active => by rw [on] at active; cases active] at found
            cases found
            refine h.next ?_
            rw [Stage.next, step]
            simp only [on]
            rfl
        | true =>
            rw [if_pos on] at found
            obtain ⟨⟨f?, s₁⟩, visited, found⟩ := Option.bind_eq_some_iff.mp found
            have goes := ihVisit _ _ _ visited ⟨entries, ⟨e, source, rest⟩ :: outer⟩
            refine Ends.next (goes ?_) ?_
            · cases f? with
              | none => exact ihFollow _ _ _ found e source entries outer h
              | some f =>
                  cases found
                  exact unwinding_pending rest h
            · rw [Stage.next, step]
              simp only [on]
              rfl

/-- The entry points are visited one after the other. -/
theorem entries_end {entries : List String} {s : Session} {r : Visit}
    (found : s.visitAll entries = some r) : Ends (.walking ⟨entries, []⟩, s) := by
  have ceased : ∀ (t : Traversal) (how : WalkEnd) (s : Session), t.stack = [] →
      Ends (.unwinding t how, s) := by
    intro t how s none
    refine ⟨how, s, .single ?_⟩
    rw [Stage.next]
    simp only [none]
  induction entries generalizing s with
  | nil => exact (ceased ⟨[], []⟩ .normal s rfl).next rfl
  | cons id rest ih =>
      rw [Session.visitAll] at found
      cases on : s.active with
      | false =>
          refine (ceased ⟨[], []⟩ .normal s rfl).next ?_
          rw [Stage.next, step]
          simp only [on]
          rfl
      | true =>
          rw [if_pos on] at found
          obtain ⟨⟨f?, s₁⟩, visited, found⟩ := Option.bind_eq_some_iff.mp found
          have goes := visits_end.1 _ _ _ visited ⟨rest, []⟩
          refine Ends.next (goes ?_) ?_
          · cases f? with
            | none => exact ih found
            | some f => exact ceased ⟨rest, []⟩ (.failed f) s₁ rfl
          · rw [Stage.next, step]
            simp only [on]
            rfl

end Traversal

namespace Stage

/-- Left to itself, the traversal of a run comes to its end just when the recursion comes to a result, and
with that. -/
theorem explore_iff (s : Session) (r : Visit) :
    s.explore = some r ↔ ∃ how s', Leads (.opening, s) (.over how, s') ∧ how.visit? s' = some r := by
  constructor
  · intro found
    have ends : Ends (.opening, s) := by
      unfold Session.explore at found
      cases opened : s.opening with
      | mk result s' =>
          rw [opened] at found
          cases result with
          | error f =>
              refine ⟨.failed f, s', .single ?_⟩
              rw [Stage.next]
              simp only [opened]
          | ok entries =>
              refine (Traversal.entries_end found).next ?_
              rw [Stage.next]
              simp only [opened]
    obtain ⟨how, s', steps⟩ := ends
    exact ⟨how, s', steps, (steps.explores trivial).explores.trans found⟩
  · rintro ⟨how, s', steps, out⟩
    exact (steps.explores trivial).explores.symm.trans out

end Stage

end BlockGraph
