import BlockGraph.Proofs.Beats
/-!
Lulls: what can still happen to a session that does not run. Logic that outlives its run may go on, and a
traversal may be torn down, but no element is started, no connection is traversed and no visit is counted.
-/
namespace BlockGraph

namespace Event

/-- Whether an event tells that an element is started or a connection traversed. -/
def leads : Event → Bool
  | .start _ | .traverse _ => true
  | _ => false

end Event

namespace Session

/-- What listeners were told of elements started and connections traversed, in all runs. -/
def heardLeads (s : Session) : List (Nat × Event) := s.heardVisits.filter (·.2.leads)

/-- What listeners heard of events of some kind is the same after one of another kind. -/
theorem hears_filtered (s : Session) {e : Event} {kind : Event → Bool} (other : kind e = false) :
    (s.hears e).heardVisits.filter (kind ·.2) = s.heardVisits.filter (kind ·.2) := by
  unfold hears
  split
  · rw [heardVisits, heardVisits, Array.toList_push, List.filter_append, List.filter_append]
    refine (congrArg _ (List.filter_eq_nil_iff.mpr ?_)).trans (List.append_nil _)
    intro heard member
    obtain rfl := List.mem_singleton.mp (List.mem_filter.mp member).1
    exact fun same => absurd (other.symm.trans same) Bool.false_ne_true
  · rfl

/-- Whether no element was started, no connection was traversed and no visit was counted since: the
records are the same, or they were forgotten and are empty. -/
structure Ceased (s s' : Session) : Prop where
  heard : s'.heardLeads = s.heardLeads
  records : s'.processed = s.processed ∧ s'.starts = s.starts ∧ s'.traversals = s.traversals ∧
      s'.entrances = s.entrances ∧ s'.steps = s.steps ∨
    s'.processed = [] ∧ s'.starts = [] ∧ s'.traversals = 0 ∧ s'.entrances = 0 ∧ s'.steps = 0

namespace Ceased

theorem refl (s : Session) : s.Ceased s := ⟨rfl, .inl ⟨rfl, rfl, rfl, rfl, rfl⟩⟩

theorem trans {s₁ s₂ s₃ : Session} (h : s₁.Ceased s₂) (h' : s₂.Ceased s₃) : s₁.Ceased s₃ := by
  refine ⟨h'.heard.trans h.heard, ?_⟩
  rcases h'.records with ⟨processed, starts, traversals, entrances, steps⟩ | forgotten
  · rw [processed, starts, traversals, entrances, steps]
    exact h.records
  · exact .inr forgotten

/-- What is settled stays so. -/
theorem settled {s s' : Session} (h : s.Ceased s') (settled : s.Settled) : s'.Settled := by
  rcases h.records with ⟨processed, starts, traversals, entrances, steps⟩ |
    ⟨processed, starts, traversals, entrances, steps⟩
  · refine ⟨?_, ?_⟩
    · rw [steps, traversals, entrances]
      exact settled.visits
    · rw [starts, processed]
      exact settled.starts
  · refine ⟨?_, ?_⟩
    · rw [steps, traversals, entrances]
    · rw [starts, processed]

/-- A session with the same records, in which listeners have heard the same of visits. -/
theorem of_eq {s s' : Session} (heard : s'.heardVisits = s.heardVisits) (processed : s'.processed = s.processed)
    (history : s'.history = s.history) (steps : s'.steps = s.steps) : s.Ceased s' := by
  refine ⟨congrArg (List.filter _) heard, .inl ⟨processed, ?_, ?_, ?_, steps⟩⟩
  · rw [starts, starts, history]
  · rw [traversals, traversals, history]
  · rw [entrances, entrances, history]

theorem kept {s s' : Session} (h : Kept s s') : s.Ceased s' :=
  of_eq h.heard h.processed h.history h.steps

/-- Forgetting a run counts nothing. -/
theorem cleared (s : Session) : s.Ceased s.cleared := ⟨rfl, .inr ⟨rfl, rfl, rfl, rfl, rfl⟩⟩

/-- A happening by which no element is started, turned to or led to. -/
theorem note (s : Session) {x : Happening} (start : x.started? = none) (still : x.isTraversal = false)
    (outside : x.isEntrance = false) : s.Ceased (s.note x) := by
  refine ⟨rfl, .inl ⟨rfl, ?_, ?_, ?_, rfl⟩⟩
  · rw [note_starts, start]
    exact List.append_nil _
  · exact List.countP_cons_of_neg (by rw [still]; exact Bool.false_ne_true)
  · exact List.countP_cons_of_neg (by rw [outside]; exact Bool.false_ne_true)

/-- Listeners may hear that an element is over. -/
theorem hears (s : Session) {e : Event} (quiet : e.leads = false) : s.Ceased (s.hears e) := by
  refine ⟨s.hears_filtered quiet, .inl ?_⟩
  unfold Session.hears
  split <;> exact ⟨rfl, rfl, rfl, rfl, rfl⟩

end Ceased

end Session

/-- What can happen to a session that does not run. -/
inductive Lull (s : Session) : Session → Prop
  | beat {s' : Session} : Beat s s' → Lull s s'
  /-- The variables of a run were no mapping, which is noticed when the last run is forgotten. -/
  | spoiled (options : Options) (listener : Listener) : Lull s { s.cleared with options, listener }

abbrev Lulls : Session → Session → Prop := Relation.ReflTransGen Lull

theorem Beats.lulls {s s' : Session} (h : Beats s s') : Lulls s s' :=
  Relation.ReflTransGen.mono (fun _ _ => .beat) _ _ h

section Idle

variable {s s' : Session}

theorem Beat.idle (h : Beat s s') (idle : s.running = false) (settled : s.Settled) :
    s'.running = false ∧ s.Ceased s' := by
  have inactive : s.active ≠ true := fun on => by
    rw [Session.running_of_active on] at idle
    cases idle
  cases h with
  | deed d =>
      have runs := (Relation.ReflTransGen.single d |> Deeds.runsOn).running
      refine ⟨runs.trans idle, ?_⟩
      rcases d.kept with kept | gone
      · exact .kept kept
      · cases d with
        | reset _ => exact .cleared s
        | _ => exact absurd gone.size (by simp)
  | entered _ on _ => exact absurd on inactive
  | traversed _ on _ => exact absurd on inactive
  | counted owed =>
      rw [settled.visits] at owed
      exact absurd owed (Nat.lt_irrefl _)
  | turned _ on _ => exact absurd on inactive
  | started id owed =>
      rw [settled.starts] at owed
      have length := congrArg List.length owed
      rw [List.length_append, List.length_singleton] at length
      omega
  | opened id => exact ⟨idle, .of_eq rfl rfl rfl rfl⟩
  | recorded id e =>
      have written : s.Ceased (s.withSlots s.run (s.slots.write id (.text e.port) e.value)) :=
        .of_eq rfl rfl rfl rfl
      exact ⟨idle, written.trans (.note _ rfl rfl rfl)⟩
  | completed id =>
      have noted : s.Ceased (s.note (.completed id)) := .note s rfl rfl rfl
      exact ⟨(s.completing_runsOn id).running.trans idle, noted.trans (.hears _ rfl)⟩
  | failed f _ => exact ⟨idle, .note s rfl rfl rfl⟩
  | spent on => exact absurd on inactive

/-- Whatever happens to a session that does not run, nothing is started, traversed or counted in it. -/
theorem Lulls.ceased (h : Lulls s s') (idle : s.running = false) (settled : s.Settled) :
    s'.running = false ∧ s.Ceased s' := by
  induction h with
  | refl => exact ⟨idle, .refl s⟩
  | @tail s₁ s₂ _ lull ih =>
      obtain ⟨idle₁, ceased⟩ := ih
      have more : s₂.running = false ∧ s₁.Ceased s₂ := by
        cases lull with
        | beat beat => exact beat.idle idle₁ (ceased.settled settled)
        | spoiled options listener => exact ⟨idle₁, ⟨rfl, .inr ⟨rfl, rfl, rfl, rfl, rfl⟩⟩⟩
      exact ⟨more.1, ceased.trans more.2⟩

end Idle

/-! ### Worlds whose session does not run -/

namespace World

variable {α : Type} {task : Nat} {w w' : World α} {c : Course}

/-- Whether a world has a session as it is, or has just taken it for a run. -/
def Has (w : World α) (s : Session) : Prop :=
  w.session = s ∨ ∃ options listener bindings, w.session = s.taken options listener bindings

/-- Whether a world has what came of a session while it did not run. -/
def Lapses (w : World α) (s : Session) : Prop := ∃ s', Lulls s s' ∧ w.Has s'

theorem Lapses.of_lulls {s : Session} (h : Lulls s w.session) : w.Lapses s := ⟨_, h, .inl rfl⟩

theorem Lapses.head {s s' : Session} (h : Lulls s s') (lapses : w.Lapses s') : w.Lapses s := by
  obtain ⟨s'', more, has⟩ := lapses
  exact ⟨s'', h.trans more, has⟩

/-- Beginning an execution is refused, or takes the session as it is. -/
theorem begin_lapses (w : World α) (task : Nat) (r : Request) (idle : w.session.running = false) :
    (∃ e w', w.begin task r = (.inl e, w') ∧ Lulls w.session w'.session ∧ w'.session.running = false) ∨
      ∃ p w', w.begin task r = (.inr p, w') ∧
        ∃ options listener bindings, w'.session = w.session.taken options listener bindings := by
  have told : ∀ options f, Lulls w.session (w.refuse r options f).2.session ∧
      (w.refuse r options f).2.session.running = false := by
    intro options f
    have deeds : Deeds w.session (Session.tell 2 w.session options r.listener (.error f)) :=
      Session.tell_discreet 2 _ _ _ _ (.inr rfl)
    exact ⟨deeds.beats.lulls, deeds.runsOn.running.trans idle⟩
  unfold World.begin
  cases r.options with
  | error f => exact .inl ⟨_, _, rfl, .refl, idle⟩
  | ok options =>
      simp only [idle, Bool.false_eq_true, if_false]
      split
      · exact .inl ⟨_, _, rfl, told options .shuttingDown⟩
      · split
        · exact .inl ⟨_, _, rfl, .single (.spoiled options r.listener), idle⟩
        · rename_i bindings _
          refine .inr ⟨_, _, rfl, options, r.listener, bindings, ?_⟩
          exact (schedule_quiet _ _ _ _).session

/-- A caller with nothing left to do comes to its end. -/
theorem commandNil_quiet (w : World α) (task : Nat) (started : List Nat) :
    Quiet (w.withWork task (.caller ⟨[], .over, started⟩)) (w.command task started []) := by
  unfold World.command
  exact finish_quiet _ _ fun y here k same => by
    rw [withWork_work, if_pos rfl] at here
    obtain ⟨_, _, rfl⟩ := Option.map_eq_some_iff.mp here
    cases same

/-- What a caller does while the session does not run. -/
theorem command_lapses (commands : List (Command α)) (proper : ∀ x ∈ commands, x.Proper) (w : World α)
    (task : Nat) (started : List Nat) (idle : w.session.running = false) :
    (w.command task started commands).Lapses w.session := by
  induction commands generalizing w started with
  | nil =>
      exact .of_lulls ((w.commandNil_quiet task started).session ▸ .refl)
  | cons x rest ih =>
      have first := proper x List.mem_cons_self
      have others : ∀ x ∈ rest, x.Proper := fun x member => proper x (List.mem_cons_of_mem _ member)
      cases x with
      | act f =>
          have deeds : Deeds w.session (f w.session).2 := first w.session
          exact .head deeds.beats.lulls
            (ih others ((w.withSession (f w.session).2).reply (.acted (f w.session).1)) started
              (deeds.runsOn.running.trans idle))
      | wait length =>
          refine .of_lulls ?_
          have quiet := (sleep_quiet (w.withWork task (.caller ⟨rest, .waiting, started⟩)) task length).session
          unfold World.command
          rw [quiet]
          exact .refl
      | execute r =>
          unfold World.command
          rcases w.begin_lapses task r idle with ⟨e, w', same, lulls, idle⟩ | ⟨p, w', same, taken⟩
          · simp only [same]
            exact .head lulls (ih others (w'.reply (.executed e)) started idle)
          · simp only [same]
            exact ⟨w.session, .refl, .inr taken⟩
      | start r => exact ih others (w.spawn (.runner (.fresh r)) []).2 _ idle
      | cancel =>
          cases started with
          | nil => exact ih others w [] idle
          | cons runner older =>
              have same := (w.cancel_quiet runner).session
              have lapses := ih others (w.cancel runner) (runner :: older) (same ▸ idle)
              rw [same] at lapses
              exact lapses
      | join =>
          cases started with
          | nil => exact ih others w [] idle
          | cons runner older =>
              cases ceased : w.execution? runner with
              | some e =>
                  simp only [World.command, ceased]
                  exact ih others (w.reply (.executed e)) older idle
              | none =>
                  have quiet := (w.park_quiet task).trans (watch_quiet _ runner [.wake task])
                  simp only [World.command, ceased]
                  exact .of_lulls (quiet.session ▸ .refl)

end World

end BlockGraph
