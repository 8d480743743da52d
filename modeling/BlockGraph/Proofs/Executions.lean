import BlockGraph.Proofs.Walks
/-!
How worlds begin and end executions, and what callers do: turns of the course that a world shows.
-/
namespace BlockGraph

/-- The variables that a run is given. -/
def Request.bindings? (r : Request) : Except Fault Entries :=
  (if r.bindings.isTrue then r.bindings else .mapping []).toEntries

namespace World

variable {α : Type}

theorem conclude_replies (w : World α) (task : Nat) (p : Pending) (cancelled : Bool) :
    (w.conclude task p cancelled).2.replies = w.replies := by
  have leaving := (w.unschedule_quiet task).trans (cancel_quiet _ p.walk)
  unfold World.conclude
  simp only
  split
  · exact leaving.replies
  · split
    · rfl
    · rfl
    · exact leaving.replies
    · exact leaving.replies

namespace Shows

section Updates

variable {task : Nat} {except? : Option Nat} {w : World α} {c c' : Course}

/-- A task gets its turn; what it waited for is no longer looked at. -/
theorem except (h : Shows none w c) (outer : ∀ x, w.work? task = some x → ¬x.Inner) :
    Shows (some task) w c :=
  { h with
    pending := fun i p _ => h.pending i p nofun
    single := fun i j p q _ _ => h.single i j p q nofun nofun
    outer := by
      intro i x turn here
      cases turn
      exact outer x here }

/-- The session changes, and the traversal stays where it is. -/
theorem withSession (h : Shows except? w c) (stage : c'.stage = c.stage)
    (retains : c.session.Retains c'.session) (ended : c.ended ⊆ c'.ended)
    (running : ∀ i p, except? ≠ some i → w.pending? i = some p → c'.session.running = true) :
    Shows except? (w.withSession c'.session) c' where
  session := rfl
  sound := ⟨Nat.lt_of_lt_of_le h.sound.1 retains.size, stage ▸ h.sound.2.retains retains⟩
  stage := stage ▸ h.stage
  walks := h.walks
  known i a here := retains.knows (h.known i a here)
  pending i p apart here := ⟨running i p apart here, (h.pending i p apart here).2⟩
  single := h.single
  ended e ceased := ended (h.ended e ceased)
  proper := h.proper
  outer := h.outer

theorem aside (h : Shows except? w c) {s' : Session} (deeds : Deeds w.session s') :
    ∃ c', Turn c c' ∧ Shows except? (w.withSession s') c' := by
  have deeds : Deeds c.session s' := h.session ▸ deeds
  let c' : Course := ⟨s', c.stage, c.ended⟩
  have shown : Shows except? (w.withSession c'.session) c' := by
    refine h.withSession rfl deeds.retains (List.Subset.refl _) fun i p apart here => ?_
    exact deeds.runsOn.running.trans (h.pending i p apart here).1
  exact ⟨c', .passed (.aside c.stage c.ended id deeds), shown⟩

/-- A caller is told something that the course knows. -/
theorem reply (h : Shows except? w c) {r : Reply α} (known : ∀ e, r = .executed e → e ∈ c.ended) :
    Shows except? (w.reply r) c :=
  { h with
    ended := by
      rintro e (replied | ceased)
      · rcases Array.mem_push.mp replied with old | new
        · exact h.ended e (.inl old)
        · exact known e new.symm
      · exact h.ended e (.inr ceased) }

/-- A task of a caller comes to work at something for a caller. -/
theorem put (h : Shows (some task) w c) {x : Work α} (outer : ¬x.Inner) (proper : x.Proper)
    (pending : ∀ p, x.pending? = some p → c.session.running = true ∧ w.walk? = some p.walk ∧
      ∀ i, i ≠ task → w.pending? i = none)
    (ended : ∀ e, x = .runner (.over e) → e ∈ c.ended) : Shows none (w.withWork task x) c := by
  have work : ∀ i y, (w.withWork task x).work? i = some y →
      i = task ∧ y = x ∨ i ≠ task ∧ w.work? i = some y := by
    intro i y here
    rw [withWork_work] at here
    split at here
    · rename_i same
      obtain ⟨_, _, rfl⟩ := Option.map_eq_some_iff.mp here
      exact .inl ⟨same.symm, rfl⟩
    · rename_i other
      exact .inr ⟨Ne.symm other, here⟩
  have waits : ∀ i p, (w.withWork task x).pending? i = some p →
      i = task ∧ x.pending? = some p ∨ i ≠ task ∧ w.pending? i = some p := by
    intro i p here
    obtain ⟨y, there, waits⟩ := Option.bind_eq_some_iff.mp here
    rcases work i y there with ⟨turn, rfl⟩ | ⟨other, old⟩
    · exact .inl ⟨turn, waits⟩
    · exact .inr ⟨other, Option.bind_eq_some_iff.mpr ⟨y, old, waits⟩⟩
  have apart : ∀ i, i ≠ task → some task ≠ some i := fun i other same =>
    other (Option.some.inj same).symm
  have inside : ∀ i y, y.Inner → w.work? i = some y → (w.withWork task x).work? i = some y := by
    intro i y inner old
    have other : task ≠ i := fun same => h.outer i y (congrArg some same) old inner
    rw [withWork_work, if_neg other, old]
  refine ⟨h.session, h.sound, ?_, ?_, ?_, ?_, ?_, ?_, ?_, ?_⟩
  · exact h.stage.of_work rfl inside
  · intro i k here away
    rw [withWork_hasEnded] at away
    rcases work i _ here with ⟨_, same⟩ | ⟨_, old⟩
    · exact absurd (same ▸ .walk k) outer
    · exact h.walks i k old away
  · intro i a here
    rcases work i _ here with ⟨_, same⟩ | ⟨_, old⟩
    · exact absurd (same ▸ .attempt a) outer
    · exact h.known i a old
  · intro i p _ here
    rcases waits i p here with ⟨_, now⟩ | ⟨other, old⟩
    · exact ⟨(pending p now).1, (pending p now).2.1⟩
    · exact h.pending i p (apart i other) old
  · intro i j p q _ _ here here'
    rcases waits i p here with ⟨turn, now⟩ | ⟨other, old⟩ <;>
      rcases waits j q here' with ⟨turn', now'⟩ | ⟨other', old'⟩
    · rw [turn, turn']
    · rw [(pending p now).2.2 j other'] at old'
      cases old'
    · rw [(pending q now').2.2 i other] at old
      cases old
    · exact h.single i j p q (apart i other) (apart j other') old old'
  · rintro e (replied | ⟨i, here⟩)
    · exact h.ended e (.inl replied)
    · rcases work i _ ((execution?_eq _ i e).mp here) with ⟨_, same⟩ | ⟨_, old⟩
      · exact ended e same.symm
      · exact h.ended e (.inr ⟨i, (execution?_eq w i e).mpr old⟩)
  · intro i y here
    rcases work i y here with ⟨_, rfl⟩ | ⟨_, old⟩
    · exact proper
    · exact h.proper i y old
  · intro i y turn
    cases turn

end Updates

section Ends

variable {task : Nat} {w : World α} {c : Course}

/-- An execution is over before it comes to a run. -/
theorem refused {except? : Option Nat} (h : Shows except? w c) {e : Execution}
    (session : e.session = w.session) (refusal : e.outcome.Refusal) :
    ∃ c', Turn c c' ∧ Shows except? w c' ∧ e ∈ c'.ended :=
  ⟨{ c with ended := e :: c.ended }, .refused c e (session.trans h.session) refusal,
    { h with ended := fun e ceased => List.mem_cons_of_mem _ (h.ended e ceased) }, List.mem_cons_self⟩

/-- An execution ends, and the session no longer runs. -/
theorem close (h : Shows (some task) w c) {o : Outcome} {s' : Session} (began : Rat) (listener : Nat)
    (running : c.session.running = true) (alone : ∀ i, i ≠ task → w.pending? i = none)
    (how : Concludes c.session c.stage o s') :
    ∃ c', Turn c c' ∧ Shows (some task) (w.close began listener o s').2 c' ∧
      (w.close began listener o s').1 ∈ c'.ended := by
  let e := (w.close began listener o s').1
  let c' : Course := ⟨s'.closed, c.stage, e :: c.ended⟩
  have retains : s'.Retains s'.closed := ⟨Nat.le_refl _, fun known => known⟩
  have shown : Shows (some task) (w.withSession c'.session) c' := by
    refine h.withSession rfl ((how.kept running).retains.trans retains) (List.subset_cons_self _ _) ?_
    intro i p apart here
    rw [alone i fun same => apart (congrArg some same.symm)] at here
    cases here
  exact ⟨c', .concluded c.stage c.ended e running how rfl, shown, List.mem_cons_self⟩

theorem walkEnd?_eq (w : World α) (i : Nat) (e : WalkEnd) :
    w.walkEnd? i = some e ↔ ∃ t, w.work? i = some (.walk ⟨t, .over e⟩) := by
  unfold walkEnd? work?
  cases w.tasks[i]? with
  | none => exact ⟨nofun, nofun⟩
  | some t =>
      obtain ⟨work, _, _, _⟩ := t
      cases work with
      | walk k =>
          obtain ⟨t, mode⟩ := k
          cases mode <;> simp
      | _ => simp

theorem conclude_work (w : World α) (task : Nat) (p : Pending) (cancelled : Bool) (i : Nat) :
    (w.conclude task p cancelled).2.work? i = w.work? i := by
  have leaving := (w.unschedule_quiet task).trans (cancel_quiet _ p.walk)
  unfold World.conclude
  simp only
  split
  · exact leaving.work i
  · split
    · rfl
    · rfl
    · exact leaving.work i
    · exact leaving.work i

/-- The wait of an execution is over. -/
theorem conclude (h : Shows (some task) w c) {p : Pending} (running : c.session.running = true)
    (walk : w.walk? = some p.walk) (alone : ∀ i, i ≠ task → w.pending? i = none) (cancelled : Bool) :
    ∃ c', Turn c c' ∧ Shows (some task) (w.conclude task p cancelled).2 c' ∧
      (w.conclude task p cancelled).1 ∈ c'.ended := by
  have waiting := w.unschedule_quiet task
  have leaving := waiting.trans (cancel_quiet _ p.walk)
  have aborted : ∃ c', Turn c c' ∧ Shows (some task) ((w.unschedule task).abort p).2 c' ∧
      ((w.unschedule task).abort p).1 ∈ c'.ended := by
    refine (h.quiet leaving).close _ _ running (fun i other => ?_) ?_
    · exact (leaving.pending i).trans (alone i other)
    · exact h.session ▸ .cancelled c.stage
  have ends : ∀ e, (w.unschedule task).walkEnd? p.walk = some e → c.stage = .over e := by
    intro e ceased
    obtain ⟨t, here⟩ := (walkEnd?_eq w p.walk e).mp ceased
    exact (Option.some.inj (h.came walk here)).symm
  unfold World.conclude
  simp only
  split
  · exact aborted
  · split
    · rename_i ceased
      refine (h.quiet waiting).close _ _ running alone ?_
      exact ends _ ceased ▸ h.session ▸ .finished
    · rename_i f ceased
      refine (h.quiet waiting).close _ _ running alone ?_
      exact ends _ ceased ▸ h.session ▸ .failed f
    · exact aborted
    · refine (h.quiet leaving).close _ _ running (fun i other => ?_) ?_
      · exact (leaving.pending i).trans (alone i other)
      · exact h.session ▸ .outOfTime c.stage _

end Ends

section Beginnings

variable {task : Nat} {w : World α} {c : Course}

/-- When the last traversal is over, all of them are. -/
theorem free {except? : Option Nat} (h : Shows except? w c)
    (ceased : (w.walk?.any fun i => !w.isOver i) = false) :
    (∃ e, c.stage = .over e) ∧ ∀ i k, w.work? i = some (.walk k) → ∃ e, k.mode = .over e := by
  have stage := h.stage
  unfold AtStage at stage
  cases walk : w.walk? with
  | none =>
      rw [walk] at stage
      refine ⟨⟨_, stage⟩, fun i k here => h.walks i k here (.inl ?_)⟩
      rw [walk]
      exact nofun
  | some i =>
      rw [walk] at stage ceased
      obtain ⟨k, here, shown⟩ := stage
      have ended : w.hasEnded i = true := by
        simp only [work?, Option.map_eq_some_iff] at here
        obtain ⟨t, found, _⟩ := here
        simpa [isOver, hasEnded, found] using ceased
      have last : ∃ e, k.mode = .over e := h.walks i k here (.inr ended)
      refine ⟨?_, fun j k' here' => ?_⟩
      · obtain ⟨e, mode⟩ := last
        unfold stageOf at shown
        rw [mode] at shown
        exact ⟨e, (Option.some.inj shown).symm⟩
      · by_cases same : i = j
        · subst same
          cases Option.some.inj (here.symm.trans here')
          exact last
        · exact h.walks j k' here' (.inl fun some => same (Option.some.inj (walk.symm.trans some)))

/-- A session that is free is taken for a run; its traversal is about to open. -/
theorem take (h : Shows (some task) w c) {y : Work α} (there : w.work? task = some y)
    (idle : w.session.running = false) (ceased : ∃ e, c.stage = .over e)
    (rest : ∀ i k, w.work? i = some (.walk k) → ∃ e, k.mode = .over e) {options : Options}
    (budget : 0 < options.maxSteps) (listener : Listener) (bindings : Entries)
    (watchers : List Watcher) {w' : World α}
    (taken : w' = { ((w.withSession (w.session.taken options listener bindings)).spawn
      (.walk ⟨⟨[], []⟩, .opening⟩) watchers).2 with walk? := some w.tasks.size }) :
    ∃ c', Turn c c' ∧ Shows (some task) w' c' ∧ w'.work? task = some y ∧
      c'.session.running = true ∧ ∀ i, i ≠ task → w'.pending? i = none := by
  obtain ⟨e, stage⟩ := ceased
  have session : c.session = w.session := h.session.symm
  obtain ⟨s₀, st, es⟩ := c
  cases session
  cases stage
  have retains := w.session.taken_retains listener bindings budget
  have running : (w.session.taken options listener bindings).running = true := by
    obtain ⟨s', fresh, _, _, kept⟩ := w.session.taken_fresh listener bindings budget
    exact kept.running.trans fresh.running
  have old : ∀ i x, w'.work? i = some x →
      i = w.tasks.size ∧ x = .walk ⟨⟨[], []⟩, .opening⟩ ∨ w.work? i = some x := by
    intro i x here
    rw [taken] at here
    exact spawn_old here
  have alone : ∀ i, i ≠ task → w'.pending? i = none := by
    intro i other
    refine Option.eq_none_iff_forall_ne_some.mpr fun p waits => ?_
    obtain ⟨x, here, waits⟩ := Option.bind_eq_some_iff.mp waits
    rcases old i x here with ⟨_, rfl⟩ | before
    · cases waits
    · have on := (h.pending i p (fun same => other (Option.some.inj same).symm)
        (Option.bind_eq_some_iff.mpr ⟨x, before, waits⟩)).1
      rw [idle] at on
      cases on
  have walk : w'.walk? = some w.tasks.size := by rw [taken]
  have still : w'.work? task = some y := by
    rw [taken]
    exact spawn_kept there _ watchers
  refine ⟨⟨w.session.taken options listener bindings, .opening, es⟩,
    .begun e es options listener bindings idle budget, ?_, still, running, alone⟩
  constructor
  case session => rw [taken]; rfl
  case sound => exact ⟨Nat.lt_of_lt_of_le h.sound.1 retains.size, Stage.opening_sound _⟩
  case stage =>
    unfold AtStage
    rw [walk]
    refine ⟨⟨⟨[], []⟩, .opening⟩, ?_, rfl⟩
    rw [taken]
    exact (spawn_work _ _ watchers _).trans (if_pos rfl)
  case walks =>
    intro i k here away
    rcases old i _ here with ⟨rfl, _⟩ | before
    · rcases away with other | ceased
      · exact absurd walk other
      · rw [taken] at ceased
        have ceased := spawn_hasEnded _ _ watchers _ ceased
        have none : w.tasks[w.tasks.size]? = none := Array.getElem?_eq_none (Nat.le_refl _)
        simp only [hasEnded, World.withSession, none] at ceased
        cases ceased
    · exact rest i k before
  case known =>
    intro i a here
    rcases old i _ here with ⟨_, same⟩ | before
    · cases same
    · exact retains.knows (h.known i a before)
  case pending =>
    intro i p apart here
    rw [alone i fun same => apart (congrArg some same.symm)] at here
    cases here
  case single =>
    intro i j p q apart _ here _
    rw [alone i fun same => apart (congrArg some same.symm)] at here
    cases here
  case ended =>
    rintro e (replied | ⟨i, here⟩)
    · rw [taken] at replied
      exact h.ended e (.inl replied)
    · rcases old i _ ((execution?_eq _ i e).mp here) with ⟨_, same⟩ | before
      · cases same
      · exact h.ended e (.inr ⟨i, (execution?_eq w i e).mpr before⟩)
  case proper =>
    intro i x here
    rcases old i x here with ⟨_, rfl⟩ | before
    · trivial
    · exact h.proper i x before
  case outer =>
    intro i x turn here
    rcases old i x here with ⟨rfl, _⟩ | before
    · cases turn
      rw [work_size] at there
      cases there
    · exact h.outer i x turn before

/-- The last run is forgotten, and no other one begins. -/
theorem spoil (h : Shows (some task) w c) (idle : w.session.running = false)
    (ceased : (w.walk?.any fun i => !w.isOver i) = false) (options : Options) (listener : Listener) :
    ∃ c', Turn c c' ∧
      Shows (some task) (w.withSession { w.session.cleared with options, listener }) c' := by
  obtain ⟨⟨e, stage⟩, _⟩ := h.free ceased
  have session : c.session = w.session := h.session.symm
  obtain ⟨s, st, es⟩ := c
  cases session
  cases stage
  let c' : Course := ⟨{ w.session.cleared with options, listener }, .over e, es⟩
  have retains : w.session.Retains c'.session := .of_lt w.session.cleared_size
  have shown : Shows (some task) (w.withSession c'.session) c' := by
    refine h.withSession rfl retains (List.Subset.refl _) fun i p apart here => ?_
    have on := (h.pending i p apart here).1
    rw [idle] at on
    cases on
  exact ⟨c', .spoiled e es options listener idle, shown⟩

/-- Beginning an execution comes to its end at once, or to a run. -/
theorem begin (h : Shows (some task) w c) {y : Work α} (there : w.work? task = some y) {r : Request}
    (proper : r.Proper) : ∃ c', Turns c c' ∧ Shows (some task) (w.begin task r).2 c' ∧
      (w.begin task r).2.work? task = some y ∧ match (w.begin task r).1 with
      | .inl e => e ∈ c'.ended
      | .inr p => c'.session.running = true ∧ (w.begin task r).2.walk? = some p.walk ∧
        ∀ i, i ≠ task → (w.begin task r).2.pending? i = none := by
  have told : ∀ (options : Options) (f : RunFault), Outcome.Refusal (.failed f) →
      ∃ c', Turns c c' ∧ Shows (some task) (w.refuse r options f).2 c' ∧
        (w.refuse r options f).2.work? task = some y ∧ (w.refuse r options f).1 ∈ c'.ended := by
    intro options f refusal
    have deeds : Deeds w.session (Session.tell 2 w.session options r.listener (.error f)) :=
      Session.tell_discreet 2 _ _ _ _ (.inr rfl)
    obtain ⟨c₁, turn, shown⟩ := h.aside deeds
    obtain ⟨c₂, turn', shown, ceased⟩ := shown.refused (e := (w.refuse r options f).1) rfl refusal
    exact ⟨c₂, (Relation.ReflTransGen.single turn).tail turn', shown, there, ceased⟩
  unfold World.begin
  simp only
  split
  · rename_i f _
    obtain ⟨c', turn, shown, ceased⟩ :=
      h.refused (e := ⟨.refused f, w.session, 0, r.listener.number⟩) rfl (.options f)
    exact ⟨c', .single turn, shown, there, ceased⟩
  · rename_i options accepted
    split
    · exact told options .inProgress .inProgress
    · rename_i idle
      split
      · exact told options .shuttingDown .shuttingDown
      · rename_i ceased
        have idle : w.session.running = false := Bool.eq_false_iff.mpr idle
        have ceased : (w.walk?.any fun i => !w.isOver i) = false := Bool.eq_false_iff.mpr ceased
        split
        · rename_i f _
          obtain ⟨c₁, turn, shown⟩ := h.spoil idle ceased options r.listener
          let e : Execution := ⟨.failed (.value f), { w.session.cleared with
            options, listener := r.listener }, 0, r.listener.number⟩
          obtain ⟨c₂, turn', shown, ended⟩ := shown.refused (e := e) rfl (.bindings f)
          exact ⟨c₂, (Relation.ReflTransGen.single turn).tail turn', shown, there, ended⟩
        · rename_i bindings _
          have parked := w.park_quiet task
          obtain ⟨ended, rest⟩ := h.free ceased
          obtain ⟨c', turn, shown, still, running, alone⟩ := (h.quiet parked).take
            ((parked.work task).trans there) idle ended
            (fun i k here => rest i k ((parked.work i).symm.trans here))
            (proper options accepted).budget r.listener bindings [.release task w.tickets] rfl
          exact ⟨c', .single turn, shown.quiet (schedule_quiet _ _ _ _),
            ((schedule_quiet _ _ _ _).work task).trans still, running,
            (schedule_quiet _ _ _ _).walk?, fun i other =>
              ((schedule_quiet _ _ _ _).pending i).trans (alone i other)⟩

end Beginnings

end Shows

end World
end BlockGraph
