import BlockGraph.Proofs.Arrival
import BlockGraph.Proofs.Rounds
/-!
Executions that are left alone: no timer gives up what they wait for, and nobody cancels them. The
traversal of such a run goes from stage to stage by itself, so the execution comes to what the recursion
comes to.
-/
namespace BlockGraph

/-- Whether an execution has come to the result of a recursion. -/
def Execution.Comes (e : Execution) (v : Visit) : Prop :=
  match v with
  | (none, s) => e.outcome = .finished ∧ e.session = s.finished.closed
  | (some f, s) => e.outcome = .failed f ∧ e.session = (s.failedWith f).closed

/-- Left to itself, a traversal goes to its next stage or rests. -/
theorem Passes.leads {c c' : Course} {from_ : Stage × Session} (passes : Passes True c c')
    (h : Stage.Leads from_ (c.stage, c.session)) : Stage.Leads from_ (c'.stage, c'.session) := by
  cases passes with
  | rest => exact h
  | next _ next => exact h.tail next
  | cut _ disturbed _ => exact absurd trivial disturbed
  | aside _ _ disturbed _ => exact absurd trivial disturbed

namespace World

variable {α : Type} {w w' : World α} {task : Nat}

/-- Whether no task of a world was cancelled, and no traversal has given up the logic it waited for. -/
structure Undisturbed (w : World α) : Prop where
  patient : w.Patient
  calm : ∀ (i : Nat) (t : Task α), w.tasks[i]? = some t → t.cancelled = false ∧ t.standing ≠ .interrupted

/-- Any number of steps that disturb nothing. -/
abbrev LeadsCalmly : World α → World α → Prop :=
  Relation.ReflTransGen fun w w' => w.step = some w' ∧ w'.Undisturbed

theorem Quiet.patient (h : w.Patient) (q : Quiet w w') : w'.Patient :=
  fun i k here => h i k ((q.work i).symm.trans here)

/-! ### Logic that is waited for -/

/-- Whether all logic at work in a world, in contexts of some kind, is waited for. -/
def Attended (w : World α) (P : Context → Prop) : Prop :=
  ∀ i a, w.work? i = some (.attempt a) → P a.process.context → w.Awaits i ∨ ∃ y, a.mode = .over y

namespace Attended

variable {P : Context → Prop}

theorem quiet (h : w.Attended P) (q : Quiet w w') : w'.Attended P := by
  intro i a here own
  refine (h i a ((q.work i).symm.trans here) own).imp_left fun ⟨j, k, walk, at_, waits⟩ => ?_
  exact ⟨j, k, q.walk?.trans walk, (q.work j).trans at_, waits⟩

/-- A traversal waits for all new logic, and for old logic until that is over. -/
theorem walk {k k' : Walk} {s : Session} (h : w.Attended P) (here : w.work? task = some (.walk k))
    (put : Puts task (.walk k') s w w') (current : (∀ e, k.mode ≠ .over e) → w.walk? = some task)
    (ceased : ∀ e, k.mode = .over e → k' = k)
    (left : ∀ i, k.mode.awaits? = some i → k'.mode.awaits? = some i ∨ w.AttemptOver i) :
    w'.Attended P := by
  intro i a new own
  have other : i ≠ task := by
    intro same
    rw [same, put.here] at new
    cases new
  rcases put.others i other with old | ⟨_, _, _, _, k'', same, waits⟩
  · have old := old.symm.trans new
    rcases h i a old own with ⟨j, k₀, walk, at_, waits⟩ | done
    · by_cases turn : j = task
      · subst turn
        cases Option.some.inj (here.symm.trans at_)
        rcases left i waits with still | ⟨a', y, here', done⟩
        · exact .inl ⟨j, k', put.walk?.trans walk, put.here, still⟩
        · cases Option.some.inj (old.symm.trans here')
          exact .inr ⟨y, done⟩
      · exact .inl ⟨j, k₀, put.walk?.trans walk, put.still turn at_, waits⟩
    · exact .inr done
  · cases same
    have alive : ∀ e, k.mode ≠ .over e := by
      intro e done
      rw [ceased e done, done] at waits
      cases waits
    exact .inl ⟨task, k', put.walk?.trans (current alive), put.here, waits⟩

theorem attempt {a a' : Attempt} {s : Session} (h : w.Attended P)
    (here : w.work? task = some (.attempt a)) (put : Puts task (.attempt a') s w w')
    (ceased : ∀ y, a.mode = .over y → a' = a) (same : a'.process.context = a.process.context) :
    w'.Attended P := by
  have still : ∀ i, w.Awaits i → w'.Awaits i := by
    rintro i ⟨j, k, walk, at_, waits⟩
    refine ⟨j, k, put.walk?.trans walk, put.still (fun same => ?_) at_, waits⟩
    rw [same, here] at at_
    cases at_
  intro i b new own
  by_cases turn : i = task
  · subst turn
    cases Option.some.inj (put.here.symm.trans new)
    rcases h i a here (same ▸ own) with waits | ⟨y, done⟩
    · exact .inl (still i waits)
    · rw [ceased y done]
      exact .inr ⟨y, done⟩
  · rcases put.others i turn with old | ⟨_, _, _, _, _, same, _⟩
    · exact (h i b (old.symm.trans new) own).imp_left (still i)
    · cases same

end Attended

/-! ### One execution -/

/-- How far the only execution of a session has come, which takes the session for a run at `start`. -/
inductive Solo (s start : Session) (r : Request) (w : World α) (c : Course) : Prop
  | before : w.session = s → w.walk? = none → w.replies = #[] →
      (∀ i x, w.work? i = some x → i = 0 ∧ x = .caller ⟨[.execute r], .ready, []⟩) → Solo s start r w c
  | during (p : Pending) : w.work? 0 = some (.caller ⟨[], .executing p, []⟩) →
      (∀ i x, i ≠ 0 → w.work? i = some x → x.Inner) → w.replies = #[] → w.Attended (fun _ => True) →
      Stage.Leads (.opening, start) (c.stage, c.session) → Solo s start r w c
  | after (e : Execution) : w.work? 0 = some (.caller ⟨[], .over, []⟩) →
      (∀ i x, i ≠ 0 → w.work? i = some x → x.Inner) → w.replies = #[.executed e] →
      ((∃ ms, e.outcome = .failed (.runTimeout ms)) ∨ ∃ v, start.explore = some v ∧ e.Comes v) →
      Solo s start r w c

variable {s start : Session} {r : Request} {c : Course}

theorem Solo.quiet (h : Solo s start r w c) (q : Quiet w w') : Solo s start r w' c := by
  cases h with
  | before session walk replies caller =>
      exact .before (q.session.trans session) (q.walk?.trans walk) (q.replies.trans replies)
        fun i x here => caller i x ((q.work i).symm.trans here)
  | during p caller inner replies attended leads =>
      exact .during p ((q.work 0).trans caller) (fun i x other here =>
        inner i x other ((q.work i).symm.trans here)) (q.replies.trans replies) (attended.quiet q) leads
  | after e caller inner replies comes =>
      exact .after e ((q.work 0).trans caller) (fun i x other here =>
        inner i x other ((q.work i).symm.trans here)) (q.replies.trans replies) comes

/-- A turn of the traversal or of its logic, while the execution is under way or after it. -/
theorem Solo.puts {c' : Course} {x : Work α} (h : Solo s start r w c) (other : task ≠ 0)
    (here : ∃ y, w.work? task = some y) (put : Puts task x c'.session w w') (within : x.Inner)
    (goes : w.Attended (fun _ => True) → Stage.Leads (.opening, start) (c.stage, c.session) →
      w'.Attended (fun _ => True) ∧ Stage.Leads (.opening, start) (c'.stage, c'.session)) : Solo s start r w' c' := by
  have inside : (∀ i x, i ≠ 0 → w.work? i = some x → x.Inner) →
      ∀ i x, i ≠ 0 → w'.work? i = some x → x.Inner := by
    intro inner i y apart here
    rcases put.outer within here with new | old
    · exact new
    · exact inner i y apart old
  cases h with
  | before _ _ _ caller =>
      obtain ⟨y, here⟩ := here
      exact absurd (caller task y here).1 other
  | during p caller inner replies attended leads =>
      obtain ⟨attended, leads⟩ := goes attended leads
      exact .during p (put.still (Ne.symm other) caller) (inside inner) (put.replies.trans replies)
        attended leads
  | after e caller inner replies comes =>
      exact .after e (put.still (Ne.symm other) caller) (inside inner) (put.replies.trans replies) comes

/-! ### The caller -/

/-- An idle session is taken for a run, whose traversal is a new task. -/
theorem begin_taken (task : Nat) {options : Options} {bindings : Entries}
    (accepted : r.options = .ok options) (named : r.bindings? = .ok bindings)
    (idle : w.session.running = false) (first : w.walk? = none) :
    ∃ p w', w.begin task r = (.inr p, w') ∧
      w'.session = w.session.taken options r.listener bindings ∧ w'.walk? = some p.walk ∧
      w'.replies = w.replies ∧ w.work? p.walk = none ∧
      ∀ i, w'.work? i = if i = p.walk then some (.walk ⟨⟨[], []⟩, .opening⟩) else w.work? i := by
  let w₁ := ((w.withSession (w.session.taken options r.listener bindings)).park task).2
  let w₂ := (w₁.spawn (.walk ⟨⟨[], []⟩, .opening⟩) [.release task w.tickets]).2
  have parked := park_quiet (w.withSession (w.session.taken options r.listener bindings)) task
  obtain ⟨began, length, begun⟩ : ∃ began length, w.begin task r =
      (.inr ⟨r.listener.number, began, w₁.tasks.size⟩,
        { w₂ with walk? := some w₁.tasks.size }.schedule task w.tickets length) := by
    have named : (if r.bindings.isTrue then r.bindings else .mapping []).toEntries = .ok bindings := named
    unfold World.begin
    simp only [accepted, idle, first, named, Option.any_none, Bool.false_eq_true, if_false]
    exact ⟨_, _, rfl⟩
  have scheduled := schedule_quiet { w₂ with walk? := some w₁.tasks.size } task w.tickets length
  refine ⟨_, _, begun, scheduled.session.trans ?_, scheduled.walk?, scheduled.replies, ?_, fun i => ?_⟩
  · exact parked.session
  · exact (parked.work _).symm.trans w₁.work_size
  · refine (scheduled.work i).trans ((spawn_work w₁ _ _ i).trans ?_)
    rw [parked.work i]
    rfl

/-- The caller has its request executed. -/
theorem Solo.begin {options : Options} {bindings : Entries} (accepted : r.options = .ok options)
    (named : r.bindings? = .ok bindings) (idle : w.session.running = false) (first : w.walk? = none)
    (replies : w.replies = #[]) (caller : w.work? 0 = some (.caller ⟨[.execute r], .ready, []⟩))
    (alone : ∀ i x, w.work? i = some x → i = 0) (shown : Shows none w c) :
    ∃ c', Shows none (w.callerTurn 0 ⟨[.execute r], .ready, []⟩ false) c' ∧
      Solo s (w.session.taken options r.listener bindings) r
        (w.callerTurn 0 ⟨[.execute r], .ready, []⟩ false) c' := by
  obtain ⟨p, w₁, begun, session, walk, same, new, work⟩ := begin_taken 0 accepted named idle first
  obtain ⟨c', _, shown'⟩ := shown.callerTurn caller false
  have turn : w.callerTurn 0 ⟨[.execute r], .ready, []⟩ false =
      w₁.withWork 0 (.caller ⟨[], .executing p, []⟩) := by
    show w.command 0 [] [.execute r] = _
    unfold World.command
    rw [begun]
  have apart : 0 ≠ p.walk := by
    intro same
    rw [← same, caller] at new
    cases new
  have here : ∀ i, i ≠ 0 → (w₁.withWork 0 (.caller ⟨[], .executing p, []⟩)).work? i =
      if i = p.walk then some (.walk ⟨⟨[], []⟩, .opening⟩) else none := by
    intro i other
    rw [withWork_work, if_neg (Ne.symm other), work]
    split
    · rfl
    · refine Option.eq_none_iff_forall_ne_some.mpr fun x there => other (alone i x there)
  have inner : ∀ i x, i ≠ 0 → (w₁.withWork 0 (.caller ⟨[], .executing p, []⟩)).work? i = some x →
      x = .walk ⟨⟨[], []⟩, .opening⟩ := by
    intro i x other there
    rw [here i other] at there
    split at there
    · exact (Option.some.inj there).symm
    · cases there
  have working : (w₁.withWork 0 (.caller ⟨[], .executing p, []⟩)).work? 0 =
      some (.caller ⟨[], .executing p, []⟩) := by
    rw [withWork_work, if_pos rfl, work, if_neg apart, caller]
    rfl
  rw [turn] at shown' ⊢
  refine ⟨c', shown', .during p working (fun i x other there => ?_) (same.trans replies)
    (fun i a there _ => ?_) ?_⟩
  · rw [inner i x other there]
    exact .walk _
  · by_cases other : i = 0
    · rw [other, working] at there
      cases there
    · cases inner i _ other there
  · have stage := shown'.came walk ((here p.walk (Ne.symm apart)).trans (if_pos rfl))
    have session : c'.session = w.session.taken options r.listener bindings :=
      shown'.session.symm.trans session
    rw [← Option.some.inj stage, session]

/-- When the wait of an execution is over, the traversal has come to the result of the recursion, unless
time has run out. -/
theorem conclude_comes {p : Pending} (shown : Shows none w c) (walk : w.walk? = some p.walk)
    (leads : Stage.Leads (.opening, start) (c.stage, c.session)) :
    (∃ ms, (w.conclude 0 p false).1.outcome = .failed (.runTimeout ms)) ∨
      ∃ v, start.explore = some v ∧ (w.conclude 0 p false).1.Comes v := by
  have explored : ∀ e, (w.unschedule 0).walkEnd? p.walk = some e →
      e ≠ .cancelled ∧ e.visit? w.session = start.explore := by
    intro e ceased
    obtain ⟨t, here⟩ := (Shows.walkEnd?_eq w p.walk e).mp ceased
    have stage : c.stage = .over e := (Option.some.inj (shown.came walk here)).symm
    have stands := leads.explores trivial
    rw [stage, ← shown.session] at stands
    exact ⟨stands.intact, stands.explores⟩
  unfold World.conclude
  simp only [Bool.false_eq_true, if_false]
  split
  · rename_i ceased
    exact .inr ⟨_, (explored _ ceased).2.symm, rfl, rfl⟩
  · rename_i f ceased
    exact .inr ⟨_, (explored _ ceased).2.symm, rfl, rfl⟩
  · rename_i ceased
    exact absurd rfl (explored _ ceased).1
  · exact .inl ⟨_, rfl⟩

/-- The caller gets the execution back, and has nothing left to do. -/
theorem Solo.conclude {p : Pending} (shown : Shows none w c)
    (caller : w.work? 0 = some (.caller ⟨[], .executing p, []⟩))
    (inner : ∀ i x, i ≠ 0 → w.work? i = some x → x.Inner) (replies : w.replies = #[])
    (leads : Stage.Leads (.opening, start) (c.stage, c.session)) :
    ∃ c', Shows none (w.callerTurn 0 ⟨[], .executing p, []⟩ false) c' ∧
      Solo s start r (w.callerTurn 0 ⟨[], .executing p, []⟩ false) c' := by
  have waits : w.pending? 0 = some p := by rw [World.pending?, caller]; rfl
  obtain ⟨_, walk, _⟩ := shown.waiting waits
  obtain ⟨c', _, shown'⟩ := shown.callerTurn caller false
  have comes := conclude_comes shown walk leads
  let w₁ := (w.conclude 0 p false).2.reply (.executed (w.conclude 0 p false).1)
  have there : w₁.work? 0 = some (.caller ⟨[], .executing p, []⟩) :=
    (Shows.conclude_work w 0 p false 0).trans caller
  have put : Puts 0 (.caller ⟨[], .over, []⟩) w₁.session w₁
      (w.callerTurn 0 ⟨[], .executing p, []⟩ false) :=
    (withWork_puts there (.caller ⟨[], .over, []⟩) w₁.session).finish fun k same => by cases same
  refine ⟨c', shown', .after _ put.here (fun i x other here => ?_) (put.replies.trans ?_) comes⟩
  · rcases put.others i other with old | ⟨_, _, _, _, _, same, _⟩
    · exact inner i x other ((Shows.conclude_work w 0 p false i).symm.trans (old.symm.trans here))
    · cases same
  · show (w.conclude 0 p false).2.replies.push _ = _
    rw [conclude_replies, replies]
    rfl

/-! ### Turns and steps -/

/-- A task has its turn. -/
theorem Solo.works {options : Options} {bindings : Entries} (accepted : r.options = .ok options)
    (named : r.bindings? = .ok bindings) (idle : s.running = false)
    (h : Solo s (s.taken options r.listener bindings) r w c) (shown : Shows none w c) {x : Work α}
    (here : w.work? task = some x) (patient : w.Patient) (after : (w.works task x false).Patient) :
    ∃ c', Shows none (w.works task x false) c' ∧
      Solo s (s.taken options r.listener bindings) r (w.works task x false) c' := by
  by_cases other : task = 0
  · subst other
    cases h with
    | before session walk replies caller =>
        obtain ⟨_, rfl⟩ := caller 0 x here
        rw [← session] at idle ⊢
        exact Solo.begin accepted named idle walk replies here (fun i x there => (caller i x there).1) shown
    | during p caller inner replies attended leads =>
        cases Option.some.inj (caller.symm.trans here)
        exact Solo.conclude shown caller inner replies leads
    | after e caller inner replies comes =>
        cases Option.some.inj (caller.symm.trans here)
        exact ⟨c, shown, .after e caller inner replies comes⟩
  · have inner : x.Inner := by
      cases h with
      | before _ _ _ caller => exact absurd (caller task x here).1 other
      | during _ _ inner _ _ _ => exact inner task x other here
      | after _ _ inner _ _ => exact inner task x other here
    cases inner with
    | walk k =>
        have current : (∀ e, k.mode ≠ .over e) → w.walk? = some task := fun alive =>
          Decidable.byContradiction fun gone =>
            (shown.walks task k here (.inl gone)).elim fun e ceased => alive e ceased
        have walked : Walked True task k w (w.walkTurn task k false) c :=
          shown.walkTurn here false fun _ => ⟨rfl, patient, after⟩
        obtain ⟨c', k', advances, shown', put, ceased, left⟩ := walked
        have waits : ∀ i, k.mode.awaits? = some i → k'.mode.awaits? = some i ∨ w.AttemptOver i :=
          fun i waited => (left i waited).imp_right (Or.resolve_right · fun torn => torn.1 trivial)
        exact ⟨c', shown', h.puts other ⟨_, here⟩ put (.walk k') fun attended leads =>
          ⟨attended.walk here put current ceased waits, advances.passes.leads leads⟩⟩
    | attempt a =>
        by_cases attended : w.Attended fun _ => True
        · have worked : Worked True task a w (w.attemptTurn task a false) c :=
            shown.attemptTurn here false fun _ => ⟨rfl, attended task a here trivial⟩
          obtain ⟨c', a', passes, shown', put, ceased, same⟩ := worked
          exact ⟨c', shown', h.puts other ⟨_, here⟩ put (.attempt a') fun attended leads =>
            ⟨attended.attempt here put ceased same, passes.leads leads⟩⟩
        · have worked : Worked False task a w (w.attemptTurn task a false) c :=
            shown.attemptTurn here false False.elim
          obtain ⟨c', a', _, shown', put, _⟩ := worked
          exact ⟨c', shown', h.puts other ⟨_, here⟩ put (.attempt a') fun waited => absurd waited attended⟩

theorem Solo.step {options : Options} {bindings : Entries} (accepted : r.options = .ok options)
    (named : r.bindings? = .ok bindings) (idle : s.running = false)
    (h : Solo s (s.taken options r.listener bindings) r w c) (shown : Shows none w c)
    (before : w.Undisturbed) (step : w.step = some w') (after : w'.Undisturbed) :
    ∃ c', Shows none w' c' ∧ Solo s (s.taken options r.listener bindings) r w' c' := by
  rcases step_cases step with quiet | ⟨w₁, task, quiet, tasks, rfl⟩
  · exact ⟨c, shown.quiet quiet, h.quiet quiet⟩
  · cases found : w₁.tasks[task]? with
    | none =>
        have still : w₁.turn task = w₁ := by
          unfold World.turn
          simp only [found]
        rw [still]
        exact ⟨c, shown.quiet quiet, h.quiet quiet⟩
    | some t =>
        obtain ⟨calm, standing⟩ := before.calm task t (tasks ▸ found)
        have turning := quiet.trans (w₁.atTurn_quiet task)
        have here : (w₁.atTurn task).work? task = some t.work := by
          rw [(w₁.atTurn_quiet task).work, work?, found]
          rfl
        have calm : (t.cancelled || t.standing == .interrupted) = false := by
          rw [calm, Bool.false_or]
          exact beq_eq_false_iff_ne.mpr standing
        have patient := after.patient
        rw [turn_eq found, calm] at patient ⊢
        exact (h.quiet turning).works accepted named idle (shown.quiet turning) here
          (turning.patient before.patient) patient

/-- An idle session whose caller asks for one execution, before anything has been done. -/
theorem ofCommands_solo (stored : 0 < s.stores.size) (proper : r.Proper) :
    Shows none (ofCommands (α := α) s [.execute r]) (.ofSession s) ∧
      Solo s start r (ofCommands (α := α) s [.execute r]) (.ofSession s) ∧
      Undisturbed (ofCommands (α := α) s [.execute r]) := by
  have only : ∀ (i : Nat) (t : Task α), (ofCommands s [.execute r]).tasks[i]? = some t →
      i = 0 ∧ t = ⟨.caller ⟨[.execute r], .ready, []⟩, .queued, false, []⟩ := by
    intro i t here
    cases i with
    | zero => exact ⟨rfl, (Option.some.inj here).symm⟩
    | succ i => cases here
  have work : ∀ (i : Nat) (x : Work α), (ofCommands s [.execute r]).work? i = some x →
      i = 0 ∧ x = .caller ⟨[.execute r], .ready, []⟩ := by
    intro i x here
    obtain ⟨t, found, rfl⟩ := Option.map_eq_some_iff.mp here
    obtain ⟨rfl, rfl⟩ := only i t found
    exact ⟨rfl, rfl⟩
  refine ⟨ofCommands_shows stored fun x member => ?_, .before rfl rfl rfl work, ⟨fun i k here => ?_,
    fun i t found => ?_⟩⟩
  · rw [List.mem_singleton.mp member]
    exact proper
  · cases (work i _ here).2
  · rw [(only i t found).2]
    exact ⟨rfl, nofun⟩

/-- An execution that ended is the only one there is. -/
theorem Solo.ended (h : Solo s start r w c) {e : Execution} (ceased : w.Ended e) :
    (∃ ms, e.outcome = .failed (.runTimeout ms)) ∨ ∃ v, start.explore = some v ∧ e.Comes v := by
  have outside : ∀ i, w.work? i = some (.runner (.over e)) → i = 0 := by
    intro i here
    cases h with
    | before _ _ _ caller => exact (caller i _ here).1
    | during _ _ inner _ _ _ =>
        exact Decidable.byContradiction fun other => Work.runner_outer _ (inner i _ other here)
    | after _ _ inner _ _ =>
        exact Decidable.byContradiction fun other => Work.runner_outer _ (inner i _ other here)
  have beside : ∀ i, w.execution? i ≠ some e := by
    intro i found
    have here := (execution?_eq w i e).mp found
    rw [outside i here] at here
    cases h with
    | before _ _ _ caller => cases (caller 0 _ here).2
    | during _ caller _ _ _ _ => cases Option.some.inj (caller.symm.trans here)
    | after _ caller _ _ _ => cases Option.some.inj (caller.symm.trans here)
  rcases ceased with replied | ⟨i, found⟩
  · cases h with
    | before _ _ replies _ =>
        rw [replies] at replied
        exact (Array.not_mem_empty _ replied).elim
    | during _ _ _ replies _ _ =>
        rw [replies] at replied
        exact (Array.not_mem_empty _ replied).elim
    | after e' _ _ replies comes =>
        rw [replies] at replied
        cases Array.mem_singleton.mp replied
        exact comes
  · exact absurd found (beside i)

/-- Whatever is left alone for any number of steps has only one execution. -/
theorem LeadsCalmly.solo {options : Options} {bindings : Entries} (accepted : r.options = .ok options)
    (valid : options.Valid) (named : r.bindings? = .ok bindings) (idle : s.running = false)
    (stored : 0 < s.stores.size) (steps : (ofCommands s [.execute r]).LeadsCalmly w) :
    ∃ c, Shows none w c ∧ Solo s (s.taken options r.listener bindings) r w c ∧ w.Undisturbed := by
  have proper : r.Proper := by
    intro given same
    rw [accepted] at same
    cases same
    exact valid
  induction steps with
  | refl => exact ⟨_, ofCommands_solo stored proper⟩
  | tail _ step ih =>
      obtain ⟨c, shown, solo, before⟩ := ih
      obtain ⟨c', shown', solo'⟩ := solo.step accepted named idle shown before step.1 step.2
      exact ⟨c', shown', solo', step.2⟩

end World

/-- The recursion and the stack. An idle session is taken for a run: left to itself, its traversal comes
to an end just when the recursion has a result, and with that; and when a world that only executes the
run disturbs nothing, the execution ends with the result of the recursion, unless time has run out. -/
theorem run_recursive {α : Type} {s : Session} (stored : 0 < s.stores.size) (idle : s.running = false)
    {r : Request} {options : Options} {bindings : Entries} (accepted : r.options = .ok options)
    (valid : options.Valid) (named : r.bindings? = .ok bindings) :
    (∀ v, (s.taken options r.listener bindings).explore = some v ↔ ∃ how s',
      Stage.Leads (.opening, s.taken options r.listener bindings) (.over how, s') ∧
        how.visit? s' = some v) ∧
    ∀ w : World α, (World.ofCommands s [.execute r]).LeadsCalmly w → ∀ e, w.Ended e →
      (∀ ms, e.outcome ≠ .failed (.runTimeout ms)) →
      ∃ v, (s.taken options r.listener bindings).explore = some v ∧ e.Comes v := by
  refine ⟨Stage.explore_iff _, fun w steps e ended inTime => ?_⟩
  obtain ⟨c, _, solo, _⟩ := steps.solo accepted valid named idle stored
  rcases solo.ended ended with ⟨ms, late⟩ | comes
  · exact absurd late (inTime ms)
  · exact comes

namespace World

variable {α : Type}

/-- Whether a world can be seen to be undisturbed. -/
def isUndisturbed (w : World α) : Bool :=
  w.tasks.toList.all fun t => !t.cancelled && t.standing != .interrupted && match t.work with
    | .walk ⟨_, .abandoning _ _⟩ => false
    | _ => true

theorem undisturbed_of_isUndisturbed {w : World α} (h : w.isUndisturbed = true) : w.Undisturbed := by
  have each : ∀ (i : Nat) (t : Task α), w.tasks[i]? = some t → _ := fun i t here =>
    List.all_eq_true.mp h t (Array.mem_toList_iff.mpr (Array.mem_of_getElem? here))
  refine ⟨fun i k here attempt outOfTime same => ?_, fun i t here => ?_⟩
  · obtain ⟨t, found, work⟩ := Option.map_eq_some_iff.mp here
    obtain ⟨traversal, mode⟩ := k
    have calm := (Bool.and_eq_true_iff.mp (each i t found)).2
    cases same
    rw [work] at calm
    cases calm
  · obtain ⟨calm, standing⟩ := Bool.and_eq_true_iff.mp (Bool.and_eq_true_iff.mp (each i t here)).1
    exact ⟨by simpa using calm, by simpa using standing⟩

/-- Whether nothing is disturbed while a world is run. -/
def runsCalmly : Nat → World α → Bool
  | 0, _ => true
  | fuel + 1, w => match w.step with
    | none => true
    | some w => w.isUndisturbed && runsCalmly fuel w

theorem leadsCalmly_run {n : Nat} {w : World α} (h : w.runsCalmly n = true) :
    w.LeadsCalmly (run n w) := by
  induction n generalizing w with
  | zero => exact .refl
  | succ n ih =>
      cases step : w.step with
      | none =>
          rw [run, step]
      | some next =>
          rw [runsCalmly, step] at h
          rw [run, step]
          obtain ⟨calm, rest⟩ := Bool.and_eq_true_iff.mp h
          exact .head ⟨step, undisturbed_of_isUndisturbed calm⟩ (ih rest)

end World

/-- Left to itself, the run of the two elements comes to what the recursion comes to. -/
theorem run_recursive_pair : ∃ e v, (World.run 50 .pair).Ended e ∧ e.outcome = .finished ∧
    (Graph.pairSession.taken .default .silent []).explore = some v ∧ e.Comes v := by
  obtain ⟨e, ended, completes⟩ := World.ended_of_tells World.pair_completes
  obtain ⟨finished, _⟩ := Execution.of_completes completes
  have calm : World.pair.LeadsCalmly (World.run 50 .pair) :=
    World.leadsCalmly_run (by decide +kernel)
  have accepted : Request.plain.options = .ok .default := rfl
  have named : Request.plain.bindings? = .ok [] := rfl
  obtain ⟨_, recursive⟩ := run_recursive (α := Unit) (s := Graph.pairSession) (Nat.succ_pos 0) rfl
    accepted Options.default_valid named
  obtain ⟨v, explored, comes⟩ := recursive _ calm e ended (fun ms late => by
    rw [finished] at late
    cases late)
  exact ⟨e, v, ended, finished, explored, comes⟩

end BlockGraph
