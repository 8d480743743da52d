import BlockGraph.Proofs.Patience
/-!
Time limits. A traversal waits for logic until that is over, unless it is cancelled before; so when it has
its turn earlier than that, the time for the logic has passed.
-/
namespace BlockGraph

/-- Whether a length of time that began at some moment has passed. -/
def Span.Past (length : Span) (since now : Rat) : Prop :=
  match length with
  | .ms r => since + r ≤ now
  | .forever => False

theorem Span.Past.later {length : Span} {since now now' : Rat} (past : length.Past since now)
    (later : now ≤ now') : length.Past since now' := by
  cases length with
  | ms r => exact le_trans past later
  | forever => exact past

namespace World

variable {α : Type} {w w₁ w' : World α} {task ticket i j : Nat} {x y : Work α} {c : Course}

/-! ### Tasks that are over -/

theorem cancel_ceased (w : World α) (task : Nat) (ceased : w.standing? i = some .over) :
    (w.cancel task).standing? i = some .over := by
  by_cases same : task = i
  · subst same
    obtain ⟨t, found, stands⟩ := Option.map_eq_some_iff.mp ceased
    unfold World.cancel
    simp only [found, stands]
    exact ceased
  · exact (w.cancel_standing same).trans ceased

theorem spawn_ceased (w : World α) (x : Work α) (watchers : List Watcher)
    (ceased : w.standing? i = some .over) :
    (w.spawn x watchers).2.standing? i = some .over := by
  rw [spawn_standing, if_neg fun same => ?_, ceased]
  rw [same, standing_size] at ceased
  cases ceased

theorem Act.ceased (act : Act task w w') (ceased : w.standing? i = some .over) :
    w'.standing? i = some .over := by
  cases act with
  | work x => exact (w.withWork_standing task i x).trans ceased
  | start r => exact w.spawn_ceased _ _ ceased
  | cancel k => exact w.cancel_ceased k ceased
  | _ => exact ceased

theorem park_ceased (w : World α) (other : i ≠ task) (ceased : w.standing? i = some .over) :
    (w.park task).2.standing? i = some .over := by
  rw [park_standing, if_neg (Ne.symm other), ceased]

theorem schedule_standing (w : World α) (task ticket : Nat) (length : Span) (i : Nat) :
    (w.schedule task ticket length).standing? i = w.standing? i := by
  cases length <;> rfl

/-- A task that finishes is over, and so are those that were. -/
theorem AtWork.finish_ceased (h : w.AtWork task) (ceased : i = task ∨ w.standing? i = some .over) :
    (w.finish task).standing? i = some .over := by
  obtain ⟨t, found, _⟩ := Option.map_eq_some_iff.mp h.queued
  have watched : w.watchersOf task = t.watchers := by rw [watchersOf, found]; rfl
  have single : t.watchers.length ≤ 1 := watched ▸ h.scheduled.single task
  have stands : (w.ceased task).standing? i = some .over := by
    rw [ceased_standing]
    split
    · rename_i same
      subst same
      rw [h.queued]
      rfl
    · exact ceased.resolve_left (Ne.symm ‹_›)
  rw [finish_eq w task found]
  rcases few : t.watchers with _ | ⟨watcher, rest⟩
  · exact stands
  · rw [few, List.length_cons, Nat.succ_le_succ_iff, Nat.le_zero, List.length_eq_zero_iff] at single
    subst single
    have here : watcher ∈ w.watchersOf task := watched ▸ few ▸ List.mem_cons_self
    cases watcher with
    | release k released => exact stands
    | wake k =>
        -- who is woken is parked, and so neither at work nor over
        obtain ⟨rfl, ⟨ticket, parked, _⟩, _⟩ := h.scheduled.wakes task k here
        refine ((w.ceased task).stand_standing 0 i .released).trans ((if_neg fun same => ?_).trans stands)
        subst same
        rcases ceased with rfl | ceased
        · cases parked.symm.trans h.queued
        · cases parked.symm.trans ceased

/-- What a task does last in its turn leaves other tasks over that are. -/
theorem Last.ceased (last : Last task w w') (h : w.AtWork task) (other : i ≠ task)
    (ceased : w.standing? i = some .over) : w'.standing? i = some .over := by
  have parked := w.park_ceased other ceased
  cases last with
  | rest => exact ceased
  | busy => exact ceased
  | finish => exact h.finish_ceased (.inr ceased)
  | sleep length =>
      have lined : ((w.stand task .queued).later (.turn task)).standing? i = some .over :=
        (w.stand_standing task i .queued).trans ((if_neg (Ne.symm other)).trans ceased)
      have waits : ((w.park task).2.schedule task w.tickets length).standing? i = some .over :=
        (schedule_standing _ _ _ _ _).trans parked
      unfold World.sleep
      cases length with
      | forever => exact waits
      | ms r =>
          simp only
          split
          · exact lined
          · exact waits
  | ask x y walk? length =>
      have spawned := (w.park task).2.spawn_ceased x [.release task w.tickets] parked
      exact (schedule_standing _ _ _ _ _).trans ((withWork_standing _ task i y).trans spawned)
  | giveUp y k =>
      refine cancel_ceased _ k ((watch_standing _ k i _).trans ?_)
      exact (withWork_standing _ task i y).trans parked
  | join y k same =>
      subst same
      exact (withWork_standing _ 0 i y).trans ((watch_standing _ k i _).trans parked)

theorem Turned.ceased (turned : Turned task w w') (h : w.AtWork task) (other : i ≠ task)
    (ceased : w.standing? i = some .over) : w'.standing? i = some .over := by
  obtain ⟨w₁, acts, last⟩ := turned
  refine last.ceased (acts.atWork h) other ?_
  clear last
  induction acts with
  | refl => exact ceased
  | tail _ act ih => exact act.ceased ih

theorem release_ceased (w : World α) (task ticket : Nat) (ceased : w.standing? i = some .over) :
    (w.due (.release task ticket)).standing? i = some .over := by
  rcases w.release_cases task ticket with same | ⟨parked, same⟩ <;> rw [same]
  · exact ceased
  · refine (w.stand_standing task i _).trans ((if_neg fun own => ?_).trans ceased)
    subst own
    cases parked.symm.trans ceased

theorem cancelAll_ceased (w : World α) (ceased : w.standing? i = some .over) :
    w.cancelAll.standing? i = some .over := by
  have cancelled : ∀ (tasks : List Nat) (w : World α), w.standing? i = some .over →
      (tasks.foldl (fun w k => w.cancel k) w).standing? i = some .over := by
    intro tasks
    induction tasks with
    | nil => exact fun _ ceased => ceased
    | cons k rest ih => exact fun w ceased => ih _ (w.cancel_ceased k ceased)
  exact cancelled _ w ceased

/-! ### Tickets are released at the end of a task -/

theorem cancel_untold (w : World α) (task : Nat) {d : Due} (release : ∀ i, d ≠ .turn i)
    (member : d ∈ (w.cancel task).next) : d ∈ w.next := by
  unfold World.cancel at member
  split at member
  · exact member
  · split at member
    · exact member
    · exact (List.mem_cons.mp member).resolve_left (release _)
    · exact member

theorem Act.untold (act : Act task w w') {d : Due} (release : ∀ i, d ≠ .turn i) (member : d ∈ w'.next) :
    d ∈ w.next := by
  cases act with
  | start r => exact (List.mem_cons.mp member).resolve_left (release _)
  | cancel k => exact w.cancel_untold k release member
  | _ => exact member

/-- A task that is not over after its turn has released nothing. -/
theorem Turned.untold (turned : Turned task w w') (h : w.AtWork task) : w'.standing? task = some .over ∨
    ∀ d, (∀ i, d ≠ .turn i) → d ∈ w'.next → d ∈ w.next := by
  obtain ⟨w₁, acts, last⟩ := turned
  have before : ∀ d, (∀ i, d ≠ .turn i) → d ∈ w₁.next → d ∈ w.next := by
    intro d release
    clear last
    induction acts with
    | refl => exact id
    | tail _ act ih => exact fun member => ih (act.untold release member)
  cases last with
  | finish => exact .inl ((acts.atWork h).finish_ceased (.inl rfl))
  | rest => exact .inr before
  | busy => exact .inr before
  | sleep length =>
      refine .inr fun d release member => before d release ?_
      unfold World.sleep at member
      cases length with
      | forever => exact member
      | ms r =>
          simp only at member
          split at member
          · exact (List.mem_cons.mp member).resolve_left (release _)
          · exact member
  | ask x y walk? length =>
      refine .inr fun d release member => before d release ?_
      have next : (w₁.ask task x y walk? length).next = .turn (w₁.park task).2.tasks.size :: w₁.next := by
        cases length <;> rfl
      rw [next] at member
      exact (List.mem_cons.mp member).resolve_left (release _)
  | giveUp y k =>
      refine .inr fun d release member => before d release ?_
      have waiting : d ∈ (((w₁.park task).2.withWork task y).watch k [.release task w₁.tickets]).next :=
        cancel_untold _ k release member
      exact waiting
  | join y k => exact .inr before

/-! ### Waiting until a deadline -/

/-- Whether a task waits for another one until that is over, or some time has passed. -/
def Lasts (w : World α) (i j : Nat) (length : Span) (since : Rat) : Prop :=
  length.Past since w.now ∨ w.standing? j = some .over ∨
    ∃ ticket, w.Waits j i ticket ∧ ∀ time, ⟨time, i, ticket⟩ ∈ w.timers → length.Past since time

variable {length : Span} {since : Rat}

/-- A task that asks for another one waits for it so. -/
theorem AtWork.ask_lasts (h : w.AtWork task) (x y : Work α) (walk? : Option Nat) (length : Span) :
    (w.ask task x y walk? length).Lasts task w.tasks.size length w.now := by
  have now : (w.ask task x y walk? length).now = w.now := by cases length <;> rfl
  by_cases some_time : ∀ r, length = .ms r → 0 < r
  · obtain ⟨_, waits⟩ := h.ask_waits x y walk? some_time
    refine .inr (.inr ⟨w.tickets, waits, fun time member => ?_⟩)
    have fresh : ⟨time, task, w.tickets⟩ ∉ w.timers := fun old =>
      absurd (h.scheduled.issued _ _ (.timer old)) (Nat.lt_irrefl _)
    cases length with
    | forever => exact absurd member fresh
    | ms r =>
        rcases (mem_insertTimer _ _ _).mp member with new | old
        · cases new
          exact le_refl _
        · exact absurd old fresh
  · obtain ⟨r, none⟩ := not_forall.mp some_time
    obtain ⟨rfl, none⟩ := Classical.not_imp.mp none
    left
    rw [now]
    show w.now + r ≤ w.now
    grind

/-- Time goes on. -/
theorem nextRound_now (h : w.nextRound = some w') : w.now ≤ w'.now := by
  unfold World.nextRound at h
  split at h
  · cases h
  · cases h
    simp only
    split
    · split
      · exact le_of_lt ‹_›
      · exact le_refl _
    · exact le_refl _

theorem Lasts.nextRound (h : w.Lasts i j length since) (next : w.nextRound = some w') :
    w'.Lasts i j length since := by
  have turn := nextRound_eq next
  rcases h with past | ceased | ⟨ticket, waits, rings⟩
  · exact .inl (past.later (nextRound_now next))
  · exact .inr (.inl (by rw [standing?, turn.tasks]; exact ceased))
  · by_cases due : ∃ time, ⟨time, i, ticket⟩ ∈ w.timers ∧ time ≤ w'.now
    · obtain ⟨time, member, due⟩ := due
      exact .inl ((rings time member).later due)
    · refine .inr (.inr ⟨ticket, waits.nextRound turn fun time member => ?_, fun time member =>
        rings time (turn.timers member)⟩)
      exact Rat.not_le.mp fun early => due ⟨time, member, early⟩

/-- A turn of another task. -/
theorem Lasts.own (h : w.Lasts i j length since) (own : Own task w w') (other : i ≠ task)
    (ceased : w.standing? j = some .over → w'.standing? j = some .over)
    (told : w'.standing? j = some .over ∨ j ≠ task ∨ ∀ ticket, .release i ticket ∈ w'.next →
      .release i ticket ∈ w.next) : w'.Lasts i j length since := by
  rcases h with past | ends | ⟨ticket, waits, rings⟩
  · exact .inl (own.now ▸ past)
  · exact .inr (.inl (ceased ends))
  · have later : ∀ time, ⟨time, i, ticket⟩ ∈ w'.timers → length.Past since time := fun time member =>
      rings time (own.timers _ member other)
    rcases told with ends | apart | untold
    · exact .inr (.inl ends)
    · exact .inr (.inr ⟨ticket, waits.apart own other apart, later⟩)
    · exact .inr (.inr ⟨ticket, waits.own own other (untold ticket), later⟩)

theorem Lasts.atTurn (h : w.Lasts i j length since) (scheduled : w.Scheduled) (leaves : w.Dequeues task w₁)
    (other : i ≠ task) : (w₁.atTurn task).Lasts i j length since := by
  rcases h with past | ends | ⟨ticket, waits, rings⟩
  · exact .inl (show length.Past since w₁.now from leaves.now ▸ past)
  · refine .inr (.inl ?_)
    obtain ⟨s, standing, alive, _⟩ := leaves.standing scheduled
    rw [atTurn_standing, if_neg fun same => ?_, standing?, leaves.tasks]
    · exact ends
    · subst same
      exact alive (Option.some.inj (standing.symm.trans ends))
  · exact .inr (.inr ⟨ticket, waits.atTurn leaves other, fun time member =>
      rings time (leaves.timers ▸ member)⟩)

theorem Lasts.release (h : w.Lasts i j length since) {rest : List Due}
    (round : w.round = .release task ticket :: rest) :
    ({ w with round := rest }.due (.release task ticket)).Lasts i j length since := by
  let w₁ := { w with round := rest }
  have due : (w₁.due (.release task ticket)).now = w.now ∧ (w₁.due (.release task ticket)).timers = w.timers := by
    rcases w₁.release_cases task ticket with same | ⟨_, same⟩ <;> rw [same] <;> exact ⟨rfl, rfl⟩
  obtain ⟨now, timers⟩ := due
  rcases h with past | ends | ⟨ticket', waits, rings⟩
  · exact .inl (past.later (le_of_eq now.symm))
  · exact .inr (.inl (w₁.release_ceased task ticket ends))
  · exact .inr (.inr ⟨ticket', waits.release round, fun time member => rings time (timers ▸ member)⟩)

theorem Lasts.cancelAll (h : w.Lasts i j length since) : w.cancelAll.Lasts i j length since := by
  -- to call all tasks is nobody's turn
  obtain ⟨task, other, other'⟩ : ∃ task, i ≠ task ∧ j ≠ task := ⟨i + j + 1, by omega, by omega⟩
  exact h.own (.cancelAll w task) other w.cancelAll_ceased (.inr (.inl other'))

theorem Lasts.withPhase (h : w.Lasts i j length since) (phase : Phase) :
    { w with phase }.Lasts i j length since :=
  h.imp id (Or.imp id fun ⟨ticket, waits, rings⟩ =>
    ⟨ticket, waits.of_tasks rfl waits.late waits.unreleased, rings⟩)

theorem Lasts.idles (h : w.Lasts i j length since) (step : w.idles = some w') : w'.Lasts i j length since := by
  cases idles_cases step with
  | still phase => exact h.withPhase phase
  | round phase _ next => exact (h.withPhase phase).nextRound next
  | drain => exact h.cancelAll.withPhase .draining

/-- A task that waits so does not mind the turn of another one. -/
theorem Lasts.turned (h : w.Lasts i j length since) (scheduled : w.Scheduled) (shown : Shows none w c)
    (leaves : w.Dequeues task w₁) (apart : i ≠ task) : (w₁.turn task).Lasts i j length since := by
  have at_ := scheduled.atTurn leaves
  have turned := leaves.turned scheduled shown
  refine (h.atTurn scheduled leaves apart).own (turned.own at_) apart (fun ends => ?_) ?_
  · refine turned.ceased at_ (fun same => ?_) ends
    subst same
    cases at_.queued.symm.trans ends
  · by_cases same : j = task
    · subst same
      exact (turned.untold at_).imp id fun untold => .inr fun ticket member => untold _ (fun _ => nofun) member
    · exact .inr (.inl same)

/-- A task waits so until it has its turn. -/
theorem Lasts.step (h : w.Lasts i j length since) (scheduled : w.Scheduled) (shown : Shows none w c)
    (step : w.step = some w') (other : ∀ w₁, w.Dequeues i w₁ → w' ≠ w₁.turn i) :
    w'.Lasts i j length since := by
  cases steps_of_step step with
  | @turn task w₁ leaves =>
      refine h.turned scheduled shown leaves ?_
      rintro rfl
      exact other w₁ leaves rfl
  | release round => exact h.release round
  | idle round idles => exact h.idles idles

/-- A task that waits so and is not called has its turn when the other one is over or the time has passed. -/
theorem Lasts.turn (h : w.Lasts i j length since) (scheduled : w.Scheduled) (leaves : w.Dequeues i w₁)
    (uncalled : w.called i = false) : length.Past since w.now ∨ w.standing? j = some .over := by
  rcases h with past | ceased | ⟨ticket, waits, _⟩
  · exact .inl past
  · exact .inr ceased
  · obtain ⟨s, standing, _, awake⟩ := leaves.standing scheduled
    rcases waits.stands with parked | calls
    · cases Option.some.inj (standing.symm.trans parked)
      exact absurd rfl (awake ticket)
    · cases uncalled.symm.trans calls

end World
end BlockGraph
