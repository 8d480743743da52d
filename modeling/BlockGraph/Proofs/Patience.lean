import BlockGraph.Proofs.Turns
/-!
An execution that has begun waits until its traversal has opened. What a task does in its turn is its own
affair: the others wait on as they did, and the turn of a traversal that is to open stands in line before
time goes on.
-/
namespace BlockGraph

/-- The task that is told. -/
def Watcher.task : Watcher → Nat
  | .release task _ | .wake task => task

namespace World

variable {α : Type} {w w₁ w' : World α} {task ticket i j : Nat} {x y : Work α}

theorem called_iff : w.called i = true ↔
    ∃ t, w.tasks[i]? = some t ∧ (t.cancelled || t.standing == .interrupted) = true := by
  unfold World.called
  cases w.tasks[i]? with
  | none => simp only [Option.any_none, Bool.false_eq_true, reduceCtorEq, false_and, exists_false]
  | some t => simp only [Option.any_some, Option.some.injEq, exists_eq_left']

/-! ### What a turn leaves of the others -/

/-- What one task changes in its turn. The others stand where they stood unless they are called or woken,
and what they wait for is no nearer. -/
structure Own (task : Nat) (w w' : World α) : Prop where
  now : w'.now = w.now
  round : w'.round = w.round
  work : ∀ i, i ≠ task → w'.work? i = w.work? i ∨
    w.work? i = none ∧ ∀ x, w'.work? i = some x → x.pending? = none
  stands : ∀ i ticket, i ≠ task → w.standing? i = some (.parked ticket) →
    w'.standing? i = some (.parked ticket) ∨ w'.called i = true ∨ ¬w.Unwoken i
  called : ∀ i, i ≠ task → w.called i = true → w'.called i = true
  timers : ∀ t ∈ w'.timers, t.task ≠ task → t ∈ w.timers
  turns : ∀ i, .turn i ∈ w.next → .turn i ∈ w'.next
  releases : ∀ i ticket, i ≠ task → .release i ticket ∈ w'.next →
    .release i ticket ∈ w.next ∨ .release i ticket ∈ w.watchersOf task
  watchers : ∀ i, ∀ x ∈ w'.watchersOf i, x ∈ w.watchersOf i ∨ x.task = task

namespace Own

/-- A change that is none of what tasks wait for. -/
theorem of_eq (now : w'.now = w.now) (round : w'.round = w.round) (next : w'.next = w.next)
    (timers : w'.timers = w.timers) (tasks : w'.tasks = w.tasks) : Own task w w' where
  now := now
  round := round
  work i _ := .inl (by rw [work?, tasks]; rfl)
  stands i ticket _ parked := .inl (by rw [standing?, tasks]; exact parked)
  called i _ calls := by rw [World.called, tasks]; exact calls
  timers t member _ := timers ▸ member
  turns i member := next ▸ member
  releases i ticket _ member := .inl (next ▸ member)
  watchers i x member := .inl (by rw [watchersOf, tasks] at member; exact member)

theorem refl (w : World α) : Own task w w := of_eq rfl rfl rfl rfl rfl

theorem trans (h : Own task w w₁) (h' : Own task w₁ w') : Own task w w' where
  now := h'.now.trans h.now
  round := h'.round.trans h.round
  work i other := by
    rcases h.work i other with same | ⟨new, free⟩ <;> rcases h'.work i other with same' | ⟨new', free'⟩
    · exact .inl (same'.trans same)
    · exact .inr ⟨same.symm.trans new', free'⟩
    · exact .inr ⟨new, fun x here => free x (same'.symm.trans here)⟩
    · exact .inr ⟨new, free'⟩
  stands i ticket other parked := by
    rcases h.stands i ticket other parked with parked | calls | woken
    · rcases h'.stands i ticket other parked with parked | calls | woken
      · exact .inl parked
      · exact .inr (.inl calls)
      · refine .inr (.inr fun unwoken => woken fun j here => ?_)
        exact (h.watchers j _ here).elim (unwoken j) other
    · exact .inr (.inl (h'.called i other calls))
    · exact .inr (.inr woken)
  called i other calls := h'.called i other (h.called i other calls)
  timers t member other := h.timers t (h'.timers t member other) other
  turns i member := h'.turns i (h.turns i member)
  releases i ticket other member := by
    rcases h'.releases i ticket other member with old | told
    · exact h.releases i ticket other old
    · exact .inr ((h.watchers task _ told).resolve_right other)
  watchers i x member := (h'.watchers i x member).elim (h.watchers i x) .inr

variable (w)

/-- A change of the task itself. -/
theorem change {f : Task α → Task α} (fewer : ∀ t, (f t).watchers ⊆ t.watchers) :
    Own task w (w.change task f) := by
  have others : ∀ i, i ≠ task → (w.change task f).tasks[i]? = w.tasks[i]? := fun i other =>
    (w.change_task task f i).trans (if_neg (Ne.symm other))
  constructor
  case now => rfl
  case round => rfl
  case work => exact fun i other => .inl (by rw [work?, others i other]; rfl)
  case stands => exact fun i ticket other parked => .inl (by rw [standing?, others i other]; exact parked)
  case called => exact fun i other calls => by rw [World.called, others i other]; exact calls
  case timers => exact fun t member _ => member
  case turns => exact fun i member => member
  case releases => exact fun i ticket _ member => .inl member
  case watchers =>
    intro i x member
    left
    by_cases same : task = i
    · subst same
      rw [watchersOf, change_task, if_pos rfl] at member
      rw [watchersOf]
      cases found : w.tasks[task]? with
      | none =>
          rw [found] at member
          cases member
      | some t =>
          rw [found] at member
          exact fewer t member
    · rw [watchersOf, others i (Ne.symm same)] at member
      exact member

theorem withWork (x : Work α) : Own task w (w.withWork task x) := change w fun _ => List.Subset.refl _

theorem stand (s : Standing) : Own task w (w.stand task s) := change w fun _ => List.Subset.refl _

theorem park : Own task w (w.park task).2 :=
  (of_eq rfl rfl rfl rfl rfl : Own task w { w with tickets := w.tickets + 1 }).trans (stand _ _)

/-- Any task may be called. -/
theorem call (i : Nat) {f : Task α → Task α} (work : ∀ t, (f t).work = t.work)
    (watchers : ∀ t, (f t).watchers = t.watchers)
    (calls : ∀ t, ((f t).cancelled || (f t).standing == .interrupted) = true) : Own task w (w.change i f) := by
  have others : ∀ j, i ≠ j → (w.change i f).tasks[j]? = w.tasks[j]? := fun j other =>
    (w.change_task i f j).trans (if_neg other)
  have called : ∀ t, w.tasks[i]? = some t → (w.change i f).called i = true := fun t found => by
    rw [World.called, change_task, if_pos rfl, found]
    exact calls t
  constructor
  case now => rfl
  case round => rfl
  case work =>
    intro j _
    left
    simp only [work?, change_task]
    split
    · simp only [Option.map_map, Function.comp_def, work]
    · rfl
  case stands =>
    intro j ticket _ parked
    by_cases same : i = j
    · subst same
      obtain ⟨t, found, _⟩ := Option.map_eq_some_iff.mp parked
      exact .inr (.inl (called t found))
    · exact .inl (by rw [standing?, others j same]; exact parked)
  case called =>
    intro j _ old
    by_cases same : i = j
    · subst same
      obtain ⟨t, found, _⟩ := called_iff.mp old
      exact called t found
    · rw [World.called, others j same]
      exact old
  case timers => exact fun t member _ => member
  case turns => exact fun i member => member
  case releases => exact fun i ticket _ member => .inl member
  case watchers => exact fun j x member => .inl (w.change_watchers i j watchers ▸ member)

theorem laterTurn (i : Nat) : Own task w (w.later (.turn i)) :=
  { refl w with
    turns := fun _ member => List.mem_cons_of_mem _ member
    releases := fun _ _ _ member => .inl ((List.mem_cons.mp member).resolve_left nofun) }

theorem unschedule (i : Nat) : Own task w (w.unschedule i) :=
  { refl w with timers := fun _ member _ => (List.mem_filter.mp member).1 }

theorem cancel (i : Nat) : Own task w (w.cancel i) := by
  unfold World.cancel
  split
  · exact refl w
  · split
    · exact refl w
    · have called : Own task w (w.stand i .interrupted) :=
        call w i (fun _ => rfl) (fun _ => rfl) fun t => Bool.or_true _
      exact (called.trans (unschedule _ i)).trans (laterTurn _ i)
    · exact call w i (fun _ => rfl) (fun _ => rfl) fun _ => rfl

theorem schedule (ticket : Nat) (length : Span) : Own task w (w.schedule task ticket length) := by
  cases length with
  | forever => exact refl w
  | ms r =>
      refine { refl w with timers := fun t member other => ?_ }
      rcases (mem_insertTimer _ _ _).mp member with rfl | old
      · exact absurd rfl other
      · exact old

theorem spawn (free : x.pending? = none) {watchers : List Watcher} (own : ∀ x ∈ watchers, x.task = task) :
    Own task w (w.spawn x watchers).2 := by
  have old : ∀ {i : Nat} {t : Task α}, w.tasks[i]? = some t → (w.spawn x watchers).2.tasks[i]? = some t := by
    intro i t found
    have inside := (Array.getElem?_eq_some_iff.mp found).1
    show (w.tasks.push _)[i]? = some t
    rw [Array.getElem?_push, if_neg (Nat.ne_of_lt inside), found]
  constructor
  case now => rfl
  case round => rfl
  case work =>
    intro i _
    rw [spawn_work]
    split
    · rename_i last
      subst last
      refine .inr ⟨w.work_size, fun y here => ?_⟩
      cases here
      exact free
    · exact .inl rfl
  case stands =>
    intro i ticket _ parked
    obtain ⟨t, found, parked⟩ := Option.map_eq_some_iff.mp parked
    exact .inl (by rw [standing?, old found]; exact congrArg some parked)
  case called =>
    intro i _ calls
    obtain ⟨t, found, calls⟩ := called_iff.mp calls
    rw [World.called, old found]
    exact calls
  case timers => exact fun t member _ => member
  case turns => exact fun i member => List.mem_cons_of_mem _ member
  case releases => exact fun i ticket _ member => .inl ((List.mem_cons.mp member).resolve_left (by cases ·))
  case watchers =>
    intro i y member
    rw [spawn_watchers] at member
    split at member
    · exact .inr (own y member)
    · exact .inl member

theorem watch (i : Nat) {watchers : List Watcher} (own : ∀ x ∈ watchers, x.task = task) :
    Own task w (w.watch i watchers) := by
  constructor
  case now => rfl
  case round => rfl
  case work => exact fun j _ => .inl ((w.watch_quiet i watchers).work j)
  case stands => exact fun j ticket _ parked => .inl ((w.watch_standing i j watchers).trans parked)
  case called =>
    intro j _ calls
    obtain ⟨t, found, calls⟩ := called_iff.mp calls
    simp only [World.called, World.watch, change_task, found]
    split <;> exact calls
  case timers => exact fun t member _ => member
  case turns => exact fun i member => member
  case releases => exact fun i ticket _ member => .inl member
  case watchers =>
    intro j x member
    rw [watch_watchers] at member
    split at member
    · cases found : w.tasks[j]? with
      | none =>
          rw [found] at member
          cases member
      | some t =>
          rw [found] at member
          exact .inr (own x member)
    · exact .inl member

theorem sleep (length : Span) : Own task w (w.sleep task length) := by
  have parked : Own task w ((w.park task).2.schedule task w.tickets length) := (park w).trans (schedule _ _ _)
  unfold World.sleep
  cases length with
  | forever => exact parked
  | ms r =>
      simp only
      split
      · exact (stand w .queued).trans (laterTurn _ task)
      · exact parked

theorem ask (inner : x.Inner) (y : Work α) (walk? : Option Nat) (length : Span) :
    Own task w (w.ask task x y walk? length) := by
  have free : x.pending? = none := by cases inner <;> rfl
  have spawned : Own task w ((w.park task).2.spawn x [.release task w.tickets]).2 := by
    refine (park w).trans (spawn _ free fun x member => ?_)
    cases List.mem_singleton.mp member
    rfl
  let w₁ := ((w.park task).2.spawn x [.release task w.tickets]).2.withWork task y
  have known : Own task w₁ { w₁ with walk? } := of_eq rfl rfl rfl rfl rfl
  exact ((spawned.trans (withWork _ y)).trans known).trans (schedule _ _ _)

theorem giveUp (y : Work α) (i : Nat) : Own task w (w.giveUp task y i) := by
  have parked := (park w).trans (withWork (w.park task).2 y)
  refine (parked.trans (watch _ i fun x member => ?_)).trans (cancel _ i)
  cases List.mem_singleton.mp member
  rfl

end Own

/-- Who is woken was parked, and was not called. -/
theorem AtWork.own_wake (h : w.AtWork task) (here : .wake i ∈ w.watchersOf task) :
    Own task w ((w.ceased task).tell (.wake i)) := by
  have ceased : Own task w (w.ceased task) := .change w fun _ => List.nil_subset _
  obtain ⟨rfl, ⟨ticket, parked, _⟩, _⟩ := h.scheduled.wakes task i here
  have apart : task ≠ 0 := fun same => by
    subst same
    cases h.queued.symm.trans parked
  let w₁ := w.ceased task
  have others : ∀ j, 0 ≠ j → (w₁.stand 0 .released).tasks[j]? = w₁.tasks[j]? := fun j other =>
    (w₁.change_task 0 _ j).trans (if_neg other)
  refine { ceased with
    work := fun j other => .inl ((w₁.stand_work 0 j _).trans (w.ceased_work task j))
    turns := fun _ member => List.mem_cons_of_mem _ member
    releases := fun _ _ _ member => .inl ((List.mem_cons.mp member).resolve_left nofun)
    watchers := fun j x member => ceased.watchers j x (w₁.stand_watchers 0 j _ ▸ member)
    stands := fun j ticket' other stood => ?_
    called := fun j other old => ?_ }
  · by_cases woken : 0 = j
    · subst woken
      exact .inr (.inr fun unwoken => unwoken task here)
    · left
      refine Eq.trans ?_ ((w.ceased_standing task j).trans ((if_neg other.symm).trans stood))
      exact (w₁.stand_standing 0 j _).trans (if_neg woken)
  · obtain ⟨t, found, calls⟩ := called_iff.mp (ceased.called j other old)
    by_cases woken : 0 = j
    · subst woken
      have stood : w₁.standing? 0 = some (.parked ticket) :=
        (w.ceased_standing task 0).trans ((if_neg apart).trans parked)
      have standing : t.standing = .parked ticket := by
        rw [World.standing?, show w₁.tasks[0]? = some t from found] at stood
        exact Option.some.inj stood
      rw [standing] at calls
      refine called_iff.mpr ⟨{ t with standing := .released }, ?_, calls⟩
      exact (w₁.change_task 0 _ 0).trans (by rw [if_pos rfl, found]; rfl)
    · exact called_iff.mpr ⟨t, (others j woken).trans found, calls⟩

/-- A task that is over tells at most one other task. -/
theorem AtWork.own_finish (h : w.AtWork task) : Own task w (w.finish task) := by
  obtain ⟨t, found, _⟩ := Option.map_eq_some_iff.mp h.queued
  have watched : w.watchersOf task = t.watchers := by rw [watchersOf, found]; rfl
  have single : t.watchers.length ≤ 1 := watched ▸ h.scheduled.single task
  have ceased : Own task w (w.ceased task) := .change w fun _ => List.nil_subset _
  rw [finish_eq w task found]
  rcases few : t.watchers with _ | ⟨watcher, rest⟩
  · exact ceased
  · rw [few, List.length_cons, Nat.succ_le_succ_iff, Nat.le_zero, List.length_eq_zero_iff] at single
    subst single
    have here : watcher ∈ w.watchersOf task := watched ▸ few ▸ List.mem_cons_self
    cases watcher with
    | release i ticket =>
        refine { ceased with turns := fun _ member => List.mem_cons_of_mem _ member, releases := ?_ }
        intro j ticket' other member
        rcases List.mem_cons.mp member with new | old
        · cases new
          exact .inr here
        · exact .inl old
    | wake i => exact h.own_wake here

theorem Act.own (act : Act task w w') : Own task w w' := by
  cases act with
  | session s => exact .of_eq rfl rfl rfl rfl rfl
  | reply r => exact .of_eq rfl rfl rfl rfl rfl
  | work x => exact .withWork w x
  | start r => exact .spawn w rfl nofun
  | cancel i => exact .cancel w i
  | unschedule => exact .unschedule w task

theorem Acts.own (acts : Acts task w w') : Own task w w' := by
  induction acts with
  | refl => exact .refl _
  | tail _ act ih => exact ih.trans act.own

theorem Last.own (last : Last task w w') (h : w.AtWork task) : Own task w w' := by
  cases last with
  | rest => exact .refl w
  | busy => exact .of_eq rfl rfl rfl rfl rfl
  | finish => exact h.own_finish
  | sleep length => exact .sleep w length
  | ask x y walk? length inner => exact .ask w inner y walk? length
  | giveUp y i => exact .giveUp w y i
  | join y i same =>
      subst same
      refine ((Own.park w).trans (.watch _ i fun x member => ?_)).trans (.withWork _ y)
      cases List.mem_singleton.mp member
      rfl

/-- What a task does in its turn is its own affair. -/
theorem Turned.own (turned : Turned task w w') (h : w.AtWork task) : Own task w w' := by
  obtain ⟨w₁, acts, last⟩ := turned
  exact acts.own.trans (last.own (acts.atWork h))

/-! ### Waiting for a traversal that is to open -/

/-- Whether a task waits for another one to be over, and has time left. It may have been called. -/
structure Waits (w : World α) (i j ticket : Nat) : Prop where
  stands : w.standing? j = some (.parked ticket) ∨ w.called j = true
  unwoken : w.Unwoken j
  late : ∀ time, ⟨time, j, ticket⟩ ∈ w.timers → w.now < time
  unreleased : .release j ticket ∉ w.round ∧ .release j ticket ∉ w.next
  watched : ∀ k, .release j ticket ∈ w.watchersOf k → k = i

/-- A turn of another task that does not release what is waited for. -/
theorem Waits.own (h : w.Waits i j ticket) (own : Own task w w') (other : j ≠ task)
    (untold : .release j ticket ∈ w'.next → .release j ticket ∈ w.next) : w'.Waits i j ticket where
  stands := by
    rcases h.stands with parked | calls
    · rcases own.stands j ticket other parked with parked | calls | woken
      · exact .inl parked
      · exact .inr calls
      · exact absurd h.unwoken woken
    · exact .inr (own.called j other calls)
  unwoken k here := (own.watchers k _ here).elim (h.unwoken k) other
  late time member := own.now ▸ h.late time (own.timers _ member other)
  unreleased :=
    ⟨fun member => h.unreleased.1 (own.round ▸ member), fun member => h.unreleased.2 (untold member)⟩
  watched k here := (own.watchers k _ here).elim (h.watched k) fun same => absurd same other

/-- A turn of neither of the two. -/
theorem Waits.apart (h : w.Waits i j ticket) (own : Own task w w') (other : j ≠ task) (apart : i ≠ task) :
    w'.Waits i j ticket :=
  h.own own other fun member =>
    (own.releases j ticket other member).resolve_right fun told => apart (h.watched task told).symm

/-- Whether a task is to open a run. -/
def Opening (w : World α) (i : Nat) : Prop := ∃ t, w.work? i = some (.walk ⟨t, .opening⟩)

def InLine (w : World α) (i : Nat) : Prop := .turn i ∈ w.round ∨ .turn i ∈ w.next

/-- Whether an execution that waits for a traversal to open has time left when that gets its turn. The task
that has its turn is left out. -/
def Unhurried (except? : Option Nat) (w : World α) : Prop := ∀ j p, except? ≠ some j → except? ≠ some p.walk →
  w.pending? j = some p → w.Opening p.walk → w.InLine p.walk ∧ ∃ ticket, w.Waits p.walk j ticket

variable {c : Course}

/-- A traversal that an execution waits for is there. -/
theorem Shows.walk_there (h : Shows none w c) {p : Pending} (waits : w.pending? j = some p) :
    ∃ k, w.work? p.walk = some (.walk k) := by
  have stage := h.stage
  unfold AtStage at stage
  rw [(h.waiting waits).2.1] at stage
  exact stage.imp fun _ found => found.1

theorem Own.pending (own : Own task w w') (other : j ≠ task) {p : Pending} (waits : w'.pending? j = some p) :
    w.pending? j = some p := by
  obtain ⟨x, here, waits⟩ := Option.bind_eq_some_iff.mp waits
  rcases own.work j other with same | ⟨_, free⟩
  · exact Option.bind_eq_some_iff.mpr ⟨x, same.symm.trans here, waits⟩
  · cases (free x here).symm.trans waits

/-- A turn leaves the executions of others unhurried. -/
theorem Unhurried.own (h : w.Unhurried (some task)) (shown : Shows none w c) (own : Own task w w') :
    w'.Unhurried (some task) := by
  intro j p other apart waits opens
  have other' : j ≠ task := fun same => other (congrArg some same.symm)
  have apart' : p.walk ≠ task := fun same => apart (congrArg some same.symm)
  have waits := own.pending other' waits
  obtain ⟨k, there⟩ := shown.walk_there waits
  have opens : w.Opening p.walk := by
    rcases own.work p.walk apart' with same | ⟨none, _⟩
    · exact opens.imp fun t here => same.symm.trans here
    · cases none.symm.trans there
  obtain ⟨line, ticket, patient⟩ := h j p other apart waits opens
  exact ⟨line.imp (own.round ▸ ·) (own.turns _), ticket, patient.apart own other' apart'⟩

/-! ### The task that has its turn -/

theorem AtWork.parked (h : w.AtWork task) : (w.park task).2.standing? task = some (.parked w.tickets) := by
  rw [park_standing, if_pos rfl, h.queued]
  rfl

/-- A task that asks for another one is parked. -/
theorem AtWork.ask_parked (h : w.AtWork task) (x y : Work α) (walk? : Option Nat) (length : Span) :
    (w.ask task x y walk? length).standing? task = some (.parked w.tickets) := by
  let w₁ := ((w.park task).2.spawn x [.release task w.tickets]).2
  have tasks : (w.ask task x y walk? length).tasks = (w₁.withWork task y).tasks := by cases length <;> rfl
  have stands : w₁.standing? task = _ := (w.park task).2.spawn_standing task x _
  have size : (w.park task).2.tasks.size = w.tasks.size := w.change_size task _
  rw [standing?, tasks, ← standing?, withWork_standing, stands, size, if_neg (Nat.ne_of_lt h.inside), h.parked]

/-- A task that is asked for stands in line. -/
theorem ask_inLine (w : World α) (task : Nat) (x y : Work α) (walk? : Option Nat) (length : Span) :
    (w.ask task x y walk? length).InLine w.tasks.size := by
  have size : (w.park task).2.tasks.size = w.tasks.size := w.change_size task _
  have next : (w.ask task x y walk? length).next = .turn (w.park task).2.tasks.size :: w.next := by
    cases length <;> rfl
  exact .inr (next ▸ size ▸ List.mem_cons_self)

/-- A task that asks for another one watches that. -/
theorem ask_watchers (w : World α) (task : Nat) (x y : Work α) (walk? : Option Nat) (length : Span) (i : Nat) :
    (w.ask task x y walk? length).watchersOf i =
      if i = w.tasks.size then [.release task w.tickets] else w.watchersOf i := by
  have size : (w.park task).2.tasks.size = w.tasks.size := w.change_size task _
  let w₁ := ((w.park task).2.spawn x [.release task w.tickets]).2
  have tasks : (w.ask task x y walk? length).tasks = (w₁.withWork task y).tasks := by cases length <;> rfl
  have watched : w₁.watchersOf i = _ := (w.park task).2.spawn_watchers i x _
  rw [watchersOf, tasks, ← watchersOf, withWork_watchers, watched, size, park_watchers]

/-- A task that asks for another one waits for that. -/
theorem AtWork.ask_waits (h : w.AtWork task) (x y : Work α) (walk? : Option Nat) {length : Span}
    (time : ∀ r, length = .ms r → 0 < r) :
    (w.ask task x y walk? length).InLine w.tasks.size ∧
      (w.ask task x y walk? length).Waits w.tasks.size task w.tickets := by
  have size : (w.park task).2.tasks.size = w.tasks.size := w.change_size task _
  let w₁ := ((w.park task).2.spawn x [.release task w.tickets]).2
  let w₂ := { w₁.withWork task y with walk? }
  have asks : w.ask task x y walk? length = w₂.schedule task w.tickets length := rfl
  have next : (w.ask task x y walk? length).next = .turn w.tasks.size :: w.next := by
    rw [asks, ← size]
    cases length <;> rfl
  have round : (w.ask task x y walk? length).round = w.round := by cases length <;> rfl
  have tasks : (w.ask task x y walk? length).tasks = (w₁.withWork task y).tasks := by cases length <;> rfl
  have fresh : ∀ {P : Prop}, w.Refers task w.tickets → P := fun refers =>
    absurd (h.scheduled.issued _ _ refers) (Nat.lt_irrefl _)
  have watchers := w.ask_watchers task x y walk? length
  refine ⟨w.ask_inLine task x y walk? length, .inl (h.ask_parked x y walk? length), fun k here => ?_,
    fun time' member => ?_, ⟨fun member => ?_, fun member => ?_⟩, fun k here => ?_⟩
  · rw [watchers] at here
    split at here
    · cases List.mem_singleton.mp here
    · exact h.scheduled.unwoken_of_queued h.queued k here
  · cases length with
    | forever => exact fresh (.timer member)
    | ms r =>
        rcases (mem_insertTimer _ _ _).mp member with new | old
        · cases new
          have above := time r rfl
          show w.now < w.now + r
          grind
        · exact fresh (.timer old)
  · exact fresh (.due (.inl (round ▸ member)))
  · rw [next] at member
    exact fresh (.due (.inr ((List.mem_cons.mp member).resolve_left (by cases ·))))
  · rw [watchers] at here
    split at here
    · assumption
    · exact fresh (.watcher here)

theorem finish_work (w : World α) (task i : Nat) : (w.finish task).work? i = w.work? i := by
  have told : ∀ (watchers : List Watcher) (w : World α), (watchers.foldl tell w).work? i = w.work? i := by
    intro watchers
    induction watchers with
    | nil => exact fun _ => rfl
    | cons watcher rest ih => exact fun w => (ih _).trans ((w.tell_quiet watcher).work i)
  cases found : w.tasks[task]? with
  | none =>
      unfold World.finish
      simp only [found]
  | some t =>
      rw [finish_eq w task found, told]
      exact w.ceased_work task i

/-- What a task works at after its turn, unless it asks for another one. -/
theorem Last.free_or_asks (last : Last task w w') : w'.Free task ∨ ∃ x y walk? length,
    w' = w.ask task x y walk? length ∧ y.awaits? = some w.tasks.size ∧ w.Begins y length := by
  have still : ∀ {w₁ : World α}, w₁.work? task = w.work? task → w.Free task → w₁.Free task :=
    fun same free x here => free x (same.symm.trans here)
  cases last with
  | rest free => exact .inl free
  | busy free => exact .inl free
  | finish free => exact .inl (still (w.finish_work task task) free)
  | sleep length free => exact .inl (still ((w.sleep_quiet task length).work task) free)
  | ask x y walk? length _ _ _ waits begins => exact .inr ⟨x, y, walk?, length, rfl, waits, begins⟩
  | giveUp y i _ _ free =>
      have watched := watch_quiet ((w.park task).2.withWork task y) i [.release task w.tickets]
      have quiet := watched.trans (cancel_quiet _ i)
      exact .inl fun x here => withWork_free _ task free x ((quiet.work task).symm.trans here)
  | join y i same _ free =>
      subst same
      exact .inl (withWork_free _ 0 free)

theorem pending_of_free (free : x.isFree = true) : x.pending? = none := by
  cases x with
  | caller k =>
      obtain ⟨_, mode, _⟩ := k
      cases mode <;> first | rfl | exact Bool.noConfusion free
  | runner m => cases m <;> first | rfl | exact Bool.noConfusion free
  | _ => rfl

/-- An execution that is waited for is that of its traversal. -/
theorem awaits_of_pending {p : Pending} (pending : x.pending? = some p) : x.awaits? = some p.walk := by
  cases x with
  | walk k => cases pending
  | attempt a => cases pending
  | _ => exact congrArg (·.map (·.walk)) pending

theorem AtWork.ask_work (h : w.AtWork task) (x y : Work α) (walk? : Option Nat) (length : Span) :
    (w.ask task x y walk? length).work? task = some y := by
  obtain ⟨t, found, _⟩ := Option.map_eq_some_iff.mp h.queued
  have there : w.work? task = some t.work := by rw [work?, found]; rfl
  have spawned := spawn_kept (((w.park_quiet task).work task).trans there) x [.release task w.tickets]
  refine ((schedule_quiet _ _ _ _).work task).trans ((withWork_work _ task y task).trans ?_)
  rw [if_pos rfl, spawned]
  rfl

/-- The task that was asked for is to work at what it was asked to. -/
theorem AtWork.ask_started (h : w.AtWork task) (x y : Work α) (walk? : Option Nat) (length : Span) :
    (w.ask task x y walk? length).work? w.tasks.size = some x := by
  have size : (w.park task).2.tasks.size = w.tasks.size := w.change_size task _
  refine ((schedule_quiet _ _ _ _).work _).trans ((withWork_work _ task y _).trans ?_)
  rw [if_neg (Nat.ne_of_lt h.inside), spawn_work, if_pos size.symm]

/-- A turn leaves all executions unhurried. -/
theorem Turned.unhurried (turned : Turned task w w') (h : w.AtWork task) (shown : Shows none w c)
    (unhurried : w.Unhurried (some task)) : w'.Unhurried none := by
  have others := unhurried.own shown (turned.own h)
  obtain ⟨w₁, acts, last⟩ := turned
  have at_ := acts.atWork h
  intro j p _ _ waits opens
  obtain ⟨y, here, pending⟩ := Option.bind_eq_some_iff.mp waits
  obtain ⟨t, there⟩ := opens
  rcases last.free_or_asks with free | ⟨x, y', walk?, length, rfl, asks, begins⟩
  · refine others j p (fun same => ?_) (fun same => ?_) waits ⟨t, there⟩
    · cases same
      cases (pending_of_free (free y here)).symm.trans pending
    · cases same
      cases free _ there
  · have works := at_.ask_work x y' walk? length
    by_cases own : task = j
    · subst own
      cases Option.some.inj (works.symm.trans here)
      obtain ⟨line, waits⟩ := at_.ask_waits x y walk? (begins p pending).2.2
      have walk := Option.some.inj (asks.symm.trans (awaits_of_pending pending))
      exact ⟨walk ▸ line, w₁.tickets, walk ▸ waits⟩
    · refine others j p (fun same => own (Option.some.inj same)) (fun same => ?_) waits ⟨t, there⟩
      cases same
      cases Option.some.inj (works.symm.trans there)
      cases asks

/-! ### Steps -/

/-- A change of the queues alone. -/
theorem Waits.of_tasks (h : w.Waits i j ticket) (tasks : w'.tasks = w.tasks)
    (late : ∀ time, ⟨time, j, ticket⟩ ∈ w'.timers → w'.now < time)
    (unreleased : .release j ticket ∉ w'.round ∧ .release j ticket ∉ w'.next) : w'.Waits i j ticket := by
  have watchers : ∀ k, w'.watchersOf k = w.watchersOf k := fun k => by rw [watchersOf, tasks]; rfl
  refine ⟨?_, fun k here => h.unwoken k (watchers k ▸ here), late, unreleased, fun k here =>
    h.watched k (watchers k ▸ here)⟩
  rw [standing?, World.called, tasks]
  exact h.stands

/-- Another task leaves its queue. -/
theorem Waits.atTurn (h : w.Waits i j ticket) (leaves : w.Dequeues task w₁) (other : j ≠ task) :
    (w₁.atTurn task).Waits i j ticket := by
  have popped : w₁.Waits i j ticket := h.of_tasks leaves.tasks (leaves.now ▸ leaves.timers ▸ h.late)
    ⟨fun member => h.unreleased.1 (leaves.releases _ _ member), leaves.next ▸ h.unreleased.2⟩
  have same : (w₁.atTurn task).tasks[j]? = w₁.tasks[j]? :=
    (w₁.change_task task _ j).trans (if_neg (Ne.symm other))
  refine ⟨?_, fun k here => popped.unwoken k (w₁.atTurn_watchers task k ▸ here), popped.late, popped.unreleased,
    fun k here => popped.watched k (w₁.atTurn_watchers task k ▸ here)⟩
  rw [standing?, World.called, same]
  exact popped.stands

/-- To release a ticket calls nobody off. -/
theorem release_called (w : World α) (task ticket : Nat) (called : w.called j = true) :
    (w.due (.release task ticket)).called j = true := by
  rcases w.release_cases task ticket with same | ⟨parked, same⟩ <;> rw [same]
  · exact called
  · obtain ⟨t, found, calls⟩ := called_iff.mp called
    refine called_iff.mpr ?_
    by_cases own : task = j
    · subst own
      rw [standing?, found] at parked
      have standing : t.standing = .parked ticket := Option.some.inj parked
      rw [standing] at calls
      refine ⟨{ t with standing := .released }, ?_, calls⟩
      exact (w.change_task task _ task).trans (by rw [if_pos rfl, found]; rfl)
    · exact ⟨t, ((w.change_task task _ j).trans (if_neg own)).trans found, calls⟩

/-- A ticket is released that is not the one waited for. -/
theorem Waits.release {released : Nat} (h : w.Waits i j ticket) {rest : List Due}
    (round : w.round = .release task released :: rest) :
    ({ w with round := rest }.due (.release task released)).Waits i j ticket := by
  let w₁ := { w with round := rest }
  have popped : w₁.Waits i j ticket := h.of_tasks rfl h.late
    ⟨fun member => h.unreleased.1 (round ▸ List.mem_cons_of_mem _ member), h.unreleased.2⟩
  have called := w₁.release_called task released (j := j)
  rcases w₁.release_cases task released with same | ⟨parked, same⟩
  · exact same.symm ▸ popped
  · rw [same] at called ⊢
    refine ⟨popped.stands.imp (fun stood => ?_) called, fun k here => popped.unwoken k (w₁.stand_watchers task k _ ▸ here),
      popped.late,
      ⟨popped.unreleased.1, fun member => popped.unreleased.2 ((List.mem_cons.mp member).resolve_left nofun)⟩,
      fun k here => popped.watched k (w₁.stand_watchers task k _ ▸ here)⟩
    refine (w₁.stand_standing task j _).trans ((if_neg fun own => ?_).trans stood)
    subst own
    cases parked.symm.trans stood
    exact h.unreleased.1 (round ▸ List.mem_cons_self)

/-- The next round begins before the time is over. -/
theorem Waits.nextRound (h : w.Waits i j ticket) (turn : w.NextRound w')
    (late : ∀ time, ⟨time, j, ticket⟩ ∈ w.timers → w'.now < time) : w'.Waits i j ticket := by
  obtain ⟨tasks, _, _, _, next, _, timers, rung, round, rings⟩ := turn
  refine h.of_tasks tasks (fun time member => late time (timers member))
    ⟨fun member => ?_, next ▸ List.not_mem_nil⟩
  rw [round] at member
  rcases List.mem_append.mp member with old | new
  · exact h.unreleased.2 (List.mem_reverse.mp old)
  · obtain ⟨t, inside, due, same⟩ := rings _ new
    cases same
    exact Rat.not_le.mpr (late t.time inside) due

theorem Unhurried.atTurn (h : w.Unhurried none) (leaves : w.Dequeues task w₁) :
    (w₁.atTurn task).Unhurried (some task) := by
  have quiet := leaves.quiet.trans (w₁.atTurn_quiet task)
  intro j p other apart waits opens
  obtain ⟨line, ticket, patient⟩ := h j p nofun nofun ((quiet.pending j).symm.trans waits)
    (opens.imp fun t here => (quiet.work _).symm.trans here)
  exact ⟨line.imp (leaves.others _ fun same => apart (congrArg some same.symm)) (leaves.next ▸ ·), ticket,
    patient.atTurn leaves fun same => other (congrArg some same.symm)⟩

theorem Unhurried.release (h : w.Unhurried none) {rest : List Due}
    (round : w.round = .release task ticket :: rest) :
    ({ w with round := rest }.due (.release task ticket)).Unhurried none := by
  let w₁ := { w with round := rest }
  have quiet : Quiet w (w₁.due (.release task ticket)) :=
    ({ Quiet.refl w with } : Quiet w w₁).trans (w₁.release_quiet task ticket)
  intro j p _ _ waits opens
  obtain ⟨line, ticket', patient⟩ := h j p nofun nofun ((quiet.pending j).symm.trans waits)
    (opens.imp fun t here => (quiet.work _).symm.trans here)
  refine ⟨?_, ticket', patient.release round⟩
  rw [InLine, round, List.mem_cons] at line
  have line : w₁.InLine p.walk := line.imp_left fun member => member.resolve_left nofun
  rcases w₁.release_cases task ticket with same | ⟨_, same⟩
  · exact same.symm ▸ line
  · exact same.symm ▸ line.imp_right (List.mem_cons_of_mem _)

/-- Time stands still in the next round while a traversal is to open. -/
theorem Unhurried.nextRound (h : w.Unhurried none) (round : w.round = []) (turn : w.NextRound w') :
    w'.Unhurried none := by
  intro j p _ _ waits opens
  rw [World.pending?, work?, turn.tasks] at waits
  have opens : w.Opening p.walk := by
    obtain ⟨t, here⟩ := opens
    rw [work?, turn.tasks] at here
    exact ⟨t, here⟩
  obtain ⟨line, ticket, patient⟩ := h j p (by cases ·) (by cases ·) waits opens
  rw [InLine, round] at line
  have ready := line.resolve_left List.not_mem_nil
  have now := turn.now (List.ne_nil_of_mem ready)
  obtain ⟨rung, round', _⟩ := turn.round
  exact ⟨.inl (round' ▸ List.mem_append_left _ (List.mem_reverse.mpr ready)), ticket,
    patient.nextRound turn fun time member => now ▸ patient.late time member⟩

/-- To call all tasks is nobody's turn. -/
theorem Own.cancelAll (w : World α) (task : Nat) : Own task w w.cancelAll := by
  have cancelled : ∀ (tasks : List Nat) (w : World α), Own task w (tasks.foldl (fun w i => w.cancel i) w) := by
    intro tasks
    induction tasks with
    | nil => exact Own.refl
    | cons i rest ih => exact fun w => (Own.cancel w i).trans (ih _)
  exact cancelled _ w

theorem Unhurried.cancelAll (h : w.Unhurried none) (shown : Shows none w c) : w.cancelAll.Unhurried none := by
  intro j p _ _ waits opens
  -- none of the two has this number
  let task := j + p.walk + 1
  have but : w.Unhurried (some task) := fun j p _ _ => h j p nofun nofun
  refine but.own shown (.cancelAll w task) j p (fun same => ?_) (fun same => ?_) waits opens
  · have := Option.some.inj same
    omega
  · have := Option.some.inj same
    omega

theorem Unhurried.withPhase (h : w.Unhurried none) (phase : Phase) : { w with phase }.Unhurried none := by
  intro j p _ _ waits opens
  obtain ⟨line, ticket, patient⟩ := h j p nofun nofun waits opens
  exact ⟨line, ticket, patient.of_tasks rfl patient.late patient.unreleased⟩

theorem Unhurried.idles (h : w.Unhurried none) (shown : Shows none w c) (round : w.round = [])
    (step : w.idles = some w') : w'.Unhurried none := by
  cases idles_cases step with
  | still phase => exact h.withPhase phase
  | round phase _ next => exact (h.withPhase phase).nextRound round (nextRound_eq next)
  | drain => exact (h.cancelAll shown).withPhase .draining

/-- A step leaves executions unhurried. -/
theorem Unhurried.step (h : w.Unhurried none) (scheduled : w.Scheduled) (shown : Shows none w c)
    (step : w.step = some w') : w'.Unhurried none := by
  cases steps_of_step step with
  | @turn task w₁ leaves =>
      have shown₁ := shown.quiet (leaves.quiet.trans (w₁.atTurn_quiet task))
      exact (leaves.turned scheduled shown).unhurried (scheduled.atTurn leaves) shown₁ (h.atTurn leaves)
  | release round => exact h.release round
  | idle round idles => exact h.idles shown round idles

/-- An execution that waits for a traversal to open gets no turn before, unless it was called. -/
theorem Unhurried.called (h : w.Unhurried none) (scheduled : w.Scheduled) {p : Pending}
    (waits : w.pending? task = some p) (opens : w.Opening p.walk) (leaves : w.Dequeues task w₁) :
    w.called task = true := by
  obtain ⟨s, standing, _, awake⟩ := leaves.standing scheduled
  obtain ⟨_, ticket, patient⟩ := h task p nofun nofun waits opens
  refine patient.stands.resolve_left fun parked => ?_
  cases Option.some.inj (standing.symm.trans parked)
  exact awake ticket rfl

/-- In no world that comes of commands does an execution run out of time before its traversal opens. -/
theorem Leads.unhurried {s : Session} {commands : List (Command α)} (steps : (ofCommands s commands).Leads w)
    (stored : 0 < s.stores.size) (proper : ∀ x ∈ commands, x.Proper) : w.Unhurried none := by
  induction steps with
  | refl =>
      intro j p _ _ waits
      obtain ⟨x, here, pending⟩ := Option.bind_eq_some_iff.mp waits
      cases j with
      | zero =>
          cases here
          cases pending
      | succ j => cases here
  | tail steps step ih =>
      obtain ⟨c, _, shown⟩ := (ofCommands_shows stored proper).leads steps
      exact ih.step (Leads.scheduled steps stored proper) shown step

end World
end BlockGraph
