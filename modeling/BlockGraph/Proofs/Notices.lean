import BlockGraph.Proofs.Staff
import BlockGraph.Proofs.Wakes
/-!
Notice. A task that waits for another one is told when that is over: it stays on the list of those who watch the other
until then, and the ticket that it holds is released at once.
-/
namespace BlockGraph
namespace World

variable {α : Type} {w w₁ w' : World α} {task ticket i j k : Nat} {c c' : Course}

/-! ### Who watches -/

theorem cancel_watchers (w : World α) (task i : Nat) : (w.cancel task).watchersOf i = w.watchersOf i := by
  unfold World.cancel
  split
  · rfl
  · split
    · rfl
    · exact w.stand_watchers task i .interrupted
    · exact w.change_watchers task i fun _ => rfl

theorem cancelAll_watchers (w : World α) (i : Nat) : w.cancelAll.watchersOf i = w.watchersOf i := by
  have cancelled : ∀ (tasks : List Nat) (w : World α),
      (tasks.foldl (fun w task => w.cancel task) w).watchersOf i = w.watchersOf i := by
    intro tasks
    induction tasks with
    | nil => exact fun _ => rfl
    | cons task rest ih => exact fun w => (ih _).trans (w.cancel_watchers task i)
  exact cancelled _ w

theorem tell_watchers (w : World α) (watcher : Watcher) (i : Nat) : (w.tell watcher).watchersOf i = w.watchersOf i := by
  cases watcher with
  | release k ticket => rfl
  | wake k => exact w.stand_watchers k i .released

/-- Those who watch a task that is over are told. -/
theorem told (watchers : List Watcher) (w : World α) : (∀ i, (watchers.foldl tell w).watchersOf i = w.watchersOf i) ∧
    (∀ d ∈ w.next, d ∈ (watchers.foldl tell w).next) ∧
    ∀ i ticket, .release i ticket ∈ watchers → .release i ticket ∈ (watchers.foldl tell w).next := by
  induction watchers generalizing w with
  | nil => exact ⟨fun _ => rfl, fun _ => id, fun _ _ => nofun⟩
  | cons watcher rest ih =>
      obtain ⟨watchers, next, releases⟩ := ih (w.tell watcher)
      refine ⟨fun i => (watchers i).trans (w.tell_watchers watcher i), fun d member => next d ?_, fun i ticket member => ?_⟩
      · cases watcher <;> exact List.mem_cons_of_mem _ member
      · rcases List.mem_cons.mp member with rfl | old
        · exact next _ List.mem_cons_self
        · exact releases i ticket old

theorem release_watchers (w : World α) (task ticket i : Nat) :
    (w.due (.release task ticket)).watchersOf i = w.watchersOf i := by
  rcases w.release_cases task ticket with same | ⟨_, same⟩ <;> rw [same]
  exact w.stand_watchers task i .released

theorem Act.watchers (act : Act task w w') (inside : i < w.tasks.size) : w'.watchersOf i = w.watchersOf i := by
  cases act with
  | work x => exact w.withWork_watchers task i x
  | start r => rw [spawn_watchers, if_neg (Nat.ne_of_lt inside)]
  | cancel k => exact w.cancel_watchers k i
  | _ => rfl

theorem Acts.watchers (acts : Acts task w w') (inside : i < w.tasks.size) : w'.watchersOf i = w.watchersOf i := by
  induction acts with
  | refl => rfl
  | tail before act ih => exact (act.watchers (Nat.lt_of_lt_of_le inside (Acts.size before))).trans ih

theorem sleep_watchers (w : World α) (task i : Nat) (length : Span) :
    (w.sleep task length).watchersOf i = w.watchersOf i := by
  unfold World.sleep
  cases length with
  | forever => exact w.park_watchers task i
  | ms r =>
      simp only
      split
      · exact w.stand_watchers task i .queued
      · exact w.park_watchers task i

theorem AtWork.works (h : w.AtWork task) (quiet : Quiet w w₁) (y : Work α) :
    (w₁.withWork task y).work? task = some y := by
  obtain ⟨t, found, _⟩ := Option.map_eq_some_iff.mp h.queued
  rw [withWork_work, if_pos rfl, quiet.work, work?, found]
  rfl

/-- Whether a task waits for another one that it did not start itself. -/
def Minds (w : World α) (task i : Nat) : Prop :=
  ∃ y, w.work? task = some y ∧ y.isFree = true ∧ (y.awaits? = some i ∨ y.joins? = some i)

/-- What a task does last leaves those alone who watch another one, unless it comes to watch that itself. -/
theorem Last.watchers (last : Last task w w') (h : w.AtWork task) (inside : i < w.tasks.size) (other : i ≠ task) :
    w'.watchersOf i = w.watchersOf i ∨ w'.Minds task i := by
  cases last with
  | rest => exact .inl rfl
  | busy => exact .inl rfl
  | sleep length => exact .inl (w.sleep_watchers task i length)
  | ask x y walk? length => exact .inl ((w.ask_watchers task x y walk? length i).trans (if_neg (Nat.ne_of_lt inside)))
  | finish =>
      obtain ⟨t, found, _⟩ := Option.map_eq_some_iff.mp h.queued
      rw [finish_eq w task found, (told _ _).1, ceased_watchers, if_neg other.symm]
      exact .inl rfl
  | giveUp y k placed waits free =>
      by_cases same : k = i
      · have quiet := (watch_quiet ((w.park task).2.withWork task y) k [.release task w.tickets]).trans (cancel_quiet _ k)
        exact .inr ⟨y, (quiet.work task).trans (h.works (w.park_quiet task) y), free, .inl (same ▸ waits)⟩
      · left
        refine (cancel_watchers _ k i).trans ((watch_watchers _ k i _).trans ((if_neg same).trans ?_))
        exact (withWork_watchers _ task i y).trans (w.park_watchers task i)
  | join y k own placed free joins =>
      subst own
      by_cases same : k = i
      · have quiet := (w.park_quiet 0).trans (watch_quiet _ k [.wake 0])
        exact .inr ⟨y, h.works quiet y, free, .inr (same ▸ joins)⟩
      · left
        rw [withWork_watchers, watch_watchers, if_neg same, park_watchers]

theorem Turned.watchers (turned : Turned task w w') (h : w.AtWork task) (inside : i < w.tasks.size) (other : i ≠ task) :
    w'.watchersOf i = w.watchersOf i ∨ w'.Minds task i := by
  obtain ⟨w₁, acts, last⟩ := turned
  exact (last.watchers (acts.atWork h) (Nat.lt_of_lt_of_le inside acts.size) other).imp_left
    (·.trans (acts.watchers inside))

/-- A traversal or logic that has its turn tells those who watch it when it is over, and else goes on being watched. -/
theorem Last.tells (last : Last task w w') (h : w.AtWork task) (outer : task ≠ 0) :
    w'.standing? task = some .over ∧ (∀ i ticket, .release i ticket ∈ w.watchersOf task → .release i ticket ∈ w'.next) ∨
      w'.standing? task ≠ some .over ∧ w'.watchersOf task = w.watchersOf task := by
  have awake : ∀ {s : Standing}, w'.standing? task = some s → s ≠ .over → w'.standing? task ≠ some .over :=
    fun stands alive ceased => alive (Option.some.inj (stands.symm.trans ceased))
  cases last with
  | rest => exact .inr ⟨awake h.queued nofun, rfl⟩
  | busy => exact .inr ⟨awake h.queued nofun, rfl⟩
  | sleep length =>
      have scheduled := h.scheduled.sleep h.free h.queued length
      exact .inr ⟨(h.sleep_wakes length).alive scheduled, w.sleep_watchers task task length⟩
  | ask x y walk? length =>
      refine .inr ⟨awake (h.ask_parked x y walk? length) nofun, ?_⟩
      exact (w.ask_watchers task x y walk? length task).trans (if_neg (Nat.ne_of_lt h.inside))
  | finish =>
      obtain ⟨t, found, _⟩ := Option.map_eq_some_iff.mp h.queued
      refine .inl ⟨h.finish_ceased (.inl rfl), fun i ticket here => ?_⟩
      rw [finish_eq w task found]
      rw [watchersOf, found] at here
      exact (told _ _).2.2 i ticket here
  | giveUp y k placed waits =>
      have apart := (placed.2 k waits).2
      refine .inr ⟨awake (s := .parked w.tickets) ?_ nofun, ?_⟩
      · refine (cancel_standing _ apart).trans ((watch_standing _ k task _).trans ?_)
        exact (withWork_standing _ task task y).trans h.parked
      · refine (cancel_watchers _ k task).trans ((watch_watchers _ k task _).trans ((if_neg apart).trans ?_))
        exact (withWork_watchers _ task task y).trans (w.park_watchers task task)
  | join y k own => exact absurd own outer

theorem Turned.tells (turned : Turned task w w') (h : w.AtWork task) (outer : task ≠ 0) :
    w'.standing? task = some .over ∧ (∀ i ticket, .release i ticket ∈ w.watchersOf task → .release i ticket ∈ w'.next) ∨
      w'.standing? task ≠ some .over ∧ w'.watchersOf task = w.watchersOf task := by
  obtain ⟨w₁, acts, last⟩ := turned
  rw [← acts.watchers h.inside]
  exact last.tells (acts.atWork h) outer

/-! ### Being told -/

/-- Whether a task waits to be told that another one is over. -/
def Watches (w : World α) (i k : Nat) : Prop := w.standing? k ≠ some .over ∧
  ∃ ticket, w.standing? i = some (.parked ticket) ∧ .release i ticket ∈ w.watchersOf k

/-- Whether a task is to have its turn before time goes on, or as soon as another one is over. -/
def Heeds (w : World α) (i k : Nat) : Prop := w.WakesBy i w.now ∨ w.Watches i k

theorem Soon.heeds (h : w.Soon i) : w.Heeds i k := .inl ⟨le_refl _, .inl h⟩

/-- Who heeds a task that is over has its turn before time goes on. -/
theorem Heeds.ceased (h : w.Heeds i k) (ceased : w.standing? k = some .over) : w.WakesBy i w.now :=
  h.resolve_right fun ⟨alive, _⟩ => alive ceased

theorem Watches.inside (h : w.Watches i k) : k < w.tasks.size := by
  obtain ⟨_, ticket, _, here⟩ := h
  refine Nat.not_le.mp fun outside => ?_
  rw [watchersOf, Array.getElem?_eq_none outside] at here
  cases here

/-- A task that asks for another one is told of its end. -/
theorem AtWork.ask_watches (h : w.AtWork task) (x y : Work α) (walk? : Option Nat) (length : Span) :
    (w.ask task x y walk? length).Watches task w.tasks.size := by
  refine ⟨fun ceased => ?_, w.tickets, h.ask_parked x y walk? length, ?_⟩
  · have size : (w.park task).2.tasks.size = w.tasks.size := w.change_size task _
    let w₁ := ((w.park task).2.spawn x [.release task w.tickets]).2
    have tasks : (w.ask task x y walk? length).tasks = (w₁.withWork task y).tasks := by cases length <;> rfl
    have stands : w₁.standing? w.tasks.size = _ := (w.park task).2.spawn_standing _ x _
    rw [standing?, tasks, ← standing?, withWork_standing, stands, if_pos size.symm] at ceased
    cases ceased
  · rw [ask_watchers, if_pos rfl]
    exact List.mem_singleton.mpr rfl

/-- A task that gives up another one is told of its end, unless that is over already. -/
theorem AtWork.giveUp_watches (h : w.AtWork task) (y : Work α) (apart : k ≠ task) (alive : w.standing? k ≠ some .over)
    (inside : k < w.tasks.size) : (w.giveUp task y k).Watches task k := by
  let w₁ := ((w.park task).2.withWork task y).watch k [.release task w.tickets]
  have stands : ∀ i, w₁.standing? i = (w.park task).2.standing? i := fun i =>
    (watch_standing _ k i _).trans (withWork_standing _ task i y)
  refine ⟨(Keeps.cancel w₁ k).alive fun ceased => alive ?_, w.tickets, ?_, ?_⟩
  · rwa [stands, park_standing, if_neg apart.symm] at ceased
  · exact (cancel_standing w₁ apart).trans ((stands task).trans h.parked)
  · have size : ((w.park task).2.withWork task y).tasks.size = w.tasks.size :=
      (change_size _ task _).trans (w.change_size task _)
    have watchers : w₁.watchersOf k = _ := watch_watchers _ k k _
    rw [show (w.giveUp task y k).watchersOf k = w₁.watchersOf k from cancel_watchers w₁ k k, watchers, if_pos rfl,
      Array.getElem?_eq_getElem (size ▸ inside)]
    exact List.mem_singleton.mpr rfl

theorem Watches.keeps (h : w.Watches i k) (keeps : Keeps i w w') (alive : w'.standing? k ≠ some .over)
    (watchers : w'.watchersOf k = w.watchersOf k) : w'.Heeds i k := by
  obtain ⟨_, ticket, parked, here⟩ := h
  rcases keeps.rests ticket parked with line | ⟨parked, _⟩
  · exact Soon.heeds (.inl (.inr (.inr line)))
  · exact .inr ⟨alive, ticket, parked, watchers ▸ here⟩

/-- The turn of another task, which does not come to wait for the same one. -/
theorem Watches.turned (h : w.Watches i k) (turned : Turned task w w') (at_ : w.AtWork task) (other : i ≠ task)
    (outer : k ≠ 0) (unminded : ¬w'.Minds task k) : w'.Heeds i k := by
  have keeps := turned.keeps other
  by_cases own : k = task
  · subst own
    rcases turned.tells at_ outer with ⟨_, told⟩ | ⟨alive, watchers⟩
    · obtain ⟨_, ticket, parked, here⟩ := h
      rcases keeps.rests ticket parked with line | ⟨parked, _⟩
      · exact Soon.heeds (.inl (.inr (.inr line)))
      · exact Soon.heeds (.inr ⟨ticket, parked, .inr (told i ticket here)⟩)
    · exact h.keeps keeps alive watchers
  · have watchers := (turned.watchers at_ h.inside own).resolve_right unminded
    exact h.keeps keeps ((turned.keeps own).alive h.1) watchers

/-- What a task heeds is not lost in a step that is not its turn. -/
theorem Heeds.step (h : w.Heeds i k) (ordered : w.Ordered) (scheduled : w.Scheduled) (shown : Shows none w c)
    (step : w.step = some w') (apart : w.upNext? ≠ some i) (outer : k ≠ 0)
    (unminded : ∀ task, w.upNext? = some task → ¬w'.Minds task k) : w'.Heeds i k := by
  rcases h with wakes | watches
  · have wakes := wakes.step ordered scheduled shown step apart
    exact .inl (wakes.mono (WithTop.coe_le_coe.mpr (step_now scheduled shown step)))
  · cases next_of_step step with
    | @turn task w₁ up leaves =>
        have other : i ≠ task := fun same => apart (same ▸ up)
        have at_ := scheduled.atTurn leaves
        obtain ⟨alive, ticket, parked, here⟩ := watches
        have watches : (w₁.atTurn task).Watches i k := by
          refine ⟨fun ceased => ?_, ticket, ?_, ?_⟩
          · by_cases own : task = k
            · subst own
              cases at_.queued.symm.trans ceased
            · rw [atTurn_standing, if_neg own, standing?, leaves.tasks] at ceased
              exact alive ceased
          · rw [atTurn_standing, if_neg other.symm, standing?, leaves.tasks]
            exact parked
          · rw [atTurn_watchers, watchersOf, leaves.tasks]
            exact here
        exact watches.turned (leaves.turned scheduled shown) at_ other outer (unminded task up)
    | @release task ticket rest =>
        have popped : { w with round := rest }.Watches i k := watches
        exact popped.keeps (.released _ task ticket) ((Keeps.released _ task ticket).alive watches.1)
          (release_watchers _ task ticket k)
    | idle _ _ _ idles =>
        cases idles_cases idles with
        | still => exact .inr watches
        | round phase _ next =>
            have tasks := (nextRound_eq next).tasks
            unfold Heeds Watches standing? watchersOf
            rw [tasks]
            exact .inr watches
        | drain =>
            exact watches.keeps ((Keeps.cancelAll w).trans (.withPhase _ .draining)) ((Keeps.cancelAll w).alive watches.1)
              (w.cancelAll_watchers k)

/-! ### Who is waited for -/

/-- Nobody but the traversal waits for block logic, and nobody waits for a traversal but an execution that is under
way. -/
theorem Minds.logic (h : w.Minds task k) (shown : Shows none w c) (scheduled : w.Scheduled) (staffed : w.Staffed 0)
    {x : Work α} (here : w.work? k = some x) (inner : x.Inner) : w.walk? = some task ∧ ∃ a, x = .attempt a := by
  obtain ⟨y, there, free, awaits | joins⟩ := h
  · have unpending : y.pending?.map (·.walk) ≠ some k := fun waits => by
      rw [pending_of_free free] at waits
      cases waits
    cases y with
    | walk l =>
        obtain ⟨t, mode⟩ := l
        by_cases walk : w.walk? = some task
        · refine ⟨walk, ?_⟩
          have came := shown.came walk there
          cases mode with
          | awaiting j | abandoning j =>
              cases awaits
              obtain ⟨a, found, _⟩ := Option.map_eq_some_iff.mp came
              exact ⟨a, Option.some.inj (here.symm.trans ((attempt?_eq _ _ _).mp found))⟩
          | _ => cases awaits
        · obtain ⟨e, rfl⟩ : ∃ e, mode = .over e := shown.walks task _ there (.inl walk)
          cases awaits
    | _ => exact absurd awaits unpending
  · obtain ⟨m, runs⟩ := staffed.joins scheduled there joins
    cases here.symm.trans runs
    cases inner

/-- What an execution under way waits for tells it of its end. -/
theorem Leads.heeds {s : Session} {commands : List (Command α)} (steps : (ofCommands s commands).Leads w)
    (stored : 0 < s.stores.size) (proper : ∀ x ∈ commands, x.Proper) {p : Pending} (waits : w.pending? i = some p) :
    w.Heeds i p.walk := by
  induction steps generalizing i p with
  | refl =>
      obtain ⟨x, here, pending⟩ := Option.bind_eq_some_iff.mp waits
      cases i with
      | zero =>
          cases here
          cases pending
      | succ i => cases here
  | @tail w w' steps step ih =>
      obtain ⟨c, _, shown⟩ := (ofCommands_shows stored proper).leads steps
      have scheduled := Leads.scheduled steps stored proper
      have steps' := Relation.ReflTransGen.tail steps step
      obtain ⟨c', _, shown'⟩ := (ofCommands_shows stored proper).leads steps'
      obtain ⟨x, here, pending⟩ := Option.bind_eq_some_iff.mp waits
      have scheduled' := Leads.scheduled steps' stored proper
      have outer : p.walk ≠ 0 := ((scheduled'.placed i x here).2 _ (awaits_of_pending pending)).1
      have goes : w.upNext? ≠ some i → w.pending? i = some p → w'.Heeds i p.walk := fun apart waits' => by
        refine (ih waits').step (Leads.ordered steps stored proper) scheduled shown step apart outer fun task _ minds => ?_
        obtain ⟨k, walk⟩ := shown'.walk_there waits
        obtain ⟨_, a, same⟩ := minds.logic shown' scheduled' (Leads.staffed steps' stored proper) walk (.walk k)
        cases same
      cases next_of_step step with
      | @release task ticket rest up =>
          refine goes (up ▸ nofun) (((release_quiet { w with round := rest } task ticket).pending i).symm.trans waits)
      | idle up _ _ idles => exact goes (up ▸ nofun) (((idles_quiet idles).pending i).symm.trans waits)
      | @turn task w₁ up leaves =>
          have at_ := scheduled.atTurn leaves
          have turned := leaves.turned scheduled shown
          have quiet := leaves.quiet.trans (w₁.atTurn_quiet task)
          by_cases own : i = task
          · subst own
            obtain ⟨w₂, acts, last⟩ := turned
            rcases last.free_or_asks with free | ⟨y, z, walk?, length, same, asks, _⟩
            · cases (pending_of_free (free x here)).symm.trans pending
            · have at₂ := acts.atWork at_
              rw [same] at here ⊢
              cases (at₂.ask_work y z walk? length).symm.trans here
              rw [Option.some.inj ((awaits_of_pending pending).symm.trans asks)]
              exact .inr (at₂.ask_watches y _ walk? length)
          · refine goes (fun same => own (Option.some.inj (same.symm.trans up))) ?_
            exact (quiet.pending i).symm.trans ((turned.own at_).pending own waits)

end World
end BlockGraph
