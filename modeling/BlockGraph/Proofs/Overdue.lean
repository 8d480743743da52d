import BlockGraph.Proofs.Resumptions
/-!
Overdue logic. A traversal that has waited for logic as long as it may calls it and waits for its end. Civil logic is
over at once then, and so the run fails with its impatience, and nothing else happens in it.
-/
namespace BlockGraph

/-! ### Runs in which nothing happens -/

/-- Whether a run starts, hands over, traverses and completes nothing from one session to another. A failure may be
noted. -/
structure Session.Stalls (f : RunFault) (s s' : Session) : Prop where
  processed : s'.processed = s.processed
  steps : s'.steps = s.steps
  heard : s'.heardVisits = s.heardVisits
  history : s'.history = s.history ∨ s'.history = .failed f :: s.history

section Stalls

variable {s s₁ s' : Session} {f : RunFault} {calm : Prop} {c c' : Course}

theorem Kept.stalls (h : Kept s s') : s.Stalls f s' := ⟨h.processed, h.steps, h.heard, .inl h.history⟩

theorem Kept.noted (h : Kept s s') : s.Stalls f (s'.note (.failed f)) :=
  ⟨h.processed, h.steps, h.heard, .inr (congrArg _ h.history)⟩

theorem Kept.stalling (h : Kept s s₁) (stalls : s₁.Stalls f s') : s.Stalls f s' where
  processed := stalls.processed.trans h.processed
  steps := stalls.steps.trans h.steps
  heard := stalls.heard.trans h.heard
  history := h.history ▸ stalls.history

theorem Session.Stalls.kept (h : s.Stalls f s₁) (kept : Kept s₁ s') : s.Stalls f s' where
  processed := kept.processed.trans h.processed
  steps := kept.steps.trans h.steps
  heard := kept.heard.trans h.heard
  history := kept.history ▸ h.history

/-- A traversal that waits has not gone on. -/
theorem Passes.waiting_deeds (h : Passes calm c c') (sound : c.Sound) {t t' : Traversal} {a a' : Attempt}
    {given? given'? : Option Bool} (waits : c.stage = .awaiting t a given?) (still : c'.stage = .awaiting t' a' given'?) :
    Deeds c.session c'.session := by
  obtain ⟨_, sound⟩ := sound
  rw [waits] at sound
  obtain ⟨_, known, _⟩ := sound
  cases h with
  | rest => exact .refl
  | aside _ _ _ deeds => exact deeds
  | next _ next =>
      cases waits
      unfold Stage.next at next
      simp only at next
      split at next
      · have taken := congrArg Prod.fst (Option.some.inj next)
        exact absurd (taken.trans still) (Stage.took_unwaiting _ _ _ _ _ _ _ _)
      · cases next
        exact a.process.resume_deeds known
  | cut _ _ cut =>
      cases waits
      cases cut with
      | giveUp | drop | insist => exact .refl
      | interrupt => exact a.process.interrupt_deeds known
      | leave | cancel => cases still

end Stalls

namespace World

variable {α : Type} {w w₁ w₂ w' : World α} {c c' : Course} {task i j k : Nat} {t : Traversal} {g : RunFault}
  {frame : Frame} {outer : List Frame}

/-! ### Calling tasks -/

theorem cancel_awake (w : World α) (k ticket : Nat) : (w.cancel k).standing? k ≠ some (.parked ticket) := by
  unfold World.cancel
  split
  · rename_i none
    rw [standing?, none]
    rintro ⟨⟩
  · rename_i t found
    have stands : w.standing? k = some t.standing := by
      rw [standing?, found]
      rfl
    split
    · rename_i ceased
      rw [stands, ceased]
      rintro ⟨⟩
    · have called : ((w.stand k .interrupted).unschedule k).standing? k = _ := w.stand_standing k k .interrupted
      rw [show (((w.stand k .interrupted).unschedule k).later (.turn k)).standing? k = _ from called, if_pos rfl, stands]
      rintro ⟨⟩
    · rename_i awake
      refine fun parked => awake ticket (Option.some.inj (stands.symm.trans (Eq.trans ?_ parked)))
      exact (w.change_standing k k (f := fun t => { t with cancelled := true }) fun _ => rfl).symm

theorem cancel_timers (w : World α) (k : Nat) : ∀ x ∈ (w.cancel k).timers, x ∈ w.timers := by
  unfold World.cancel
  split
  · exact fun _ => id
  · split
    · exact fun _ => id
    · exact fun _ member => (List.mem_filter.mp member).1
    · exact fun _ => id

theorem cancel_called (there : w.standing? k ≠ none) (alive : w.standing? k ≠ some .over) :
    (w.cancel k).called k = true := by
  obtain ⟨s, stands⟩ := Option.ne_none_iff_exists'.mp there
  obtain ⟨t, found, rfl⟩ := Option.map_eq_some_iff.mp stands
  have called : ∀ {f : Task α → Task α}, (∀ t, ((f t).cancelled || (f t).standing == .interrupted) = true) →
      (w.change k f).called k = true := fun calls => by
    rw [World.called, change_task, if_pos rfl, found]
    exact calls t
  unfold World.cancel
  simp only [found]
  split
  · rename_i ceased
    exact absurd (stands.trans (congrArg some ceased)) alive
  · exact called fun t => Bool.or_true _
  · exact called fun t => rfl

/-- A task that is called stays so until its turn. -/
theorem step_called (called : w.called k = true) (scheduled : w.Scheduled) (shown : Shows none w c)
    (step : w.step = some w') (apart : w.upNext? ≠ some k) : w'.called k = true := by
  cases next_of_step step with
  | @turn task w₁ up leaves =>
      have other : k ≠ task := fun same => apart (same ▸ up)
      refine ((leaves.turned scheduled shown).own (scheduled.atTurn leaves)).called k other ?_
      rw [World.called, World.atTurn, change_task, if_neg other.symm, leaves.tasks]
      exact called
  | @release task ticket rest => exact release_called { w with round := rest } task ticket called
  | idle _ _ _ idles =>
      cases idles_cases idles with
      | still => exact called
      | round phase _ next =>
          rw [World.called, (nextRound_eq next).tasks]
          exact called
      | drain => exact (Own.cancelAll w (k + 1)).called k (Nat.ne_of_lt (Nat.lt_succ_self k)) called

/-- A task that gives up another one waits until that is over. -/
theorem AtWork.giveUp_lasts (h : w.AtWork task) (y : Work α) (apart : k ≠ task) (since : Rat) :
    (w.giveUp task y k).Lasts task k .forever since := by
  have fresh : ∀ {P : Prop}, w.Refers task w.tickets → P := fun refers =>
    absurd (h.scheduled.issued _ _ refers) (Nat.lt_irrefl _)
  let w₁ := ((w.park task).2.withWork task y).watch k [.release task w.tickets]
  have stands : w₁.standing? task = some (.parked w.tickets) :=
    (watch_standing _ k task _).trans ((withWork_standing _ task task y).trans h.parked)
  have watchers : ∀ i, ∀ x ∈ (w.giveUp task y k).watchersOf i, i = k ∧ x = .release task w.tickets ∨ x ∈ w.watchersOf i := by
    intro i x here
    have here : x ∈ w₁.watchersOf i := cancel_watchers w₁ k i ▸ here
    rw [show w₁.watchersOf i = _ from watch_watchers _ k i _] at here
    split at here
    · rename_i same
      cases found : ((w.park task).2.withWork task y).tasks[i]? with
      | none =>
          rw [found] at here
          cases here
      | some t =>
          rw [found] at here
          exact .inl ⟨same.symm, List.mem_singleton.mp here⟩
    · rw [withWork_watchers, park_watchers] at here
      exact .inr here
  have own : Own task w (w.giveUp task y k) := .giveUp w y k
  have rings : ∀ time, ⟨time, task, w.tickets⟩ ∉ (w.giveUp task y k).timers := fun time member =>
    fresh (.timer (w₁.cancel_timers k _ member))
  refine .inr (.inr ⟨w.tickets, ⟨.inl ?_, fun i here => ?_, fun time member => absurd member (rings time),
    ⟨fun member => ?_, fun member => ?_⟩, fun i here => ?_⟩, fun time member => absurd member (rings time)⟩)
  · exact (cancel_standing w₁ apart).trans stands
  · rcases watchers i _ here with ⟨_, new⟩ | old
    · cases new
    · exact h.scheduled.unwoken_of_queued h.queued i old
  · exact fresh (.due (.inl (own.round ▸ member)))
  · have before : .release task w.tickets ∈ w₁.next := w₁.cancel_untold k nofun member
    exact fresh (.due (.inr before))
  · rcases watchers i _ here with ⟨same, _⟩ | old
    · exact same
    · exact fresh (.watcher old)

/-- Nothing happens in a run while its traversal waits, or is torn down. -/
theorem StepsOn.kept (on : w.StepsOn w') (h : Shows none w c) (h' : Shows none w' c')
    (idle : (∃ t a given?, c.stage = .awaiting t a given?) ∧ (∃ t a given?, c'.stage = .awaiting t a given?) ∨
      ∃ e, c.stage.ending? = some e) : Kept w.session w'.session := by
  refine Deeds.kept_of_running ?_ on.running
  obtain ⟨c₁, shown, ⟨_, deeds⟩ | passes⟩ := on.passes h
  · exact deeds
  · rw [h.session, shown.session]
    rcases idle with ⟨⟨t, a, given?, waits⟩, t', a', given'?, still⟩ | ⟨e, ends⟩
    · exact passes.waiting_deeds h.sound waits ((AtStage.unique shown.stage h'.stage).trans still)
    · exact passes.torn_deeds h.sound ends

/-! ### Logic that is called -/

/-- Whether logic is over because it was called, or is to be before time goes on. -/
def Withdraws (w : World α) (j : Nat) : Prop := ∃ a, w.work? j = some (.attempt a) ∧
  (a.mode = .over (.pause (.ended .interrupted)) ∧ w.standing? j = some .over ∨
    (a.mode = .fresh ∨ a.mode = .asleep none) ∧ w.called j = true ∧ w.WakesBy j w.now)

theorem Withdraws.step (h : w.Withdraws j) (peaceful : w.Peaceful c) (on : w.StepsOn w')
    (civil : ∀ a, w.work? j = some (.attempt a) → a.process.Civil) : w'.Withdraws j := by
  obtain ⟨shown, scheduled, ordered, _⟩ := peaceful
  obtain ⟨a, here, goes⟩ := h
  by_cases up : w.upNext? = some j
  · obtain ⟨x, w₂, here', turn⟩ := turns_of_upNext up scheduled on.step
    cases here.symm.trans here'
    rcases goes with ⟨_, ceased⟩ | ⟨rests, called, _⟩
    · exact absurd ceased (upNext?_alive up scheduled on.step)
    · obtain ⟨a', there, _, mode, ceased, _⟩ := turn.atWork.attempt_called turn.here (civil a here) rests
      have goes : w' = w₂.attemptTurn j a (w.called j) := turn.goes
      rw [goes, called]
      exact ⟨a', there, .inl ⟨mode, ceased⟩⟩
  · refine ⟨a, (on.apart shown scheduled).2 j _ up here (.attempt a), ?_⟩
    rcases goes with ⟨mode, ceased⟩ | ⟨rests, called, wakes⟩
    · exact .inl ⟨mode, step_ceased scheduled shown on.step ceased⟩
    · refine .inr ⟨rests, step_called called scheduled shown on.step up, ?_⟩
      have wakes := wakes.step ordered scheduled shown on.step up
      exact wakes.mono (WithTop.coe_le_coe.mpr (step_now scheduled shown on.step))

/-- Whether a traversal has given up logic that has had its time, and waits for that to be over. -/
structure Abandons (w : World α) (i : Nat) (t : Traversal) (j : Nat) : Prop where
  walk : w.walk? = some i
  here : w.work? i = some (.walk ⟨t, .abandoning j true⟩)
  heeds : w.Heeds i j
  lasts : w.Lasts i j .forever 0
  withdraws : w.Withdraws j

theorem Abandons.stage (h : w.Abandons i t j) (shown : Shows none w c) :
    ∃ a, w.work? j = some (.attempt a) ∧ c.stage = .awaiting t a (some true) := by
  obtain ⟨a, found, stage⟩ := Option.map_eq_some_iff.mp (shown.came h.walk h.here)
  exact ⟨a, (attempt?_eq _ _ _).mp found, stage.symm⟩

theorem Abandons.wakes (h : w.Abandons i t j) : ∃ k, w.WakesBy k w.now := by
  obtain ⟨a, _, ⟨_, ceased⟩ | ⟨_, _, wakes⟩⟩ := h.withdraws
  · exact ⟨i, h.heeds.ceased ceased⟩
  · exact ⟨j, wakes⟩

/-- A traversal that has waited as long as it may gives up the logic, unless that is over. -/
theorem Waiting.gives {since : Rat} {slept limit : WithTop ℚ} (h : w.Waiting i t j since slept limit False)
    (peaceful : w.Peaceful c) (on : w.StepsOn w') (up : w.upNext? = some i) (uncalled : w.called i = false) :
    w.standing? j = some .over ∧ slept ≤ limit ∨ w'.Abandons i t j := by
  obtain ⟨shown, scheduled, ordered, _⟩ := peaceful
  obtain ⟨x, w₂, here, turn⟩ := turns_of_upNext up scheduled on.step
  cases h.awaits.2.symm.trans here
  obtain ⟨a, attempt, _, ⟨_, ceased, early | off⟩ | ⟨poised, wakes⟩⟩ := h.works
  · exact .inl ⟨ceased, early⟩
  · exact off.elim
  right
  have apart : j ≠ i := by
    rintro rfl
    cases h.awaits.2.symm.trans attempt
  have apart' : w.upNext? ≠ some j := fun up' => apart (Option.some.inj (up'.symm.trans up))
  have attempt₂ : w₂.work? j = some (.attempt a) := (turn.quiet.work j).trans attempt
  have alive : w₂.standing? j ≠ some .over := turn.others j apart ▸ wakes.alive scheduled
  let w₃ := w₂.unschedule i
  have gives : w' = w₃.giveUp i (.walk ⟨t, .abandoning j true⟩) j := by
    have goes : w' = w₂.walkTurn i ⟨t, .awaiting j⟩ (w.called i) := turn.goes
    have found : w₂.attempt? j = some a := (attempt?_eq w₂ j a).mpr attempt₂
    rw [goes, uncalled, walkTurn_awaiting t found, if_neg fun ceased => alive ((isOver_iff w₃ attempt₂).mp ceased)]
    rfl
  have at_ : w₃.AtWork i := Act.atWork .unschedule turn.atWork
  have put := walkAbandon_puts (w := w₃) turn.here t (.awaiting j) j true
  have inside : j < w₃.tasks.size := by
    obtain ⟨_, found, _⟩ := Option.map_eq_some_iff.mp attempt₂
    exact (Array.getElem?_eq_some_iff.mp found).1
  have wakes := wakes.step ordered scheduled shown on.step apart'
  have attempt' := (on.apart shown scheduled).2 j _ apart' attempt (.attempt a)
  rw [gives] at wakes attempt' ⊢
  constructor
  case walk => exact put.walk?.trans (turn.quiet.walk?.trans h.awaits.1)
  case here => exact put.here
  case heeds => exact .inr (at_.giveUp_watches _ apart alive inside)
  case lasts => exact at_.giveUp_lasts _ apart 0
  case withdraws =>
    let w₄ := ((w₃.park i).2.withWork i (.walk ⟨t, .abandoning j true⟩)).watch j [.release i w₃.tickets]
    have stands : w₄.standing? j = w₃.standing? j := by
      refine (watch_standing _ j j _).trans ((withWork_standing _ i j _).trans ?_)
      rw [park_standing, if_neg apart.symm]
    refine ⟨a, attempt', .inr ⟨?_, ?_, wakes.awake fun ticket => w₄.cancel_awake j ticket⟩⟩
    · obtain ⟨p, collected?, mode⟩ := a
      cases poised with
      | fresh => exact .inl rfl
      | working _ busy => exact absurd (upNext?_busy busy) apart'
      | asleep => exact .inr rfl
    · refine cancel_called (fun missing => ?_) (stands ▸ alive)
      have missing : w₂.standing? j = none := stands.symm.trans missing
      obtain ⟨_, found, _⟩ := Option.map_eq_some_iff.mp attempt₂
      rw [standing?, found] at missing
      cases missing

/-! ### Runs that fail -/

/-- Whether a run is being torn down because of a failure, or has come to its end so. -/
inductive Fails (w : World α) (i : Nat) (g : RunFault) : Prop
  | unwinds {t : Traversal} : w.walk? = some i → w.work? i = some (.walk ⟨t, .unwinding (.failed g)⟩) →
      w.busy? = some i → Fails w i g
  | ends {t : Traversal} : w.walk? = some i → w.work? i = some (.walk ⟨t, .over (.failed g)⟩) →
      w.standing? i = some .over → Fails w i g

theorem Fails.ending (h : w.Fails i g) (shown : Shows none w c) : c.stage.ending? = some (.failed g) := by
  cases h with
  | unwinds walk here | ends walk here =>
      rw [← Option.some.inj (shown.came walk here)]
      rfl

theorem Fails.wakes (h : w.Fails i g) (peaceful : w.Peaceful c) : ∃ k, w.WakesBy k w.now := by
  cases h with
  | unwinds _ _ busy => exact ⟨i, le_refl _, .inl (.inl (.inl busy))⟩
  | ends walk _ ceased =>
      obtain ⟨k, p, waits, heeds⟩ := peaceful.attended
      cases walk.symm.trans (peaceful.shown.pending k p nofun waits).2
      exact ⟨k, heeds.ceased ceased⟩

/-- Civil logic is torn down at once. -/
theorem Fails.step (h : w.Fails i g) (peaceful : w.Peaceful c) (on : w.StepsOn w') (uncalled : w.called i = false) :
    w'.Fails i g := by
  obtain ⟨shown, scheduled, _, _, _, _, civil⟩ := peaceful
  cases h with
  | @unwinds t walk here busy =>
      obtain ⟨x, w₂, here', turn⟩ := turns_of_upNext (upNext?_busy busy) scheduled on.step
      cases here.symm.trans here'
      have goes : w' = w₂.walkUnwind i ⟨t, .unwinding (.failed g)⟩ (.failed g) := by
        have goes : w' = w₂.walkTurn i ⟨t, .unwinding (.failed g)⟩ (w.called i) := turn.goes
        rw [goes, uncalled]
        rfl
      have walk₂ := turn.quiet.walk?.trans walk
      have civil : ∀ p ∈ t.processes, p.Civil := by
        rw [← Option.some.inj (shown.came walk here)] at civil
        exact civil
      have onward : ∀ (s : Session) (t' : Traversal) (old : WalkMode),
          ((w₂.withSession s).walkOn i ⟨t', old⟩ (.unwinding (.failed g))).Fails i g := fun s t' old => by
        have put := (withWork_puts turn.here (.walk ⟨t', .unwinding (.failed g)⟩) s).quiet (busy_quiet _ i)
        exact .unwinds (put.walk?.trans walk₂) put.here rfl
      have other := (turn.atWork.scheduled.placed i _ turn.here).1
      obtain ⟨entries, stack⟩ := t
      cases stack with
      | nil =>
          have put := (withWork_puts turn.here (.walk ⟨⟨[], []⟩, .over (.failed g)⟩) w₂.session).finish fun _ same => by
            cases same
            exact ⟨_, rfl⟩
          have placed : (Work.walk ⟨⟨[], []⟩, .over (.failed g)⟩ : Work α).Placed i := walk_placed other _ rfl
          have at_ := Act.atWork (.work _ placed) turn.atWork
          rw [goes]
          exact .ends (put.walk?.trans walk₂) put.here (at_.finish_ceased (.inl rfl))
      | cons frame outer =>
          have closes : ∀ p, frame.source.process? = some p → (w₂.walkClosed i ⟨⟨entries, outer⟩, .unwinding (.failed g)⟩
              (.failed g) (p.close w₂.session)).Fails i g := fun p drawn => by
            have here : p ∈ Traversal.processes ⟨entries, frame :: outer⟩ :=
              List.mem_filterMap.mpr ⟨frame, List.mem_cons_self, drawn⟩
            have ended := (civil p here).polite.closed w₂.session
            generalize p.close w₂.session = r at ended ⊢
            obtain ⟨pause, q, s⟩ := r
            cases ended
            exact onward s ⟨entries, outer⟩ _
          rw [goes]
          unfold walkUnwind
          simp only
          split <;> rename_i source
          · exact closes _ (by rw [source]; rfl)
          · exact closes _ (by rw [source]; rfl)
          · exact onward w₂.session ⟨entries, outer⟩ _
  | @ends t walk here ceased =>
      obtain ⟨walk', still⟩ := on.apart shown scheduled
      have apart : w.upNext? ≠ some i := fun up => upNext?_alive up scheduled on.step ceased
      exact .ends (walk'.trans walk) (still i _ apart here (.walk _)) (step_ceased scheduled shown on.step ceased)

/-- A traversal is out of patience with the element whose logic it has given up. -/
theorem walkTake_outOfTime (w : World α) (i : Nat) (k : Walk) {a : Attempt}
    (withdrawn : a.mode = .over (.pause (.ended .interrupted))) (stack : k.traversal.stack = frame :: outer) :
    ∃ t, w.walkTake i k a true =
      (w.withSession ((w.session.blockTimedOut frame.element).2.note (.failed (w.session.blockTimedOut frame.element).1))).walkOn
        i ⟨t, .walking⟩ (.unwinding (.failed (w.session.blockTimedOut frame.element).1)) := by
  have top : (k.traversal.withSource (sourceOf a)).stack = { frame with source := sourceOf a } :: outer := by
    unfold Traversal.withSource
    simp only [stack]
  refine ⟨k.traversal.withSource (sourceOf a), ?_⟩
  unfold walkTake
  simp only [withdrawn, if_true, top]
  rfl

/-- Logic that was given up is over before time goes on, and then the run fails. -/
theorem Abandons.step (h : w.Abandons i t j) (peaceful : w.Peaceful c) (peaceful' : w'.Peaceful c') (on : w.StepsOn w')
    (uncalled : w.called i = false) (stack : t.stack = frame :: outer) : w'.Abandons i t j ∨
      w'.Fails i (.blockTimeout frame.element.id w.session.options.blockTimeout) ∧
        w.session.Stalls (.blockTimeout frame.element.id w.session.options.blockTimeout) w'.session := by
  obtain ⟨a, attempt, stage⟩ := h.stage peaceful.shown
  have civil : ∀ b, w.work? j = some (.attempt b) → b.process.Civil := fun b here => by
    cases here.symm.trans attempt
    exact peaceful.civil _ (stage ▸ List.mem_append_left _ List.mem_cons_self)
  have scheduled := peaceful.scheduled
  by_cases up : w.upNext? = some i
  · right
    obtain ⟨x, w₂, here, turn⟩ := turns_of_upNext up scheduled on.step
    cases h.here.symm.trans here
    obtain ⟨w₁, leaves, _⟩ := turn.leaves
    have ceased := (h.lasts.turn scheduled leaves uncalled).resolve_left id
    obtain ⟨b, attempt', ⟨withdrawn, _⟩ | ⟨_, _, wakes⟩⟩ := h.withdraws
    · have found : w₂.attempt? j = some b := (attempt?_eq w₂ j b).mpr ((turn.quiet.work j).trans attempt')
      obtain ⟨t', takes⟩ := w₂.walkTake_outOfTime i ⟨t, .abandoning j true⟩ withdrawn stack
      have goes : w' = w₂.walkTake i ⟨t, .abandoning j true⟩ b true := by
        have goes : w' = w₂.walkTurn i ⟨t, .abandoning j true⟩ (w.called i) := turn.goes
        rw [goes, uncalled]
        unfold walkTurn
        simp only [found, if_true]
      rw [goes, takes, turn.quiet.session]
      have said := (Traversal.blockTimedOut_deeds w.session frame.element).kept_of_running on.running
      have put := (withWork_puts turn.here (.walk ⟨t', .unwinding (.failed (w.session.blockTimedOut frame.element).1)⟩)
        ((w.session.blockTimedOut frame.element).2.note (.failed (w.session.blockTimedOut frame.element).1))).quiet
          (busy_quiet _ i)
      exact ⟨.unwinds (put.walk?.trans (turn.quiet.walk?.trans h.walk)) put.here rfl, said.noted⟩
    · exact absurd ceased (wakes.alive scheduled)
  · left
    have shown := peaceful.shown
    have withdraws := h.withdraws.step peaceful on civil
    obtain ⟨walk, still⟩ := on.apart shown scheduled
    have walk := walk.trans h.walk
    refine ⟨walk, still i _ up h.here (.walk _), ?_, h.lasts.apart scheduled shown on.step up, withdraws⟩
    obtain ⟨b, attempt', _⟩ := withdraws
    refine h.heeds.step peaceful.ordered scheduled shown on.step up (scheduled.placed j _ attempt).1 fun task next minds => ?_
    obtain ⟨walks, _⟩ := minds.logic peaceful'.shown peaceful'.scheduled peaceful'.staffed attempt' (.attempt b)
    exact up (Option.some.inj (walk.symm.trans walks) ▸ next)

/-- Whether a run comes to fail in which nothing has happened since some moment: its traversal has given up the logic of
its innermost element, or is torn down. -/
inductive Falls (w₀ w : World α) (i : Nat) : RunFault → Prop
  | abandons {t : Traversal} {j : Nat} {frame : Frame} {outer : List Frame} : w.Abandons i t j →
      t.stack = frame :: outer → Kept w₀.session w.session →
      Falls w₀ w i (.blockTimeout frame.element.id w₀.session.options.blockTimeout)
  | fails {g : RunFault} : w.Fails i g → w₀.session.Stalls g w.session → Falls w₀ w i g

variable {w₀ : World α}

theorem Falls.stalls (h : w₀.Falls w i g) : w₀.session.Stalls g w.session := by
  cases h with
  | abandons _ _ kept => exact kept.stalls
  | fails _ stalls => exact stalls

/-- Time stands still until such a run is over. -/
theorem Falls.wakes (h : w₀.Falls w i g) (peaceful : w.Peaceful c) : ∃ k, w.WakesBy k w.now := by
  cases h with
  | abandons gives => exact gives.wakes
  | fails fails => exact fails.wakes peaceful

theorem Falls.step (h : w₀.Falls w i g) (peaceful : w.Peaceful c) (peaceful' : w'.Peaceful c') (on : w.StepsOn w')
    (uncalled : w.called i = false) : w₀.Falls w' i g := by
  have kept := on.kept peaceful.shown peaceful'.shown
  cases h with
  | abandons gives stack before =>
      obtain ⟨a, _, stage⟩ := gives.stage peaceful.shown
      rcases gives.step peaceful peaceful' on uncalled stack with goes | ⟨fails, stalls⟩
      · obtain ⟨a', _, stage'⟩ := goes.stage peaceful'.shown
        exact .abandons goes stack (before.trans (kept (.inl ⟨⟨_, _, _, stage⟩, _, _, _, stage'⟩)))
      · rw [before.options] at fails stalls
        exact .fails fails (before.stalling stalls)
  | fails fails stalls =>
      exact .fails (fails.step peaceful on uncalled) (stalls.kept (kept (.inr ⟨_, fails.ending peaceful.shown⟩)))

end World
end BlockGraph
