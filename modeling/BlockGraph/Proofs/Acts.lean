import Mathlib.Algebra.Order.Ring.Unbundled.Rat
import BlockGraph.Proofs.Queue
import BlockGraph.Proofs.Rounds
/-!
What a task does with the scheduler in its turn: some acts that leave it at work, and a last one with which
it comes to wait, to stand in line or to be over. Every turn of every kind of task is made of these.
-/
namespace BlockGraph

namespace Options

/-- A time above zero is a length of time. -/
theorem span_pos {x : Double} (above : Double.compareInt? 0 x = some .lt) {r : Rat} (time : x.span = .ms r) :
    0 < r := by
  unfold Double.span at time
  cases units : x.units? with
  | none =>
      simp only [units] at time
      cases time
  | some u =>
      simp only [units, Span.ms.injEq] at time
      cases x with
      | finite negative code small =>
          simp only [Double.compareInt?, units, Option.map_some, Option.some.injEq, Int.zero_mul] at above
          have positive : 0 < u := Std.compare_eq_lt.mp above
          exact time ▸ Rat.mkRat_pos positive (by decide +kernel)
      | _ => cases units

theorem limitedDouble_above {limit : Nat} {v : Value} {x : Double} (h : limitedDouble false limit v = .ok x) :
    Double.compareInt? 0 x = some .lt := by
  unfold limitedDouble at h
  cases read : Lenient.double v with
  | error p => rw [read] at h; cases h
  | ok y =>
      simp only [read, bind, Except.bind] at h
      split at h
      · cases h
      · split at h
        · cases ‹(false = true)›
        · split at h
          · rename_i above
            cases h
            exact eq_of_beq above
          · cases h

/-- Accepted options allow for some time. -/
theorem Valid.time {o : Options} (h : o.Valid) : Double.compareInt? 0 o.maxTime = some .lt := by
  obtain ⟨given, accepted⟩ := h
  have time : Double.compareInt? 0
      (read given "max_execution_time" (limitedDouble false Settings.maxTimeLimit) default.maxTime).1 = some .lt :=
    read_of_default (P := fun x => Double.compareInt? 0 x = some .lt) given "max_execution_time" (by decide +kernel)
      fun _ _ => limitedDouble_above
  unfold ofGiven at accepted
  simp only at accepted
  split at accepted
  · cases accepted
    exact time
  · cases accepted

end Options

/-- Whether work waits for no execution and is not about to open a run. -/
def Work.isFree {α : Type} : Work α → Bool
  | .caller ⟨_, .executing _, _⟩ | .runner (.pending _) | .walk ⟨_, .opening⟩ => false
  | _ => true

/-- The execution that a caller has joined, and waits for. -/
def Work.joins? {α : Type} : Work α → Option Nat
  | .caller ⟨_, .joining i, _⟩ => some i
  | _ => none

namespace World

variable {α : Type} {w w₁ w' : World α} {task : Nat} {x y : Work α}

/-- An act of a task that stays at work. -/
inductive Act (task : Nat) (w : World α) : World α → Prop
  | session (s : Session) : Act task w (w.withSession s)
  | reply (r : Reply α) : Act task w (w.reply r)
  | work (x : Work α) : x.Placed task → Act task w (w.withWork task x)
  | start (r : Request) : Act task w (w.spawn (.runner (.fresh r)) []).2
  | cancel (i : Nat) : i ≠ 0 → i ≠ task → Act task w (w.cancel i)
  | unschedule : Act task w (w.unschedule task)

abbrev Acts (task : Nat) : World α → World α → Prop := Relation.ReflTransGen (Act task)

/-- A new task is started and waited for, no longer than some time. -/
def ask (w : World α) (task : Nat) (x y : Work α) (walk? : Option Nat) (length : Span) : World α :=
  { ((w.park task).2.spawn x [.release task w.tickets]).2.withWork task y with walk? }.schedule task
    w.tickets length

/-- A task that was waited for is cancelled, and waited for until it is over. -/
def giveUp (w : World α) (task : Nat) (y : Work α) (i : Nat) : World α :=
  (((w.park task).2.withWork task y).watch i [.release task w.tickets]).cancel i

def Free (w : World α) (task : Nat) : Prop := ∀ x, w.work? task = some x → x.isFree = true

/-- Whether an execution that comes to wait begins now, and has as much time as its run may take, which is some. -/
def Begins (w : World α) (y : Work α) (length : Span) : Prop :=
  ∀ p, y.pending? = some p → p.began = w.now ∧ length = w.session.options.maxTime.span ∧ ∀ r, length = .ms r → 0 < r

/-- The last act of a turn. Only one that starts a traversal waits for an execution. -/
inductive Last (task : Nat) (w : World α) : World α → Prop
  | rest : w.Free task → Last task w w
  | busy : w.Free task → Last task w { w with busy? := some task }
  | finish : w.Free task → Last task w (w.finish task)
  | sleep (length : Span) : w.Free task → Last task w (w.sleep task length)
  | ask (x y : Work α) (walk? : Option Nat) (length : Span) : x.Inner → x.awaits? = none →
      (task < w.tasks.size → y.Placed task) → y.awaits? = some w.tasks.size → w.Begins y length →
      Last task w (w.ask task x y walk? length)
  | giveUp (y : Work α) (i : Nat) : y.Placed task → y.awaits? = some i → y.isFree = true →
      Last task w (w.giveUp task y i)
  | join (y : Work α) (i : Nat) : task = 0 → y.Placed 0 → y.isFree = true → y.joins? = some i →
      Last task w (((w.park 0).2.watch i [.wake 0]).withWork 0 y)

/-- What a task does in its turn. -/
def Turned (task : Nat) (w w' : World α) : Prop := ∃ w₁, Acts task w w₁ ∧ Last task w₁ w'

theorem Turned.head (act : Act task w w₁) (h : Turned task w₁ w') : Turned task w w' := by
  obtain ⟨w₂, acts, last⟩ := h
  exact ⟨w₂, .head act acts, last⟩

theorem Turned.after (acts : Acts task w w₁) (h : Turned task w₁ w') : Turned task w w' := by
  obtain ⟨w₂, acts', last⟩ := h
  exact ⟨w₂, acts.trans acts', last⟩

theorem Turned.last (h : Last task w w') : Turned task w w' := ⟨w, .refl, h⟩

/-- A task that comes to work at something that is free. -/
theorem withWork_free (w : World α) (task : Nat) (free : x.isFree = true) : (w.withWork task x).Free task := by
  intro y here
  rw [withWork_work, if_pos rfl] at here
  obtain ⟨_, _, rfl⟩ := Option.map_eq_some_iff.mp here
  exact free

theorem free_of_work (here : w.work? task = some x) (free : x.isFree = true) : w.Free task := by
  intro y here'
  cases Option.some.inj (here.symm.trans here')
  exact free

theorem schedule_withWork (w : World α) (task ticket : Nat) (length : Span) (y : Work α) :
    (w.schedule task ticket length).withWork task y = (w.withWork task y).schedule task ticket length := by
  cases length <;> rfl

theorem schedule_now (w : World α) (task ticket : Nat) (length : Span) :
    (w.schedule task ticket length).now = w.now := by
  cases length <;> rfl

/-! ### Block logic -/

section Attempts

theorem attempt_placed (other : task ≠ 0) (a : Attempt) : (Work.attempt a : Work α).Placed task :=
  ⟨other, fun _ => nofun⟩

theorem attemptOver_turned (w : World α) (other : task ≠ 0) (a : Attempt) (y : Yield) :
    Turned task w (w.attemptOver task a y) :=
  .head (.work _ (attempt_placed other { a with mode := .over y })) (.last (.finish (w.withWork_free task rfl)))

theorem attemptPaused_turned (w : World α) (other : task ≠ 0) (a : Attempt) (r : Pause × Process × Session) :
    Turned task w (w.attemptPaused task a r) := by
  obtain ⟨pause, p, s⟩ := r
  refine .head (.session s) ?_
  unfold World.attemptPaused
  simp only
  split
  · exact .head (.work _ (attempt_placed other _)) (.last (.busy (withWork_free _ task rfl)))
  · exact .head (.work _ (attempt_placed other _)) (.last (.sleep _ (withWork_free _ task rfl)))
  · exact attemptOver_turned _ other _ _
  · exact attemptOver_turned _ other _ _

theorem attemptTurn_turned {a : Attempt} (here : w.work? task = some (.attempt a)) (other : task ≠ 0)
    (cancelled : Bool) : Turned task w (w.attemptTurn task a cancelled) := by
  unfold World.attemptTurn
  split
  · exact .last (.rest (free_of_work here rfl))
  · exact .head (.work _ (attempt_placed other _)) (.last (.sleep _ (withWork_free _ task rfl)))
  · exact attemptPaused_turned w other a _
  · exact attemptOver_turned w other a _
  · exact attemptPaused_turned w other a _

end Attempts

/-! ### Traversals -/

section Walks

theorem walk_placed (other : task ≠ 0) (t : Traversal) {mode : WalkMode} (free : mode.awaits? = none) :
    (Work.walk ⟨t, mode⟩ : Work α).Placed task :=
  ⟨other, fun _ waits => nomatch free.symm.trans waits⟩

theorem walkOn_turned (w : World α) (other : task ≠ 0) (k : Walk) {mode : WalkMode}
    (alone : mode.awaits? = none) (free : (Work.walk ⟨k.traversal, mode⟩ : Work α).isFree = true) :
    Turned task w (w.walkOn task k mode) :=
  .head (.work _ (walk_placed other k.traversal alone)) (.last (.busy (w.withWork_free task free)))

theorem walkOver_turned (w : World α) (other : task ≠ 0) (e : WalkEnd) :
    Turned task w (w.walkOver task e) :=
  .head (.work _ (walk_placed other ⟨[], []⟩ rfl)) (.last (.finish (w.withWork_free task rfl)))

theorem walkSleep_turned (w : World α) (other : task ≠ 0) (k : Walk) {mode : WalkMode}
    (alone : mode.awaits? = none) (free : (Work.walk ⟨k.traversal, mode⟩ : Work α).isFree = true) (length : Span) :
    Turned task w ((w.walkMode task k mode).sleep task length) :=
  .head (.work _ (walk_placed other k.traversal alone)) (.last (.sleep _ (w.withWork_free task free)))

theorem awaiting_placed (other : task ≠ 0) (t : Traversal) {i : Nat} (inside : task < i) :
    (Work.walk ⟨t, .awaiting i⟩ : Work α).Placed task := by
  refine ⟨other, fun j waits => ?_⟩
  cases waits
  exact ⟨Nat.ne_of_gt (Nat.zero_lt_of_lt inside), Nat.ne_of_gt inside⟩

/-- A traversal that comes to wait for logic asks for a task of its own for it. -/
theorem walkWait_eq (w : World α) (task : Nat) (t : Traversal) (p : Process) :
    w.walkWait task t p = w.ask task (.attempt (.ofProcess p)) (.walk ⟨t, .awaiting w.tasks.size⟩) w.walk?
      w.session.options.blockTimeout.span := by
  have size : (w.park task).2.tasks.size = w.tasks.size := change_size _ task _
  unfold World.walkWait World.ask World.walkMode
  rw [← size]
  rfl

theorem walkMove_turned (w : World α) (other : task ≠ 0) (r : Move × Session) :
    Turned task w (w.walkMove task r) := by
  obtain ⟨m, s⟩ := r
  refine .head (.session s) ?_
  cases m with
  | go t => exact walkOn_turned _ other ⟨t, .walking⟩ rfl rfl
  | wait p t =>
      show Turned task (w.withSession s) ((w.withSession s).walkWait task t p)
      rw [walkWait_eq]
      exact .last (.ask _ _ _ _ (.attempt _) rfl (awaiting_placed other t) rfl nofun)
  | delay id t => exact walkSleep_turned _ other ⟨t, .walking⟩ rfl rfl _
  | finished => exact walkOn_turned _ other ⟨⟨[], []⟩, .walking⟩ rfl rfl
  | fail f t => exact .head (.session _) (walkOn_turned _ other ⟨t, .walking⟩ rfl rfl)

theorem walkTake_turned {k : Walk} (free : w.Free task) (other : task ≠ 0) (a : Attempt) (outOfTime : Bool) :
    Turned task w (w.walkTake task k a outOfTime) := by
  unfold World.walkTake
  simp only
  split
  · exact walkOn_turned w other _ rfl rfl
  · split
    · split
      · exact walkMove_turned w other _
      · exact walkOn_turned w other _ rfl rfl
    · exact walkOn_turned w other _ rfl rfl
  · exact walkMove_turned w other _
  · exact .last (.rest free)

theorem walkClosed_turned (w : World α) (other : task ≠ 0) (k : Walk) (e : WalkEnd)
    (r : Pause × Process × Session) : Turned task w (w.walkClosed task k e r) := by
  obtain ⟨pause, p, s⟩ := r
  refine .head (.session s) ?_
  unfold World.walkClosed
  simp only
  split
  · exact walkSleep_turned _ other k rfl rfl _
  · exact walkOver_turned _ other _
  · exact walkOn_turned _ other k rfl rfl

theorem walkUnwind_turned (w : World α) (other : task ≠ 0) (k : Walk) (e : WalkEnd) :
    Turned task w (w.walkUnwind task k e) := by
  unfold World.walkUnwind
  split
  · exact walkOver_turned w other e
  · simp only
    split
    · exact walkClosed_turned w other _ e _
    · exact walkClosed_turned w other _ e _
    · exact walkOn_turned w other _ rfl rfl

theorem walkAbandon_turned (w : World α) {k : Walk} {i : Nat} (other : task ≠ 0) (apart : i ≠ 0 ∧ i ≠ task)
    (outOfTime : Bool) : Turned task w (w.walkAbandon task k i outOfTime) := by
  refine .last (.giveUp (.walk { k with mode := .abandoning i outOfTime }) i ⟨other, fun j waits => ?_⟩ rfl rfl)
  cases waits
  exact apart

theorem walkTurn_turned (h : w.Scheduled) {k : Walk} (here : w.work? task = some (.walk k)) (cancelled : Bool) :
    Turned task w (w.walkTurn task k cancelled) := by
  obtain ⟨other, apart⟩ := h.placed task _ here
  obtain ⟨t, mode⟩ := k
  have on : ∀ old, Turned task w (w.walkOn task ⟨t, old⟩ (.unwinding .cancelled)) := fun old =>
    walkOn_turned w other ⟨t, old⟩ rfl rfl
  cases mode with
  | «over» e => exact .last (.rest (free_of_work here rfl))
  | opening =>
      cases cancelled with
      | true => exact walkOver_turned w other .cancelled
      | false =>
          unfold World.walkTurn
          simp only
          split
          · exact .head (.session _) (walkOn_turned _ other _ rfl rfl)
          · exact .head (.session _) (walkOver_turned _ other _)
  | awaiting i =>
      refine .head .unschedule ?_
      unfold World.walkTurn
      simp only
      split
      · exact walkTake_turned (w := w.unschedule task) (free_of_work here rfl) other _ false
      · exact walkAbandon_turned _ other (apart i rfl) _
  | abandoning i outOfTime =>
      cases cancelled with
      | true => exact on _
      | false =>
          unfold World.walkTurn
          simp only
          split
          · split
            · exact walkTake_turned (free_of_work here rfl) other _ true
            · exact walkOn_turned w other _ rfl rfl
          · exact .last (.rest (free_of_work here rfl))
  | delaying id =>
      cases cancelled with
      | true => exact on _
      | false => exact walkMove_turned w other (.go t, w.session.completed id)
  | closing p insists? e =>
      cases cancelled with
      | false => cases insists? <;> exact walkClosed_turned w other _ e _
      | true =>
          cases insists? with
          | none => exact walkClosed_turned w other _ e _
          | some length => exact walkSleep_turned w other ⟨t, .closing p none e⟩ rfl rfl length
  | walking =>
      cases cancelled with
      | true => exact on _
      | false => exact walkMove_turned w other _
  | unwinding e =>
      cases cancelled with
      | true => exact on _
      | false => exact walkUnwind_turned w other _ e

end Walks

/-! ### Executions -/

section Executions

/-- Beginning an execution comes to nothing, or starts a traversal and waits for it. -/
theorem begin_turned (w : World α) (task : Nat) {r : Request} (proper : r.Proper) :
    (∃ e w', w.begin task r = (.inl e, w') ∧ Acts task w w') ∨
      ∃ p, ∃ options : Options, ∃ s w', w.begin task r = (.inr p, w') ∧ options.Valid ∧
        s.options = options ∧ p.began = w.now ∧ p.walk = w.tasks.size ∧ ∀ y, w'.withWork task y =
          (w.withSession s).ask task (.walk ⟨⟨[], []⟩, .opening⟩) y (some w.tasks.size) options.maxTime.span := by
  have told : ∀ options f, ∃ e w', ((.inl (w.refuse r options f).1, (w.refuse r options f).2) :
      (Execution ⊕ Pending) × World α) = (.inl e, w') ∧ Acts task w w' := fun options f =>
    ⟨_, _, rfl, .single (.session _)⟩
  unfold World.begin
  simp only
  split
  · exact .inl ⟨_, _, rfl, .refl⟩
  · rename_i options accepted
    split
    · exact .inl (told options .inProgress)
    · split
      · exact .inl (told options .shuttingDown)
      · split
        · exact .inl ⟨_, _, rfl, .single (.session _)⟩
        · rename_i bindings _
          have size : ∀ s, ((w.withSession s).park task).2.tasks.size = w.tasks.size := fun s => change_size _ task _
          refine .inr ⟨_, options, w.session.taken options r.listener bindings, _, rfl, proper options accepted,
            (w.session.taken_kept options r.listener bindings).options, schedule_now _ _ _ _, size _, fun y => ?_⟩
          rw [schedule_withWork]
          unfold World.ask
          rw [← size]
          rfl

theorem conclude_acts (w : World α) (task : Nat) (p : Pending) (apart : p.walk ≠ 0 ∧ p.walk ≠ task)
    (cancelled : Bool) : Acts task w (w.conclude task p cancelled).2 := by
  have waiting : Acts task w (w.unschedule task) := .single .unschedule
  have closed : ∀ {w₁ : World α}, Acts task w w₁ → ∀ o s, Acts task w (w₁.close p.began p.listener o s).2 :=
    fun acts o s => acts.tail (.session s.closed)
  have leaving := waiting.tail (.cancel p.walk apart.1 apart.2)
  unfold World.conclude
  simp only
  split
  · exact closed leaving _ _
  · split
    · exact closed waiting _ _
    · exact closed waiting _ _
    · exact closed leaving _ _
    · exact closed leaving _ _

theorem runner_placed (other : task ≠ 0) {m : RunnerMode} (free : (Work.runner m : Work α).pending? = none) :
    (Work.runner m : Work α).Placed task := by
  refine ⟨other, fun i waits => ?_⟩
  obtain ⟨p, pending, _⟩ := Option.map_eq_some_iff.mp waits
  cases free.symm.trans pending

theorem runnerOver_turned (w : World α) (other : task ≠ 0) (e : Execution) :
    Turned task w (World.runnerOver task (e, w)) :=
  .head (.work _ (runner_placed other rfl)) (.last (.finish (w.withWork_free task rfl)))

theorem runnerTurn_turned (h : w.Scheduled) {m : RunnerMode} (here : w.work? task = some (.runner m))
    (proper : (Work.runner m : Work α).Proper) (cancelled : Bool) :
    Turned task w (w.runnerTurn task m cancelled) := by
  obtain ⟨other, apart⟩ := h.placed task _ here
  cases m with
  | «over» e => exact .last (.rest (free_of_work here rfl))
  | pending p => exact .after (w.conclude_acts task p (apart _ rfl) cancelled) (runnerOver_turned _ other _)
  | fresh r =>
      cases cancelled with
      | true => exact runnerOver_turned w other _
      | false =>
          unfold World.runnerTurn
          simp only
          rcases w.begin_turned task proper with
            ⟨e, w', same, acts⟩ | ⟨p, _, s, w', same, valid, rfl, began, walk, asks⟩
          · simp only [same]
            exact .after acts (runnerOver_turned w' other e)
          · simp only [same]
            rw [asks]
            refine .head (.session s) (.last (.ask _ _ _ _ (.walk _) rfl (fun inside => ⟨other, fun i waits => ?_⟩)
              (congrArg some walk) fun q waits => ?_))
            · cases waits
              show p.walk ≠ 0 ∧ p.walk ≠ task
              rw [walk]
              exact ⟨Nat.ne_of_gt (Nat.zero_lt_of_lt inside), Nat.ne_of_gt inside⟩
            · cases waits
              exact ⟨began, rfl, fun _ => Options.span_pos valid.time⟩

/-- Tasks are never taken away. -/
theorem Act.size (act : Act task w w') : w.tasks.size ≤ w'.tasks.size := by
  cases act with
  | work x => exact Nat.le_of_eq (w.change_size task _).symm
  | start r =>
      show w.tasks.size ≤ (w.tasks.push _).size
      rw [Array.size_push]
      exact Nat.le_succ _
  | cancel i =>
      unfold World.cancel
      split
      · exact Nat.le_refl _
      · split
        · exact Nat.le_refl _
        · exact Nat.le_of_eq (w.change_size i _).symm
        · exact Nat.le_of_eq (w.change_size i _).symm
  | _ => exact Nat.le_refl _

theorem Acts.size (acts : Acts task w w') : w.tasks.size ≤ w'.tasks.size := by
  induction acts with
  | refl => exact Nat.le_refl _
  | tail _ act ih => exact Nat.le_trans ih act.size

theorem caller_placed {k : Caller α} (others : 0 ∉ k.started)
    (apart : ∀ p, (Work.caller k).pending? = some p → p.walk ≠ 0) : (Work.caller k).Placed 0 := by
  refine ⟨⟨rfl, others⟩, fun i waits => ?_⟩
  obtain ⟨p, pending, rfl⟩ := Option.map_eq_some_iff.mp waits
  exact ⟨apart p pending, apart p pending⟩

theorem caller_placed_free {k : Caller α} (others : 0 ∉ k.started) (free : (Work.caller k).pending? = none) :
    (Work.caller k).Placed 0 :=
  caller_placed others fun _ waits => nomatch free.symm.trans waits

theorem command_turned (commands : List (Command α)) (proper : ∀ x ∈ commands, x.Proper) {started : List Nat}
    (others : 0 ∉ started) (inhabited : 0 < w.tasks.size) : Turned 0 w (w.command 0 started commands) := by
  induction commands generalizing w started with
  | nil => exact .head (.work _ (caller_placed_free others rfl)) (.last (.finish (w.withWork_free 0 rfl)))
  | cons x rest ih =>
      have ih : ∀ {w : World α} {started}, 0 ∉ started → 0 < w.tasks.size →
          Turned 0 w (w.command 0 started rest) :=
        ih fun x member => proper x (List.mem_cons_of_mem _ member)
      cases x with
      | act f => exact .head (.session _) (.head (.reply _) (ih others inhabited))
      | wait length => exact .head (.work _ (caller_placed_free others rfl)) (.last (.sleep _ (w.withWork_free 0 rfl)))
      | execute r =>
          have accepts : r.Proper := proper _ List.mem_cons_self
          unfold World.command
          rcases w.begin_turned 0 accepts with
            ⟨e, w', same, acts⟩ | ⟨p, _, s, w', same, valid, rfl, began, walk, asks⟩
          · simp only [same]
            exact .after acts (.head (.reply _) (ih others (Nat.lt_of_lt_of_le inhabited acts.size)))
          · simp only [same]
            rw [asks]
            refine .head (.session s) (.last (.ask _ _ _ _ (.walk _) rfl (fun inside => ?_) (congrArg some walk)
              fun q waits => ?_))
            · refine caller_placed others fun q waits => ?_
              cases waits
              exact walk ▸ Nat.ne_of_gt inside
            · cases waits
              exact ⟨began, rfl, fun _ => Options.span_pos valid.time⟩
      | start r =>
          have act : Act 0 w (w.spawn (.runner (.fresh r)) []).2 := .start r
          refine .head act (ih (fun member => ?_) (Nat.lt_of_lt_of_le inhabited act.size))
          exact (List.mem_cons.mp member).elim (Nat.ne_of_lt inhabited) others
      | cancel =>
          cases started with
          | nil => exact ih others inhabited
          | cons runner older =>
              have apart : runner ≠ 0 := fun same => others (same ▸ List.mem_cons_self)
              have act : Act 0 w (w.cancel runner) := .cancel runner apart apart
              exact .head act (ih others (Nat.lt_of_lt_of_le inhabited act.size))
      | join =>
          cases started with
          | nil => exact ih others inhabited
          | cons runner older =>
              have older_others : 0 ∉ older := fun member => others (List.mem_cons_of_mem _ member)
              cases ceased : w.execution? runner with
              | some e =>
                  simp only [World.command, ceased]
                  exact .head (.reply _) (ih older_others inhabited)
              | none =>
                  simp only [World.command, ceased]
                  exact .last (.join _ runner rfl (caller_placed_free older_others rfl) rfl rfl)

theorem callerTurn_turned (h : w.Scheduled) {k : Caller α} (here : w.work? task = some (.caller k))
    (proper : (Work.caller k).Proper) (cancelled : Bool) : Turned task w (w.callerTurn task k cancelled) := by
  obtain ⟨⟨rfl, others⟩, apart⟩ := h.placed task _ here
  have inhabited := h.inhabited
  obtain ⟨commands, mode, started⟩ := k
  cases mode with
  | «over» => exact .last (.rest (free_of_work here rfl))
  | ready => exact command_turned commands proper others inhabited
  | waiting => exact .head (.reply _) (command_turned commands proper others inhabited)
  | executing p =>
      have acts := w.conclude_acts 0 p (apart _ rfl) cancelled
      exact .after acts (.head (.reply _)
        (command_turned commands proper others (Nat.lt_of_lt_of_le inhabited acts.size)))
  | joining runner =>
      unfold World.callerTurn
      simp only
      split
      · exact .head (.reply _) (command_turned commands proper others inhabited)
      · exact command_turned commands proper others inhabited

/-- What any task does in its turn. -/
theorem works_turned (h : w.Scheduled) (here : w.work? task = some x) (proper : x.Proper) (cancelled : Bool) :
    Turned task w (w.works task x cancelled) := by
  cases x with
  | caller k => exact callerTurn_turned h here proper cancelled
  | runner m => exact runnerTurn_turned h here proper cancelled
  | walk k => exact walkTurn_turned h here cancelled
  | attempt a => exact attemptTurn_turned here (h.placed task _ here).1 cancelled

end Executions

end World
end BlockGraph
