import BlockGraph.Proofs.Admission
import BlockGraph.Proofs.Calls
import BlockGraph.Proofs.HabitTurns
import Mathlib.Algebra.BigOperators.Finprod
/-!
Ledgers: a world with nothing in it but its session, the executions that are open and those that ended. Whatever
a world does is a row of postings in its ledger, so that what holds of executions and their session is shown of
one posting at a time.
-/
namespace BlockGraph

/-- An execution that is open: it was asked for, or it waits for its run to end. -/
inductive Item where
  | asked (r : Request)
  | pending (p : Pending)

/-- The number of the listener that an open execution tells. -/
def Item.number : Item → Nat
  | asked r => r.listener.number
  | pending p => p.listener

/-- The execution that a command asks for. -/
def Command.asked? {α : Type} : Command α → Option Request
  | .execute r | .start r => some r
  | _ => none

/-- The executions that are asked for by commands. -/
def Command.items {α : Type} (commands : List (Command α)) : Multiset Item :=
  (commands.filterMap Command.asked?).map Item.asked

namespace Work

variable {α : Type}

/-- The executions that a task has open. -/
def items : Work α → Multiset Item
  | .caller ⟨commands, mode, _⟩ => match mode with
    | .executing p => .pending p ::ₘ Command.items commands
    | _ => Command.items commands
  | .runner (.fresh r) => {.asked r}
  | .runner (.pending p) => {.pending p}
  | _ => 0

/-- The execution that ended in a task of its own. -/
def ended? : Work α → Option Execution
  | .runner (.over e) => some e
  | _ => none

theorem Inner.items {x : Work α} (inner : x.Inner) : x.items = 0 := by
  cases inner <;> rfl

theorem Inner.ended? {x : Work α} (inner : x.Inner) : x.ended? = none := by
  cases inner <;> rfl

end Work

/-- What is open and what has ended in a session. -/
structure Ledger where
  session : Session
  items : Multiset Item
  ended : Set Execution

/-- What can happen to a ledger. -/
inductive Ledger.Posts : Ledger → Ledger → Prop
  | drifted {s s' : Session} (items : Multiset Item) (ended : Set Execution) : s.Drifts s' →
      Posts ⟨s, items, ended⟩ ⟨s', items, ended⟩
  | handled {s s' : Session} (items : Multiset Item) (ended : Set Execution) : s.Handled s' →
      Posts ⟨s, items, ended⟩ ⟨s', items, ended⟩
  | declined {s s' : Session} {r : Request} {e : Execution} (items : Multiset Item) (ended : Set Execution) :
      s.Declined r e s' → Posts ⟨s, .asked r ::ₘ items, ended⟩ ⟨s', items, insert e ended⟩
  /-- An execution is cancelled before its turn comes. -/
  | withdrawn (s : Session) (r : Request) (items : Multiset Item) (ended : Set Execution) :
      Posts ⟨s, .asked r ::ₘ items, ended⟩ ⟨s, items, insert ⟨.cancelled, s, 0, r.listener.number⟩ ended⟩
  | admitted {s : Session} {r : Request} {p : Pending} {options : Options} {bindings : Entries}
      (items : Multiset Item) (ended : Set Execution) : r.options = .ok options → r.bindings? = .ok bindings →
      s.running = false → p.listener = r.listener.number → Posts ⟨s, .asked r ::ₘ items, ended⟩
        ⟨s.taken options r.listener bindings, .pending p ::ₘ items, ended⟩
  | concluded {s s' : Session} {p : Pending} {st : Stage} {e : Execution} (items : Multiset Item)
      (ended : Set Execution) : Concludes s st e.outcome s' → e.session = s'.closed → e.listener = p.listener →
      Posts ⟨s, .pending p ::ₘ items, ended⟩ ⟨s'.closed, items, insert e ended⟩

namespace World

variable {α : Type} {w w' : World α} {c : Course} {task : Nat} {x y : Work α}

/-- The executions that a task of a world has open. -/
def itemsAt (w : World α) (i : Nat) : Multiset Item := ((w.work? i).map Work.items).getD 0

/-- The ledger of a world. -/
noncomputable def ledger (w : World α) : Ledger := ⟨w.session, ∑ᶠ i, w.itemsAt i, {e | w.Ended e}⟩

/-- The ledger of a world in which a task has its turn, and what that has in hand. -/
noncomputable def desk (w : World α) (task : Nat) (hand : Multiset Item) : Ledger :=
  ⟨w.session, (∑ᶠ i, if i = task then 0 else w.itemsAt i) + hand, {e | w.Ended e}⟩

/-! ### Open executions -/

theorem itemsAt_some (here : w.work? task = some x) : w.itemsAt task = x.items := by
  rw [itemsAt, here]
  rfl

theorem itemsAt_finite (w : World α) : (Function.support w.itemsAt).Finite := by
  apply (Finset.range w.tasks.size).finite_toSet.subset
  intro i here
  by_contra beyond
  apply here
  have none : w.work? i = none := by
    rw [work?, Array.getElem?_eq_none (Nat.not_lt.mp fun within => beyond (Finset.mem_range.mpr within))]
    rfl
  rw [itemsAt, none]
  rfl

/-- A sum in which one summand has gained something. -/
theorem finsum_gains {f g : Nat → Multiset Item} (finite : (Function.support f).Finite) (j : Nat) (m : Multiset Item)
    (gains : ∀ i, g i = f i + if i = j then m else 0) : ∑ᶠ i, g i = (∑ᶠ i, f i) + m := by
  have single : (Function.support fun i => if i = j then m else 0).Finite := by
    apply (Set.finite_singleton j).subset
    intro i here
    by_contra other
    exact here (if_neg other)
  have last : (∑ᶠ i, if i = j then m else 0) = m := by
    rw [finsum_eq_single _ j fun i other => if_neg other, if_pos rfl]
  rw [← last, ← finsum_add_distrib finite single]
  exact congrArg finsum (funext gains)

theorem others_finite (w : World α) (task : Nat) :
    (Function.support fun i => if i = task then 0 else w.itemsAt i).Finite := by
  apply w.itemsAt_finite.subset
  intro i here none
  apply here
  simp only [none, ite_self]

/-- A task that has its turn takes what it has open in hand. -/
theorem ledger_eq_desk (here : w.work? task = some x) : w.ledger = w.desk task x.items := by
  have sum : ∑ᶠ i, w.itemsAt i = (∑ᶠ i, if i = task then 0 else w.itemsAt i) + x.items := by
    apply finsum_gains (w.others_finite task) task
    intro i
    split
    · rename_i same
      rw [same, itemsAt_some here, zero_add]
    · rw [add_zero]
  rw [ledger, desk, sum]

/-! ### Executions that ended -/

theorem ended_iff (w : World α) (e : Execution) :
    w.Ended e ↔ .executed e ∈ w.replies ∨ ∃ i x, w.work? i = some x ∧ x.ended? = some e := by
  apply or_congr_right
  constructor
  · rintro ⟨i, here⟩
    exact ⟨i, _, (execution?_eq w i e).mp here, rfl⟩
  · rintro ⟨i, x, here, over_⟩
    refine ⟨i, (execution?_eq w i e).mpr ?_⟩
    rw [here]
    cases x with
    | runner m =>
        cases m <;> cases over_
        rfl
    | _ => cases over_

theorem ended_reply (w : World α) (r : Reply α) (e : Execution) :
    (w.reply r).Ended e ↔ r = .executed e ∨ w.Ended e := by
  rw [ended_iff, ended_iff, ← or_assoc]
  apply or_congr_left
  show Reply.executed e ∈ w.replies.push r ↔ _
  rw [Array.mem_push, or_comm, eq_comm]

/-! ### Moves that leave what is open and what has ended as it is -/

/-- Whether the same executions are open in two worlds, and the same have ended. -/
structure Alongside (w w' : World α) : Prop where
  items : ∀ i, w'.itemsAt i = w.itemsAt i
  ended : ∀ e, w'.Ended e ↔ w.Ended e

namespace Alongside

theorem ledger (h : Alongside w w') : w'.ledger = { w.ledger with session := w'.session } := by
  have ended : {e | w'.Ended e} = {e | w.Ended e} := Set.ext h.ended
  simp only [World.ledger, h.items, ended]

theorem desk (h : Alongside w w') (task : Nat) (hand : Multiset Item) :
    w'.desk task hand = { w.desk task hand with session := w'.session } := by
  have ended : {e | w'.Ended e} = {e | w.Ended e} := Set.ext h.ended
  simp only [World.desk, h.items, ended]

theorem trans {w₁ : World α} (h : Alongside w w₁) (h' : Alongside w₁ w') : Alongside w w' where
  items i := (h'.items i).trans (h.items i)
  ended e := (h'.ended e).trans (h.ended e)

theorem of_work (replies : w'.replies = w.replies) (work : ∀ i, w'.work? i = w.work? i) : Alongside w w' where
  items i := by rw [itemsAt, itemsAt, work]
  ended e := by simp only [ended_iff, replies, work]

theorem reply (w : World α) {r : Reply α} (known : ∀ e, r = .executed e → w.Ended e) :
    Alongside w (w.reply r) where
  items _ := rfl
  ended e := (w.ended_reply r e).trans (or_iff_right_of_imp (known e))

/-- A run that begins has a traversal in a task of its own, and nothing else is new. -/
theorem admitted {r : Request} {p : Pending} (h : w.Admitted r p w') : Alongside w w' where
  items i := by
    rw [itemsAt, itemsAt, h.work]
    split
    · rename_i last
      rw [last, work_size]
      rfl
    · rfl
  ended e := by
    rw [ended_iff, ended_iff, h.replies]
    apply or_congr_right
    constructor
    · rintro ⟨i, x, here, over_⟩
      rw [h.work] at here
      split at here
      · cases here
        cases over_
      · exact ⟨i, x, here, over_⟩
    · rintro ⟨i, x, here, over_⟩
      refine ⟨i, x, ?_, over_⟩
      rw [h.work, if_neg, here]
      rintro rfl
      rw [work_size] at here
      cases here

/-- A turn of a traversal, or of block logic, is no matter of callers. -/
theorem puts {s : Session} (there : w.work? task = some y) (before : y.Inner) (put : Puts task x s w w')
    (inner : x.Inner) : Alongside w w' where
  items i := by
    by_cases turn : i = task
    · rw [turn, itemsAt_some put.here, itemsAt_some there, before.items, inner.items]
    · rcases put.others i turn with old | ⟨none, a, new, _⟩
      · rw [itemsAt, itemsAt, old]
      · rw [itemsAt, itemsAt, none, new]
        rfl
  ended e := by
    rw [ended_iff, ended_iff, put.replies]
    apply or_congr_right
    constructor
    · rintro ⟨i, z, here, over_⟩
      rcases put.outer inner here with within | old
      · rw [within.ended?] at over_
        cases over_
      · exact ⟨i, z, old, over_⟩
    · rintro ⟨i, z, here, over_⟩
      refine ⟨i, z, put.still ?_ here, over_⟩
      rintro rfl
      cases here.symm.trans there
      rw [before.ended?] at over_
      cases over_

end Alongside

theorem Quiet.alongside (q : Quiet w w') : Alongside w w' := .of_work q.replies q.work

theorem Quiet.ledger (q : Quiet w w') : w'.ledger = w.ledger := by
  rw [q.alongside.ledger, q.session]
  rfl

theorem Quiet.desk (q : Quiet w w') (task : Nat) (hand : Multiset Item) : w'.desk task hand = w.desk task hand := by
  rw [q.alongside.desk, q.session]
  rfl

/-! ### Moves of callers -/

theorem desk_cons (w : World α) (task : Nat) (item : Item) (hand : Multiset Item) :
    w.desk task (item ::ₘ hand) =
      ⟨w.session, item ::ₘ (w.desk task hand).items, (w.desk task hand).ended⟩ := by
  rw [desk, Multiset.add_cons]
  rfl

theorem ended_withWork (there : w.work? task = some y) (busy : y.ended? = none) (e : Execution) :
    (w.withWork task x).Ended e ↔ x.ended? = some e ∨ w.Ended e := by
  rw [ended_iff, ended_iff, or_left_comm]
  apply or_congr_right
  constructor
  · rintro ⟨i, z, here, over_⟩
    rw [withWork_work] at here
    split at here
    · obtain ⟨_, _, rfl⟩ := Option.map_eq_some_iff.mp here
      exact .inl over_
    · exact .inr ⟨i, z, here, over_⟩
  · rintro (over_ | ⟨i, z, here, over_⟩)
    · refine ⟨task, x, ?_, over_⟩
      rw [withWork_work, if_pos rfl, there]
      rfl
    · refine ⟨i, z, ?_, over_⟩
      rw [withWork_work, if_neg, here]
      rintro rfl
      cases here.symm.trans there
      rw [busy] at over_
      cases over_

/-- A task comes to work at something else, and lays down what it has in hand. -/
theorem ledger_put (there : w.work? task = some y) (busy : y.ended? = none) :
    (w.withWork task x).ledger = { w.desk task x.items with ended := {e | x.ended? = some e ∨ w.Ended e} } := by
  have here : (w.withWork task x).work? task = some x := by
    rw [withWork_work, if_pos rfl, there]
    rfl
  have others : ∀ i, (if i = task then 0 else (w.withWork task x).itemsAt i) =
      if i = task then 0 else w.itemsAt i := by
    intro i
    split
    · rfl
    · rename_i other
      rw [itemsAt, itemsAt, withWork_work, if_neg (Ne.symm other)]
  have ended : {e | (w.withWork task x).Ended e} = {e | x.ended? = some e ∨ w.Ended e} :=
    Set.ext (ended_withWork there busy)
  rw [ledger_eq_desk here]
  simp only [desk, others, ended]
  rfl

/-- A task comes to work at something else for a caller. -/
theorem ledger_putBusy (there : w.work? task = some y) (busy : y.ended? = none) (still : x.ended? = none) :
    (w.withWork task x).ledger = w.desk task x.items := by
  rw [ledger_put there busy, still]
  simp only [desk, reduceCtorEq, false_or]

theorem ledger_runnerOver (there : w.work? task = some y) (busy : y.ended? = none) (e : Execution) :
    (runnerOver task (e, w)).ledger = { w.desk task 0 with ended := insert e {e | w.Ended e} } := by
  rw [(w.runnerOver_quiet task e).ledger, ledger_put there busy]
  have same : {e' | (Work.runner (.over e) : Work α).ended? = some e' ∨ w.Ended e'} = insert e {e | w.Ended e} := by
    ext e'
    simp only [Work.ended?, Option.some.injEq, Set.mem_ofPred_eq, Set.mem_insert_iff, eq_comm]
  rw [same]
  rfl

/-- A caller starts an execution beside it. -/
theorem desk_spawn (there : w.work? task = some y) (r : Request) (hand : Multiset Item) :
    (w.spawn (.runner (.fresh r)) []).2.desk task hand = w.desk task (.asked r ::ₘ hand) := by
  have other : w.tasks.size ≠ task := by
    rintro rfl
    rw [work_size] at there
    cases there
  have sum : (∑ᶠ i, if i = task then 0 else (w.spawn (.runner (.fresh r)) []).2.itemsAt i) =
      (∑ᶠ i, if i = task then 0 else w.itemsAt i) + {.asked r} := by
    apply finsum_gains (w.others_finite task) w.tasks.size
    intro i
    rw [itemsAt, spawn_work, itemsAt]
    by_cases last : i = w.tasks.size
    · rw [if_pos last, if_pos last, if_neg (last ▸ other), if_neg (last ▸ other), last, work_size]
      exact (zero_add _).symm
    · rw [if_neg last, if_neg last, add_zero]
  have ended : {e | (w.spawn (.runner (.fresh r)) []).2.Ended e} = {e | w.Ended e} := by
    ext e
    simp only [Set.mem_ofPred_eq, ended_iff]
    apply or_congr_right
    constructor
    · rintro ⟨i, x, here, over_⟩
      rcases spawn_old here with ⟨_, rfl⟩ | old
      · cases over_
      · exact ⟨i, x, old, over_⟩
    · rintro ⟨i, x, here, over_⟩
      exact ⟨i, x, spawn_kept here _ _, over_⟩
  simp only [desk, sum, ended, add_assoc, Multiset.singleton_add]
  rfl

/-- A caller is told of an execution that has just ended. -/
theorem desk_replied (w : World α) (s : Session) (e : Execution) (task : Nat) (hand : Multiset Item) :
    ((w.withSession s).reply (.executed e)).desk task hand =
      ⟨s, (w.desk task hand).items, insert e {e | w.Ended e}⟩ := by
  have ended : {e' | ((w.withSession s).reply (.executed e)).Ended e'} = insert e {e | w.Ended e} := by
    ext e'
    have same := (w.withSession s).ended_reply (.executed e) e'
    simp only [Set.mem_ofPred_eq, Set.mem_insert_iff, same, Reply.executed.injEq, eq_comm]
    rfl
  simp only [desk, ended]
  rfl

end World

/-! ### Postings -/

namespace Ledger

/-- Any number of postings. -/
abbrev Posted : Ledger → Ledger → Prop := Relation.ReflTransGen Posts

end Ledger

namespace World

variable {α : Type} {w w' : World α} {c : Course} {task : Nat} {y : Work α}

/-- What a caller does until it has to wait. -/
theorem command_posts (commands : List (Command α)) (handles : ∀ x ∈ commands, x.Handles)
    (there : w.work? task = some y) (busy : y.ended? = none) (started : List Nat) :
    (w.desk task (Command.items commands)).Posted (w.command task started commands).ledger := by
  induction commands generalizing w started with
  | nil =>
      rw [(w.commandNil_quiet task started).ledger, ledger_putBusy there busy rfl]
      exact .refl
  | cons x rest ih =>
      have first := handles x List.mem_cons_self
      have ih := fun {w : World α} => ih (w := w) fun x member => handles x (List.mem_cons_of_mem _ member)
      cases x with
      | act f =>
          let w₁ := (w.withSession (f w.session).2).reply (.acted (f w.session).1)
          have session : Alongside w (w.withSession (f w.session).2) := .of_work rfl fun _ => rfl
          have acted : Alongside w w₁ := session.trans (.reply _ fun _ same => by cases same)
          have posted := ih (w := w₁) there started
          rw [acted.desk] at posted
          exact posted.head (.handled _ _ (first w.session))
      | wait length =>
          have put := ledger_putBusy (x := .caller ⟨rest, .waiting, started⟩) there busy rfl
          unfold World.command
          rw [(sleep_quiet _ _ _).ledger, put]
          exact .refl
      | execute r =>
          have asks : Command.items (.execute r :: rest) = .asked r ::ₘ Command.items rest := rfl
          rw [asks, desk_cons]
          unfold World.command
          rcases w.begin_cases task r with ⟨e, s, begun, declined⟩ | ⟨p, w', begun, admitted⟩
          · simp only [begun]
            have posted := ih (w := (w.withSession s).reply (.executed e)) there started
            rw [desk_replied] at posted
            exact posted.head (.declined _ _ declined)
          · simp only [begun]
            obtain ⟨options, bindings, accepted, named, idle, session⟩ := admitted.taken
            have there' : w'.work? task = some y := by
              rw [admitted.work, if_neg, there]
              rintro rfl
              rw [work_size] at there
              cases there
            have put := ledger_putBusy (x := .caller ⟨rest, .executing p, started⟩) there' busy rfl
            rw [put, (Alongside.admitted admitted).desk, session]
            have holds : (Work.caller ⟨rest, .executing p, started⟩ : Work α).items =
                .pending p ::ₘ Command.items rest := rfl
            rw [holds, desk_cons]
            exact .single (.admitted _ _ accepted named idle admitted.listener)
      | start r =>
          have asks : Command.items (.start r :: rest) = .asked r ::ₘ Command.items rest := rfl
          rw [asks, ← desk_spawn there r]
          exact ih (spawn_kept there _ _) _
      | cancel =>
          cases started with
          | nil => exact ih there []
          | cons runner older =>
              have leaving := w.cancel_quiet runner
              have posted := ih (w := w.cancel runner) ((leaving.work task).trans there) (runner :: older)
              rw [leaving.desk] at posted
              exact posted
      | join =>
          cases started with
          | nil => exact ih there []
          | cons runner older =>
              unfold World.command
              cases ceased : w.execution? runner with
              | some e =>
                  have told : Alongside w (w.reply (.executed e)) := .reply w fun e' same => by
                    cases same
                    exact .inr ⟨runner, ceased⟩
                  have posted := ih (w := w.reply (.executed e)) there older
                  rw [told.desk] at posted
                  simp only [ceased]
                  exact posted
              | none =>
                  have parked := (w.park_quiet task).trans (watch_quiet _ runner [.wake task])
                  have put := ledger_putBusy (x := .caller ⟨rest, .joining runner, older⟩)
                    ((parked.work task).trans there) busy rfl
                  simp only [ceased]
                  rw [put, parked.desk]
                  exact .refl

theorem conclude_listener (w : World α) (task : Nat) (p : Pending) (cancelled : Bool) :
    (w.conclude task p cancelled).1.listener = p.listener := by
  unfold World.conclude
  simp only
  split
  · rfl
  · split <;> rfl

/-- An execution under way ends. -/
theorem Shows.concludes_posts (h : Shows none w c) {x : Work α} (here : w.work? task = some x) (outer : ¬x.Inner)
    {p : Pending} (waits : x.pending? = some p) (cancelled : Bool) (hand : Multiset Item) :
    (w.desk task (.pending p ::ₘ hand)).Posts ⟨(w.conclude task p cancelled).2.session,
      (w.desk task hand).items, insert (w.conclude task p cancelled).1 {e | w.Ended e}⟩ := by
  have turning : Shows (some task) w c := h.except fun y there => by
    cases Option.some.inj (here.symm.trans there)
    exact outer
  have pending : w.pending? task = some p := by
    rw [World.pending?, here]
    exact waits
  obtain ⟨s', how, told, after⟩ := turning.concludes (h.waiting pending).2.1 cancelled
  rw [desk_cons, after]
  exact .concluded _ _ how told (conclude_listener w task p cancelled)

theorem callerTurn_posts (h : Shows none w c) {k : Caller α} (here : w.work? task = some (.caller k))
    (handles : ∀ x ∈ k.commands, x.Handles) (cancelled : Bool) :
    w.ledger.Posted (w.callerTurn task k cancelled).ledger := by
  have outer := Work.caller_outer k
  have does : ∀ w₁ : World α, Alongside w w₁ → w₁.session = w.session → w₁.work? task = some (.caller k) →
      (w.desk task (Command.items k.commands)).Posted (w₁.command task k.started k.commands).ledger := by
    intro w₁ alongside session there
    have posted := command_posts k.commands handles there rfl k.started
    rw [alongside.desk, session] at posted
    exact posted
  obtain ⟨commands, mode, started⟩ := k
  have still : Alongside w w := .of_work rfl fun _ => rfl
  cases mode with
  | «over» => exact .refl
  | ready =>
      rw [ledger_eq_desk here]
      exact does w still rfl here
  | waiting =>
      rw [ledger_eq_desk here]
      exact does (w.reply .waited) (.reply w fun _ same => by cases same) rfl here
  | executing p =>
      have concluded := h.concludes_posts here outer (p := p) rfl cancelled (Command.items commands)
      have replies := w.conclude_replies task p cancelled
      have work := Shows.conclude_work w task p cancelled
      unfold callerTurn
      simp only
      generalize w.conclude task p cancelled = r at concluded replies work
      obtain ⟨e, w'⟩ := r
      have alongside : Alongside w w' := .of_work replies work
      have posted := command_posts commands handles (w := (w'.withSession w'.session).reply (.executed e))
        ((work task).trans here) rfl started
      have ended : {e | w'.Ended e} = {e | w.Ended e} := Set.ext alongside.ended
      rw [desk_replied, alongside.desk, ended] at posted
      rw [ledger_eq_desk here]
      exact posted.head concluded
  | joining runner =>
      rw [ledger_eq_desk here]
      unfold callerTurn
      simp only
      split
      · rename_i e ceased
        refine does (w.reply (.executed e)) (.reply w fun e' same => ?_) rfl here
        cases same
        exact .inr ⟨runner, ceased⟩
      · exact does w still rfl here

theorem runnerTurn_posts (h : Shows none w c) {m : RunnerMode} (here : w.work? task = some (.runner m))
    (cancelled : Bool) : w.ledger.Posted (w.runnerTurn task m cancelled).ledger := by
  have outer : ¬(Work.runner m : Work α).Inner := Work.runner_outer m
  cases m with
  | «over» e => exact .refl
  | pending p =>
      have concluded := h.concludes_posts here outer (p := p) rfl cancelled 0
      have replies := w.conclude_replies task p cancelled
      have work := Shows.conclude_work w task p cancelled
      unfold runnerTurn
      simp only
      generalize w.conclude task p cancelled = r at concluded replies work
      obtain ⟨e, w'⟩ := r
      have alongside : Alongside w w' := .of_work replies work
      have ended : {e | w'.Ended e} = {e | w.Ended e} := Set.ext alongside.ended
      rw [ledger_eq_desk here, ledger_runnerOver ((work task).trans here) rfl, alongside.desk, ended]
      exact .single concluded
  | fresh r =>
      have asks : w.ledger = w.desk task (.asked r ::ₘ 0) := ledger_eq_desk here
      rw [asks, desk_cons]
      cases cancelled with
      | true =>
          show Ledger.Posted _ (runnerOver task (_, w)).ledger
          rw [ledger_runnerOver here rfl]
          exact .single (.withdrawn _ _ _ _)
      | false =>
          unfold runnerTurn
          rcases w.begin_cases task r with ⟨e, s, begun, declined⟩ | ⟨p, w', begun, admitted⟩
          · have alongside : Alongside w (w.withSession s) := .of_work rfl fun _ => rfl
            have ended : {e | (w.withSession s).Ended e} = {e | w.Ended e} := Set.ext alongside.ended
            simp only [begun]
            rw [ledger_runnerOver (w := w.withSession s) here rfl, alongside.desk, ended]
            exact .single (.declined _ _ declined)
          · obtain ⟨options, bindings, accepted, named, idle, session⟩ := admitted.taken
            have there : w'.work? task = some (.runner (.fresh r)) := by
              rw [admitted.work, if_neg, here]
              rintro rfl
              rw [work_size] at here
              cases here
            have put := ledger_putBusy (x := .runner (.pending p)) there rfl rfl
            have holds : (Work.runner (.pending p) : Work α).items = .pending p ::ₘ 0 := rfl
            simp only [begun]
            rw [put, (Alongside.admitted admitted).desk, session, holds, desk_cons]
            exact .single (.admitted _ _ accepted named idle admitted.listener)

/-- A turn of a traversal or of block logic is told by what it leaves to be seen of it. -/
theorem Shows.inner_puts (h : Shows none w c) {x : Work α} (here : w.work? task = some x) (inner : x.Inner)
    (cancelled : Bool) : ∃ x' s', x'.Inner ∧ Puts task x' s' w (w.works task x cancelled) := by
  cases inner with
  | walk k =>
      obtain ⟨c', k', _, _, put, _⟩ : Walked False task k w (w.walkTurn task k cancelled) c :=
        h.walkTurn here cancelled False.elim
      exact ⟨_, _, .walk k', put⟩
  | attempt a =>
      obtain ⟨c', a', _, _, put, _⟩ : Worked False task a w (w.attemptTurn task a cancelled) c :=
        h.attemptTurn here cancelled False.elim
      exact ⟨_, _, .attempt a', put⟩

/-- A step of a world is a row of postings. -/
theorem Shows.step_posts (h : Shows none w c) (calls : w.Calls Command.Handles) (step : w.step = some w') :
    w.ledger.Posted w'.ledger := by
  rcases h.step_works step with quiet | ⟨w₁, task, x, cancelled, quiet, shown, here, rfl⟩
  · rw [quiet.ledger]
  rw [← quiet.ledger]
  have drifts : x.Inner → w₁.ledger.Posted (w₁.works task x cancelled).ledger := by
    intro inner
    obtain ⟨x', s', inner', put⟩ := shown.inner_puts here inner cancelled
    rw [(Alongside.puts here inner put inner').ledger]
    exact .single (.drifted _ _ (works_drifts here inner cancelled))
  cases x with
  | caller k => exact callerTurn_posts shown here (calls.quiet quiet task k here) cancelled
  | runner m => exact runnerTurn_posts shown here cancelled
  | walk k => exact drifts (.walk k)
  | attempt a => exact drifts (.attempt a)

/-- The ledger of a world in which a caller is about to carry out commands. -/
theorem ofCommands_ledger (s : Session) (commands : List (Command α)) :
    (ofCommands s commands).ledger = ⟨s, Command.items commands, ∅⟩ := by
  have here : (ofCommands s commands).work? 0 = some (.caller ⟨commands, .ready, []⟩) := rfl
  have others : ∀ i, (if i = 0 then 0 else (ofCommands s commands).itemsAt i) = 0 := by
    intro i
    cases i <;> rfl
  have ended : {e | (ofCommands s commands).Ended e} = ∅ := by
    ext e
    simp only [Set.mem_ofPred_eq, Set.mem_empty_iff_false, iff_false]
    rintro (replied | ⟨i, here⟩)
    · exact Array.not_mem_empty _ replied
    · cases i <;> cases here
  rw [ledger_eq_desk here]
  simp only [desk, others, ended, finsum_zero, zero_add]
  rfl

/-- What the ledger of a session before its first run comes to. -/
theorem Leads.posted {graph : Graph} {registry : Registry} {draws : List Double} {commands : List (Command α)}
    (handles : ∀ x ∈ commands, x.Handles)
    (steps : (ofCommands (Session.ofGraph graph registry draws) commands).Leads w) :
    Ledger.Posted ⟨Session.ofGraph graph registry draws, Command.items commands, ∅⟩ w.ledger := by
  have stored : 0 < (Session.ofGraph graph registry draws).stores.size := Nat.succ_pos 0
  have proper : ∀ x ∈ commands, x.Proper := fun x member => (handles x member).proper
  rw [← ofCommands_ledger]
  induction steps with
  | refl => exact .refl
  | tail steps step ih =>
      obtain ⟨c, _, shown⟩ := (ofCommands_shows stored proper).leads steps
      exact ih.trans (shown.step_posts (Leads.calls stored proper handles steps) step)

end World

end BlockGraph
