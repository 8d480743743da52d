import BlockGraph.Proofs.Habits
import BlockGraph.Proofs.Intact
import BlockGraph.Proofs.Weight
import Mathlib.Order.WellFounded
/-!
Rations: how much block logic may still hand over. A step that counts hands over no more than what its limit
leaves, unless it counts to infinity, and all other steps hand over one item at most. So logic without such a
count comes to its end, whatever becomes of the session between its pauses.
-/
namespace BlockGraph

/-! ### Limits -/

namespace Number

def infinity : Number := .float (.infinite false)

/-- A natural number that has reached every number but an infinite one. -/
def ceiling : Number → Nat
  | .int n => n.toNat
  | .float x => (x.units?.getD 0).toNat

theorem lt_of_ceiling {limit : Number} (finite : limit ≠ infinity) {n : Nat} (reached : limit.ceiling ≤ n) :
    lt (.int n) limit = false := by
  unfold lt compare?
  cases limit with
  | int m =>
      have least : m ≤ n := Int.toNat_le.mp reached
      rw [beq_eq_false_iff_ne]
      intro less
      have less : (n : Int) < m := Int.compare_eq_lt.mp (Option.some.inj less)
      omega
  | float x =>
      cases x with
      | nan mark? => rfl
      | infinite negative =>
          cases negative with
          | false => exact absurd rfl finite
          | true => rfl
      | finite negative code inRange =>
          rw [beq_eq_false_iff_ne]
          intro less
          simp only [Double.compareInt?, Double.units?, Option.map_some, Option.some.injEq] at less
          simp only [ceiling, Double.units?, Option.getD_some, Int.toNat_le] at reached
          have less := Int.compare_eq_lt.mp less
          have scaled : (n : Int) * 1 ≤ n * Double.unitsPerOne :=
            Int.mul_le_mul_of_nonneg_left (Int.ofNat_le.mpr Double.unitsPerOne_pos) (Int.natCast_nonneg n)
          omega

end Number

/-! ### Steps -/

namespace Step

/-- Whether a step comes to an end: one that counts to infinity does not. -/
def Ends : Step → Prop
  | .count _ limit => limit ≠ .infinity
  | .turns _ limit condition => condition.isTrue = true → limit ≠ .infinity
  | _ => True

/-- How many items a step that comes to an end may hand over before its last. -/
def spare : Step → Nat
  | .count next limit => limit.ceiling - next
  | .turns done limit _ => limit.ceiling - done
  | _ => 0

/-- Whether a step is neither repeated nor followed by another one. -/
def IsSingle : Step → Prop
  | .count .. | .turns .. => False
  | _ => True

theorem IsSingle.ends {step : Step} (single : step.IsSingle) : step.Ends := by
  cases step <;> first | exact single.elim | trivial

/-- What is left of a step that hands over an item. -/
def Shrinks (step : Step) (taken : Taken) : Prop :=
  ∀ v next, taken = .itemThen v next → next.Ends ∧ next.spare < step.spare

variable {c : Context} {s : Session}

theorem shrinks_emitted (step : Step) (port value : Except Fault Value) :
    step.Shrinks (emitted port value) := by
  intro v next same
  unfold emitted at same
  split at same
  · split at same <;> cases same
  · cases same
  · cases same

theorem shrinks_withSlots (step : Step) (r : Except Fault Slots) :
    step.Shrinks (withSlots c s r).1 := by
  intro v next same
  cases r <;> cases same

theorem shrinks_sayThen {step : Step} {line : Except Fault String} {rest : Session → Taken × Session}
    (shrinks : ∀ s, step.Shrinks (rest s).1) : step.Shrinks (sayThen c s line rest).1 := by
  unfold sayThen
  split
  · exact shrinks _
  · exact nofun

theorem shrinks_turnsOver (step : Step) (done : Nat) : step.Shrinks (turnsOver c s done).1 :=
  shrinks_sayThen fun _ => nofun

/-- Counting below a limit that is not infinite leaves less to count. -/
theorem spare_lt {limit : Number} (finite : limit ≠ .infinity) {n : Nat}
    (less : Number.lt (.int n) limit = true) : limit.ceiling - (n + 1) < limit.ceiling - n := by
  have below : n < limit.ceiling := by
    by_contra reached
    rw [Number.lt_of_ceiling finite (Nat.le_of_not_lt reached)] at less
    cases less
  omega

theorem shrinks_counted {next : Nat} {limit : Number} (finite : limit ≠ .infinity) :
    (count next limit).Shrinks (counted c s next limit).1 := by
  unfold counted
  split
  · rename_i less
    refine shrinks_sayThen fun s v then_ same => ?_
    cases same
    exact ⟨finite, spare_lt finite less⟩
  · exact nofun

theorem shrinks_turned {done : Nat} {limit : Number} {condition : Value}
    (finite : condition.isTrue = true → limit ≠ .infinity) :
    (turns done limit condition).Shrinks (turned c s done limit condition).1 := by
  unfold turned
  split
  · exact shrinks_sayThen fun _ => shrinks_turnsOver _ _
  · split
    · rename_i goesOn
      obtain ⟨less, holds⟩ := Bool.and_eq_true_iff.mp goesOn
      refine shrinks_sayThen fun s v then_ same => ?_
      cases same
      exact ⟨finite, spare_lt (finite holds) less⟩
    · exact shrinks_turnsOver _ _

/-- A step that comes to an end has less to hand over after each item. -/
theorem take_shrinks {step : Step} (ends : step.Ends) : step.Shrinks (step.take c s).1 := by
  cases step with
  | count next limit => exact shrinks_counted ends
  | turns done limit condition => exact shrinks_turned ends
  | store key value => exact shrinks_withSlots _ _
  | storeInput key name => exact shrinks_withSlots _ _
  | storeGlobal name value =>
      intro v next same
      rw [take] at same
      dsimp only at same
      split at same <;> cases same
  | log message =>
      intro v next same
      rw [take] at same
      split at same <;> cases same
  | unregister type =>
      intro v next same
      cases type <;> cases same
  | item | sleep | insist | stop | «raise» | announce | useDraw =>
      intro v next same
      cases same
  | _ =>
      simp only [take]
      exact shrinks_emitted _ _ _

end Step

/-! ### Logic under way -/

namespace Cursor

/-- How much a row of steps may still come to. -/
def ration (steps : List Step) : Nat := (steps.map (·.spare + 1)).sum

@[simp] theorem ration_nil : ration [] = 0 := rfl

@[simp] theorem ration_cons (step : Step) (rest : List Step) :
    ration (step :: rest) = step.spare + 1 + ration rest := by
  simp [ration]

end Cursor

/-- What becomes of the ration of logic that pauses: it is less, unless the logic ends. -/
def Pause.Spends (pause : Pause) (ration ration' : Nat) : Prop :=
  match pause with
  | .ended _ => ration' ≤ ration
  | _ => ration' < ration

namespace Pause.Spends

variable {pause : Pause} {ration mid ration' : Nat}

theorem le (h : pause.Spends ration ration') : ration' ≤ ration := by
  cases pause with
  | ended e => exact h
  | item v => exact Nat.le_of_lt h
  | sleep length insists => exact Nat.le_of_lt h

theorem trans (h : pause.Spends mid ration') (less : mid ≤ ration) : pause.Spends ration ration' := by
  cases pause with
  | ended e => exact Nat.le_trans h less
  | item v => exact Nat.lt_of_lt_of_le h less
  | sleep length insists => exact Nat.lt_of_lt_of_le h less

end Pause.Spends

namespace Cursor

variable {c : Context} {steps : List Step}

theorem advance_spends (ends : ∀ step ∈ steps, step.Ends) (s : Session) :
    (∀ step ∈ (advance c steps s).2.1, step.Ends) ∧
      (advance c steps s).1.Spends (ration steps) (ration (advance c steps s).2.1) := by
  induction steps generalizing s with
  | nil => exact ⟨ends, Nat.le_refl _⟩
  | cons step rest ih =>
      obtain ⟨here, others⟩ := List.forall_mem_cons.mp ends
      have shrinks := step.take_shrinks (c := c) (s := s) here
      have fewer : ration rest < ration (step :: rest) := by
        rw [ration_cons]
        omega
      rw [advance]
      split
      · obtain ⟨left, spends⟩ := ih others _
        exact ⟨left, spends.trans (Nat.le_of_lt fewer)⟩
      · exact ⟨others, fewer⟩
      · rename_i v next s' same
        obtain ⟨comes, less⟩ := shrinks v next (by rw [same])
        refine ⟨List.forall_mem_cons.mpr ⟨comes, others⟩, ?_⟩
        show ration (next :: rest) < ration (step :: rest)
        rw [ration_cons, ration_cons]
        omega
      · exact ⟨others, fewer⟩
      · exact ⟨fun step member => absurd member List.not_mem_nil, Nat.zero_le _⟩

end Cursor

namespace Progress

/-- How much logic that has begun may still come to. -/
def ration : Progress → Nat
  | .resting cursor => Cursor.ration cursor.steps + Cursor.ration cursor.closing
  | .fresh _ | .over => 0

/-- Whether logic that has begun comes to its end. -/
def Ends : Progress → Prop
  | .resting cursor => ∀ step ∈ cursor.steps ++ cursor.closing, step.Ends
  | .over => True
  | .fresh _ => False

end Progress

namespace Cursor

variable {c : Context} {steps : List Step} {cursor : Cursor}

theorem close_spends (ends : ∀ step ∈ steps, step.Ends) (e : Ending) (s : Session) :
    (close c steps e s).2.1.Ends ∧
      (close c steps e s).1.Spends (ration steps) (close c steps e s).2.1.ration := by
  obtain ⟨left, spends⟩ := advance_spends (c := c) ends s
  rw [close]
  split
  · exact ⟨trivial, Nat.zero_le _⟩
  · exact ⟨trivial, Nat.zero_le _⟩
  · rename_i pause rest s' _ _ same
    rw [same] at left spends
    exact ⟨fun step member => left step (by simpa using member), spends⟩

theorem resume_spends (ends : (Progress.resting cursor).Ends) (s : Session) :
    (resume c cursor s).2.1.Ends ∧
      (resume c cursor s).1.Spends (Progress.resting cursor).ration (resume c cursor s).2.1.ration := by
  obtain ⟨first, last⟩ := List.forall_mem_append.mp ends
  obtain ⟨left, spends⟩ := advance_spends (c := c) first s
  rw [resume]
  split
  · obtain ⟨left, spends⟩ := close_spends (c := c) first ‹_› s
    exact ⟨left, spends.trans (Nat.le_add_right _ _)⟩
  · split
    · rename_i e _ s' _
      obtain ⟨left, spends⟩ := close_spends (c := c) last e s'
      exact ⟨left, spends.trans (Nat.le_add_left _ _)⟩
    · rename_i pause rest s' _ same
      rw [same] at left spends
      refine ⟨List.forall_mem_append.mpr ⟨left, last⟩, ?_⟩
      cases pause with
      | ended e => exact Nat.add_le_add_right spends _
      | item v => exact Nat.add_lt_add_right spends _
      | sleep length insists => exact Nat.add_lt_add_right spends _

theorem breakOff_spends (ends : (Progress.resting cursor).Ends) (e : Ending) (s : Session) :
    (breakOff c cursor e s).2.1.Ends ∧
      (breakOff c cursor e s).1.Spends (Progress.resting cursor).ration
        (breakOff c cursor e s).2.1.ration := by
  rw [breakOff]
  split
  · exact ⟨trivial, Nat.zero_le _⟩
  · obtain ⟨left, spends⟩ := close_spends (c := c) (List.forall_mem_append.mp ends).2 e s
    exact ⟨left, spends.trans (Nat.le_add_left _ _)⟩

end Cursor

namespace Process

def ration (p : Process) : Nat := p.progress.ration

/-- Whether all steps that logic may still take come to an end, whatever it sees when it begins. -/
def Ends (p : Process) : Prop := ∀ s, ∀ step ∈ p.ahead s, step.Ends

/-- Whether logic has gone on to a pause at the cost of its ration. -/
def Spends (p : Process) (r : Pause × Process × Session) : Prop :=
  r.2.1.Ends ∧ (r.2.1.news < p.news ∨ r.2.1.news ≤ p.news ∧ r.1.Spends p.ration r.2.1.ration)

theorem ends_of_progress {p : Process} (ends : p.progress.Ends) : p.Ends := by
  obtain ⟨c, progress⟩ := p
  intro s step member
  cases progress with
  | fresh logic => exact ends.elim
  | resting cursor => exact ends step member
  | «over» => exact (List.not_mem_nil member).elim

variable {p : Process}

theorem resume_spends (ends : p.Ends) (s : Session) : p.Spends (p.resume s) := by
  obtain ⟨c, progress⟩ := p
  unfold resume
  cases progress with
  | fresh logic =>
      obtain ⟨left, _⟩ := Cursor.resume_spends (c := c) (show (Progress.resting (start c logic s)).Ends from ends s) s
      refine ⟨ends_of_progress left, .inl ?_⟩
      exact Nat.lt_of_le_of_lt (Nat.le_of_eq (Cursor.resume_eases c _ s).1) Nat.zero_lt_one
  | resting cursor =>
      obtain ⟨left, spends⟩ := Cursor.resume_spends (c := c) (show (Progress.resting cursor).Ends from ends s) s
      exact ⟨ends_of_progress left, .inr ⟨Nat.le_of_eq (Cursor.resume_eases c cursor s).1, spends⟩⟩
  | «over» => exact ⟨ends, .inr ⟨Nat.le_refl _, Nat.le_refl _⟩⟩

theorem close_spends (ends : p.Ends) (s : Session) : p.Spends (p.close s) := by
  obtain ⟨c, progress⟩ := p
  unfold close
  cases progress with
  | fresh logic => exact ⟨ends_of_progress trivial, .inl Nat.zero_lt_one⟩
  | resting cursor =>
      have still : (Progress.resting cursor).Ends := ends s
      obtain ⟨left, spends⟩ := Cursor.breakOff_spends (c := c) still .closed s
      exact ⟨ends_of_progress left, .inr ⟨Nat.le_of_eq (Cursor.breakOff_eases c cursor _ s).1, spends⟩⟩
  | «over» => exact ⟨ends_of_progress trivial, .inr ⟨Nat.le_refl _, Nat.le_refl _⟩⟩

/-! ### Logic that goes on again and again -/

/-- Logic after it has gone on so many times, each time in some session. -/
def after (p : Process) (sessions : Nat → Session) : Nat → Process
  | 0 => p
  | n + 1 => ((p.after sessions n).resume (sessions n)).2.1

/-- The pauses of logic that goes on again and again. -/
def pause (p : Process) (sessions : Nat → Session) (n : Nat) : Pause :=
  ((p.after sessions n).resume (sessions n)).1

theorem resume_over (ended : p.progress = .over) (s : Session) : p.resume s = (.ended .normal, p, s) := by
  unfold resume
  rw [ended]

/-- Logic whose steps all come to an end ends, however often it pauses on the way. -/
theorem Ends.pauses (ends : p.Ends) (intact : p.Intact) (sessions : Nat → Session) :
    ∃ last, ∀ n, last ≤ n → ∃ e, p.pause sessions n = .ended e := by
  have here : ∀ n, (p.after sessions n).Ends ∧ (p.after sessions n).Intact := by
    intro n
    induction n with
    | zero => exact ⟨ends, intact⟩
    | succ n ih => exact ⟨(resume_spends ih.1 _).1, (resume_went ih.2 _).intact⟩
  have comes : ∃ n e, p.pause sessions n = .ended e := by
    by_contra never
    let size : Nat → ℕ ×ₗ ℕ := fun n => toLex ((p.after sessions n).news, (p.after sessions n).ration)
    obtain ⟨n, stays⟩ := WellFounded.not_rel_apply_succ (r := (· < ·)) size
    refine stays (Prod.Lex.toLex_lt_toLex.mpr ?_)
    rcases (resume_spends (here n).1 (sessions n)).2 with older | ⟨old, spends⟩
    · exact .inl older
    · rcases Nat.lt_or_eq_of_le old with older | same
      · exact .inl older
      · refine .inr ⟨same, ?_⟩
        cases paused : p.pause sessions n with
        | ended e => exact (never ⟨n, e, paused⟩).elim
        | item v =>
            rw [show ((p.after sessions n).resume (sessions n)).1 = .item v from paused] at spends
            exact spends
        | sleep length insists =>
            rw [show ((p.after sessions n).resume (sessions n)).1 = .sleep length insists from paused] at spends
            exact spends
  obtain ⟨first, e, ended⟩ := comes
  have stays : ∀ k, (p.after sessions (first + 1 + k)).progress = .over := by
    intro k
    induction k with
    | zero => exact (resume_went (here first).2 _).ended e ended
    | succ k ih =>
        show ((p.after sessions (first + 1 + k)).resume _).2.1.progress = .over
        rw [resume_over ih]
        exact ih
  refine ⟨first + 1, fun n late => ⟨.normal, ?_⟩⟩
  obtain ⟨k, rfl⟩ := Nat.exists_eq_add_of_le late
  rw [pause, resume_over (stays k)]

end Process

end BlockGraph
