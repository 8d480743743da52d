import BlockGraph.Proofs.Stage
/-!
Intact logic: logic that is never interrupted in its sleep ends by itself, with a fault, or because it was
closed. Where the emissions of an element come from fits the form of its logic. A traversal that is left
to itself keeps both, and is never cancelled.
-/
namespace BlockGraph

namespace Process

def Intact (p : Process) : Prop := ∀ cursor, p.progress = .resting cursor → cursor.pending? ≠ some .interrupted

/-- The form of logic that has not begun. -/
def form? (p : Process) : Option Form :=
  match p.progress with
  | .fresh logic => some logic.form
  | _ => none

/-- What intact logic comes to when it goes on. -/
structure Went (pause : Pause) (p : Process) : Prop where
  intact : p.Intact
  begun : p.form? = none
  uninterrupted : pause ≠ .ended .interrupted
  ended : ∀ e, pause = .ended e → p.progress = .over

theorem Went.of_over {e : Ending} {p : Process} (ceased : p.progress = .over) (h : e ≠ .interrupted) :
    Went (.ended e) p where
  intact := by
    intro cursor resting
    rw [ceased] at resting
    cases resting
  begun := by rw [form?, ceased]
  uninterrupted := by
    intro same
    cases same
    exact h rfl
  ended := fun _ _ => ceased

theorem Went.of_resting {pause : Pause} {p : Process} {cursor : Cursor}
    (resting : p.progress = .resting cursor) (intact : cursor.pending? ≠ some .interrupted)
    (alive : ∀ e, pause ≠ .ended e) : Went pause p where
  intact := by
    intro other same
    rw [resting] at same
    cases same
    exact intact
  begun := by rw [form?, resting]
  uninterrupted := alive .interrupted
  ended := fun e ended => absurd ended (alive e)

variable {c : Context}

theorem advance_uninterrupted (steps : List Step) (s : Session) :
    (Cursor.advance c steps s).1 ≠ .ended .interrupted := by
  induction steps generalizing s with
  | nil => exact fun same => by cases same
  | cons step rest ih =>
      rw [Cursor.advance]
      split
      · exact ih _
      all_goals exact fun same => by cases same

/-- Closing steps end as was said before, or with what happens in them. -/
theorem close_went (steps : List Step) {pending : Ending} (h : pending ≠ .interrupted) (s : Session) :
    Went (Cursor.close c steps pending s).1 ⟨c, (Cursor.close c steps pending s).2.1⟩ := by
  have uninterrupted := advance_uninterrupted (c := c) steps s
  rw [Cursor.close]
  split <;> rename_i advanced
  · exact .of_over rfl h
  · rw [advanced] at uninterrupted
    exact .of_over rfl fun same => uninterrupted (congrArg Pause.ended same)
  · rename_i alive
    exact .of_resting rfl (fun same => h (Option.some.inj same)) alive

theorem cursor_went {cursor : Cursor} (h : cursor.pending? ≠ some .interrupted) (s : Session) :
    Went (cursor.resume c s).1 ⟨c, (cursor.resume c s).2.1⟩ := by
  have uninterrupted := advance_uninterrupted (c := c) cursor.steps s
  rw [Cursor.resume]
  split
  · rename_i pending ends
    exact close_went _ (fun same => h (same ▸ ends)) _
  · split <;> rename_i advanced
    · rw [advanced] at uninterrupted
      exact close_went _ (fun same => uninterrupted (congrArg Pause.ended same)) _
    · rename_i alive
      exact .of_resting rfl h alive

theorem resume_went {p : Process} (h : p.Intact) (s : Session) :
    Went (p.resume s).1 (p.resume s).2.1 := by
  unfold resume
  split
  · rename_i logic _
    have fresh : (start p.context logic s).pending? ≠ some .interrupted := by
      unfold start
      cases logic <;> exact fun same => by cases same
    exact cursor_went fresh s
  · rename_i cursor resting
    exact cursor_went (h cursor resting) s
  · rename_i ceased
    exact .of_over ceased fun same => by cases same

theorem shut_went (p : Process) (s : Session) :
    Went (p.close s).1 (p.close s).2.1 := by
  have closed : Ending.closed ≠ .interrupted := fun same => by cases same
  unfold close
  split
  · rename_i cursor resting
    show Went (cursor.breakOff p.context .closed s).1 ⟨p.context, (cursor.breakOff p.context .closed s).2.1⟩
    rw [Cursor.breakOff]
    split
    · exact .of_over rfl closed
    · exact close_went _ closed s
  · exact .of_over rfl closed

end Process

/-- Whether a source draws on intact logic of the form it stands for. -/
structure Source.Intact (source : Source) : Prop where
  intact : ∀ p, source.process? = some p → p.Intact
  stream : ∀ p, source = .stream p → p.form? ≠ some .deferred
  deferred : ∀ p, source = .deferred p → p.form? = some .deferred

namespace Source.Intact

theorem items (vs : List Value) : (Source.items vs).Intact := by
  constructor <;>
    · intro p same
      cases same

theorem busy : Source.busy.Intact := by
  constructor <;>
    · intro p same
      cases same

theorem gathering {p : Process} (h : p.Intact) (collected : List Value) :
    (Source.gathering p collected).Intact := by
  constructor <;> intro q same
  · rwa [← Option.some.inj same]
  · cases same
  · cases same

theorem sequence {p : Process} (h : p.Intact) : (Source.sequence p).Intact := by
  constructor <;> intro q same
  · rwa [← Option.some.inj same]
  · cases same
  · cases same

theorem stream_of_went {pause : Pause} {p : Process} (h : p.Went pause) : (Source.stream p).Intact := by
  constructor <;> intro q same
  · rw [← Option.some.inj same]
    exact h.intact
  · cases same
    rw [h.begun]
    intro other
    cases other
  · cases same

/-- Logic that is about to start is intact. -/
theorem ofLogic (c : Context) (logic : Logic) : (Source.ofLogic c logic).Intact := by
  have fresh : (⟨c, .fresh logic⟩ : Process).Intact := fun cursor same => by cases same
  refine ⟨fun p same => ?_, fun p same => ?_, fun p same => ?_⟩
  · rw [Source.ofLogic_process] at same
    exact Option.some.inj same ▸ fresh
  · unfold Source.ofLogic at same
    simp only at same
    split at same <;> cases same
    rename_i form
    show some logic.form ≠ _
    rw [form]
    exact nofun
  · unfold Source.ofLogic at same
    simp only at same
    split at same <;> cases same
    rename_i form
    exact congrArg some form

end Source.Intact

end BlockGraph
