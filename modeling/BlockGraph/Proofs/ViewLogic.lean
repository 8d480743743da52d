import BlockGraph.Proofs.View
/-!
Block logic under a view: steps, cursors and processes come to what they come to without it.
-/
namespace BlockGraph

namespace Step

variable {c : Context} {s : Session} {x : Value} {next : Step}

theorem emitted_ne (port value : Except Fault Value) : emitted port value ≠ .itemThen x next := by
  unfold emitted
  split
  · split <;> nofun
  · nofun
  · nofun

theorem withSlots_ne (r : Except Fault Slots) : (withSlots c s r).1 ≠ .itemThen x next := by
  cases r <;> nofun

theorem turnsOver_ne (done : Nat) : (turnsOver c s done).1 ≠ .itemThen x next := nofun

/-- What comes after an item is no stop. -/
theorem take_itemThen {step : Step} (h : (step.take c s).1 = .itemThen x next) : next.isStop = false := by
  cases step with
  | store key value => exact absurd h (withSlots_ne _)
  | storeInput key name => exact absurd h (withSlots_ne _)
  | storeGlobal name value =>
      rw [take] at h
      simp only at h
      split at h <;> cases h
  | log message =>
      rw [take] at h
      split at h <;> cases h
  | unregister type => cases type <;> cases h
  | count n limit =>
      rw [take, counted] at h
      split at h
      · cases line : Value.numberText limit with
        | error f => simp only [line, Except.map, sayThen] at h; cases h
        | ok total => simp only [line, Except.map, sayThen] at h; cases h; rfl
      · cases h
  | turns done limit condition =>
      rw [take, turned] at h
      split at h
      · cases line : Value.numberText limit with
        | error f => simp only [line, Except.map, sayThen] at h; cases h
        | ok total => simp only [line, Except.map, sayThen] at h; exact absurd h (turnsOver_ne done)
      · split at h
        · cases h; rfl
        · exact absurd h (turnsOver_ne done)
  | item value | sleep length | insist length | stop | «raise» f | announce message | useDraw => cases h
  | _ =>
      simp only [take] at h
      exact absurd h (emitted_ne _ _)

end Step

namespace View

/-! ### Block logic -/

/-- What a step comes to. -/
def taken (v : View) (r : Taken × Session) : Taken × Session := (r.1, v.session r.2)

section Logic

variable {v : View} {c : Context} {s : Session}

theorem sayThen {next : Session → Taken × Session} (line : Except Fault String)
    (lasts : ∀ s : Session, s.Lasts (next s).2)
    (then_ : ∀ s, v.Clear s (next s).2 → next (v.session s) = v.taken (next s))
    (clear : v.Clear s (Step.sayThen c s line next).2) :
    Step.sayThen (v.context c) (v.session s) line next = v.taken (Step.sayThen c s line next) := by
  cases line with
  | error f => rfl
  | ok line =>
      have said := (s.say_deeds ("[" ++ c.elementId ++ "] " ++ line)).lasts
      show next ((v.session s).say ("[" ++ c.elementId ++ "] " ++ line)) = _
      rw [say (clear.first said (lasts _))]
      exact then_ _ (clear.rest said)

theorem turnsOver_lasts (c : Context) (done : Nat) (s : Session) :
    s.Lasts (Step.turnsOver c s done).2 := (s.say_deeds _).lasts

theorem turnsOver (done : Nat) (clear : v.Clear s (Step.turnsOver c s done).2) :
    Step.turnsOver (v.context c) (v.session s) done = v.taken (Step.turnsOver c s done) :=
  sayThen _ (fun s => .refl s) (fun _ _ => rfl) clear

theorem turned (done : Nat) (limit : Number) (condition : Value)
    (clear : v.Clear s (Step.turned c s done limit condition).2) :
    Step.turned (v.context c) (v.session s) done limit condition =
      v.taken (Step.turned c s done limit condition) := by
  unfold Step.turned at clear ⊢
  split at clear
  · rename_i full
    rw [if_pos full, if_pos full]
    refine sayThen _ (turnsOver_lasts c done) (fun s clear => ?_) clear
    exact turnsOver (c := c) done clear
  · rename_i room
    rw [if_neg room, if_neg room]
    split at clear
    · rename_i more
      rw [if_pos more, if_pos more]
      exact sayThen _ (fun s => .refl s) (fun _ _ => rfl) clear
    · rename_i passed
      rw [if_neg passed, if_neg passed]
      exact turnsOver done clear

theorem counted (next : Nat) (limit : Number) (clear : v.Clear s (Step.counted c s next limit).2) :
    Step.counted (v.context c) (v.session s) next limit = v.taken (Step.counted c s next limit) := by
  unfold Step.counted at clear ⊢
  split at clear
  · rename_i more
    rw [if_pos more, if_pos more]
    exact sayThen _ (fun s => .refl s) (fun _ _ => rfl) clear
  · rename_i passed
    rw [if_neg passed, if_neg passed]
    rfl

theorem stepSlots (r : Except Fault Slots) :
    Step.withSlots (v.context c) (v.session s) r = v.taken (Step.withSlots c s r) := by
  cases r with
  | error f => rfl
  | ok slots => exact congrArg (Prod.mk Taken.done) (v.withSlots s c.run slots)

/-- A step that is not left out comes to the same under a view. -/
theorem take (step : Step) (kept : (v.spares && step.isStop) = false)
    (clear : v.Clear s (step.take c s).2) :
    step.take (v.context c) (v.session s) = v.taken (step.take c s) := by
  have own : ((v.session s).slotsOf (v.context c).run) = s.slotsOf c.run := v.slotsOf s c.run
  cases step with
  | emitStored port key default => rw [Step.take, own]; rfl
  | emitGlobal port name default => rw [Step.take, own]; rfl
  | emitSlots port => rw [Step.take, own]; rfl
  | store key value => rw [Step.take, own]; exact stepSlots _
  | storeInput key name => rw [Step.take, own]; exact stepSlots _
  | storeGlobal name value =>
      rw [Step.take, own]
      exact congrArg (Prod.mk _) (v.withSlots s c.run _)
  | log message =>
      rw [Step.take] at clear ⊢
      have same : (v.context c).line message = c.line message := rfl
      rw [same, Step.take]
      cases line : c.line message with
      | error f => rfl
      | ok line =>
          rw [line] at clear
          exact congrArg (Prod.mk Taken.done) (say clear)
  | stop => exact congrArg (Prod.mk Taken.done) ((tell 2).stopBy clear)
  | unregister type =>
      cases type with
      | text type =>
          refine congrArg (Prod.mk Taken.done) ?_
          exact congrArg (fun registry => { v.session s with registry }) (v.unregister s.registry type)
      | _ => rfl
  | count next limit => exact counted next limit clear
  | turns done limit condition => exact turned done limit condition clear
  | _ => rfl

/-- What taking steps comes to. -/
def advanced (v : View) (r : Pause × List Step × Session) : Pause × List Step × Session :=
  (r.1, v.steps r.2.1, v.session r.2.2)

theorem steps_left {step : Step} (left : (v.spares && step.isStop) = true) (rest : List Step) :
    v.steps (step :: rest) = v.steps rest := by
  simp only [steps, List.filter_cons, left, Bool.not_true, Bool.false_eq_true, if_false]

theorem steps_kept {step : Step} (kept : (v.spares && step.isStop) = false) (rest : List Step) :
    v.steps (step :: rest) = step :: v.steps rest := by
  simp only [steps, List.filter_cons, kept, Bool.not_false, if_true]

theorem advance (steps : List Step) (known : s.Knows c.run c.elementId)
    (clear : v.Clear s (Cursor.advance c steps s).2.2) :
    Cursor.advance (v.context c) (v.steps steps) (v.session s) = v.advanced (Cursor.advance c steps s) := by
  induction steps generalizing s with
  | nil => rfl
  | cons step rest ih =>
      have before := step.take_deeds known
      cases left : v.spares && step.isStop with
      | true =>
          obtain ⟨spares, isStop⟩ := Bool.and_eq_true_iff.mp left
          cases step with
          | stop =>
              have after := (Cursor.advance_deeds rest (before.knows known)).lasts
              have same : s.stop = s := stopBy_inactive (Session.tell_discreet 2) after clear spares
              rw [steps_left left, Cursor.advance, Step.take, same]
              rw [Cursor.advance, Step.take, same] at clear
              exact ih known clear
          | _ => cases isStop
      | false =>
          rw [steps_kept left, Cursor.advance, Cursor.advance]
          rw [Cursor.advance] at clear
          cases taken : step.take c s with
          | mk r s₁ =>
              have same := take (v := v) (c := c) step left (s := s)
              rw [taken] at clear before same
              cases r with
              | done =>
                  have after := (Cursor.advance_deeds rest (before.knows known)).lasts
                  rw [same (clear.first before.lasts after)]
                  exact ih (before.knows known) (clear.rest before.lasts)
              | itemThen item next =>
                  have kept : (v.spares && next.isStop) = false := by
                    rw [Step.take_itemThen (congrArg Prod.fst taken), Bool.and_false]
                  rw [same clear]
                  exact congrArg (fun l => (Pause.item item, l, v.session s₁)) (steps_kept kept rest).symm
              | _ =>
                  rw [same clear]
                  rfl

/-- What a cursor comes to. -/
def rested (v : View) (r : Pause × Progress × Session) : Pause × Progress × Session :=
  (r.1, v.progress r.2.1, v.session r.2.2)

theorem closeCursor (steps : List Step) (pending : Ending) (known : s.Knows c.run c.elementId)
    (clear : v.Clear s (Cursor.close c steps pending s).2.2) :
    Cursor.close (v.context c) (v.steps steps) pending (v.session s) =
      v.rested (Cursor.close c steps pending s) := by
  have session : (Cursor.close c steps pending s).2.2 = (Cursor.advance c steps s).2.2 := by
    unfold Cursor.close
    split <;> rename_i same <;> rw [same]
  rw [Cursor.close, Cursor.close, advance steps known (session ▸ clear)]
  cases Cursor.advance c steps s with
  | mk pause r =>
      cases pause with
      | ended e => cases e <;> rfl
      | _ => rfl

theorem resumeCursor (cursor : Cursor) (known : s.Knows c.run c.elementId)
    (clear : v.Clear s (Cursor.resume c cursor s).2.2) :
    Cursor.resume (v.context c) (v.cursor cursor) (v.session s) = v.rested (Cursor.resume c cursor s) := by
  obtain ⟨steps, closing, pending?⟩ := cursor
  cases pending? with
  | some pending => exact closeCursor steps pending known clear
  | none =>
      have before := Cursor.advance_deeds steps known
      have same := advance (v := v) steps known
      simp only [Cursor.resume, cursor] at clear ⊢
      cases advanced : Cursor.advance c steps s with
      | mk pause r =>
          obtain ⟨rest, s₁⟩ := r
          rw [advanced] at before same clear
          cases pause with
          | ended e =>
              have after := (Cursor.close_deeds closing e (before.knows known)).lasts
              rw [same (clear.first before.lasts after)]
              exact closeCursor closing e (before.knows known) (clear.rest before.lasts)
          | _ =>
              rw [same clear]
              rfl

theorem breakOff (cursor : Cursor) (e : Ending) (known : s.Knows c.run c.elementId)
    (clear : v.Clear s (Cursor.breakOff c cursor e s).2.2) :
    Cursor.breakOff (v.context c) (v.cursor cursor) e (v.session s) =
      v.rested (Cursor.breakOff c cursor e s) := by
  obtain ⟨steps, closing, pending?⟩ := cursor
  cases pending? with
  | some pending => rfl
  | none => exact closeCursor closing e known clear

theorem possible (form : Form) (steps : List Step) :
    Process.possible form (v.steps steps) = v.steps (Process.possible form steps) := by
  have inForm : ∀ l : List Step, (v.steps l).map (Process.inForm form) = v.steps (l.map (Process.inForm form)) := by
    intro l
    rw [View.steps, View.steps, List.filter_map]
    refine congrArg (List.map _) (List.filter_congr fun step _ => ?_)
    cases step <;> rfl
  have awake : ∀ l : List Step,
      (v.steps l).filter (!Process.sleeps ·) = v.steps (l.filter (!Process.sleeps ·)) := fun l => by
    rw [View.steps, View.steps, List.filter_filter, List.filter_filter]
    exact List.filter_congr fun step _ => Bool.and_comm _ _
  cases form with
  | stream | deferred => exact inForm steps
  | sequence | immediate =>
      show (List.filter _ (v.steps steps)).map _ = _
      rw [awake, inForm]
      rfl

/-- Handing over items asks for no stop. -/
theorem itemSteps (x : Value) : v.steps (Process.itemSteps x) = Process.itemSteps x := by
  have items : ∀ l : List Value, v.steps (l.map .item) = l.map .item := fun l =>
    List.filter_eq_self.mpr fun step member => by
      obtain ⟨_, _, rfl⟩ := List.mem_map.mp member
      simp only [Step.isStop, Bool.and_false, Bool.not_false]
  unfold Process.itemSteps
  split
  · rfl
  · split
    · exact items _
    · exact steps_kept (by simp only [Step.isStop, Bool.and_false]) []

theorem startLogic (logic : Logic) :
    Process.start (v.context c) (v.logic logic) (v.session s) = v.cursor (Process.start c logic s) := by
  cases logic with
  | script form steps closing =>
      show (⟨Process.possible form (v.steps steps), Process.possible form (v.steps closing), none⟩ : Cursor) = _
      rw [possible, possible]
      rfl
  | constant form x =>
      show _ = (⟨v.steps (Process.itemSteps x), [], none⟩ : Cursor)
      rw [itemSteps]
      rfl
  | planned form plan =>
      have own : ((v.session s).slotsOf (v.context c).run) = s.slotsOf c.run := v.slotsOf s c.run
      let sight : Sight := ⟨c, (s.slotsOf c.run).slot c.elementId, (s.slotsOf c.run).slot Slots.globalId,
        s.draws.current⟩
      have seen : v.unseen { sight with context := v.context c } = sight := by
        unfold unseen context
        simp only [Nat.add_sub_cancel_left]
        rfl
      have planned : v.steps (plan (v.unseen { sight with context := v.context c })) = v.steps (plan sight) :=
        congrArg (fun x => v.steps (plan x)) seen
      simp only [Process.start, own]
      show (⟨Process.possible form (v.steps (plan (v.unseen { sight with context := v.context c }))), [],
        none⟩ : Cursor) = v.cursor ⟨Process.possible form (plan sight), [], none⟩
      rw [planned, possible]
      rfl

end Logic

/-! ### Processes -/

section Processes

variable {v : View} {p : Process} {s : Session}

theorem resume (known : p.Known s) (clear : v.Clear s (p.resume s).2.2) :
    (v.process p).resume (v.session s) = v.paused (p.resume s) := by
  obtain ⟨c, progress⟩ := p
  cases progress with
  | fresh logic =>
      have same := resumeCursor (v := v) (Process.start c logic s) known clear
      rw [← startLogic] at same
      exact congrArg ((v.process ⟨c, .fresh logic⟩).put ·) same
  | resting cursor => exact congrArg ((v.process ⟨c, .resting cursor⟩).put ·) (resumeCursor cursor known clear)
  | «over» => rfl

theorem closeProcess (known : p.Known s) (clear : v.Clear s (p.close s).2.2) :
    (v.process p).close (v.session s) = v.paused (p.close s) := by
  obtain ⟨c, progress⟩ := p
  cases progress with
  | resting cursor =>
      exact congrArg ((v.process ⟨c, .resting cursor⟩).put ·) (breakOff cursor .closed known clear)
  | _ => rfl

theorem interrupt (known : p.Known s) (clear : v.Clear s (p.interrupt s).2.2) :
    (v.process p).interrupt (v.session s) = v.paused (p.interrupt s) := by
  obtain ⟨c, progress⟩ := p
  cases progress with
  | resting cursor =>
      exact congrArg ((v.process ⟨c, .resting cursor⟩).put ·) (breakOff cursor .interrupted known clear)
  | _ => rfl

end Processes

end View

end BlockGraph
