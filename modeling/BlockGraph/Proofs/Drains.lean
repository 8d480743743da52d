import BlockGraph.Proofs.Termination
/-!
Draining: what is left of a traversal once its run was asked to stop. Each element under way is asked for
its items until it has none, and each of them is recorded; no connection is followed.
-/
namespace BlockGraph

namespace Session

/-- Takes the items of an element one by one, and records each. -/
def drain (s : Session) (e : Element) (source : Source) : Option Visit := do
  match ← s.pull e source with
  | (.error f, s) => some (.fail f s)
  | (.ok none, s) => some (none, s.completed e.id)
  | (.ok (some (item, source)), s) => match Emission.ofItem item with
    | .error f =>
      let (f, s) := s.blockFailed e f
      return (some f, ← source.shut (s.note (.failed f)))
    | .ok emission => s.record e.id emission |>.drain e source
partial_fixpoint

/-- What is made of an answer of the logic of an element that is drained. -/
def keep (e : Element) (r : Pulled) : Option Visit :=
  match r with
  | (.error f, s) => some (.fail f s)
  | (.ok none, s) => some (none, s.completed e.id)
  | (.ok (some (item, source)), s) => match Emission.ofItem item with
    | .error f =>
      let (f, s) := s.blockFailed e f
      (source.shut (s.note (.failed f))).map (some f, ·)
    | .ok emission => drain (s.record e.id emission) e source

theorem drain_eq (s : Session) (e : Element) (source : Source) :
    s.drain e source = (s.pull e source).bind (keep e) := by
  rw [drain]
  refine congrArg (s.pull e source).bind (funext fun r => ?_)
  obtain ⟨answer, s⟩ := r
  unfold keep
  cases answer with
  | error f => rfl
  | ok item? =>
      cases item? with
      | none => rfl
      | some item =>
          simp only
          cases Emission.ofItem item.1 with
          | error f => exact Option.map_eq_bind.symm
          | ok emission => rfl

end Session

namespace Frame

/-- Drains all elements under way, innermost first. -/
def drainAll (stack : List Frame) (s : Session) : Option Visit :=
  match stack with
  | [] => some (none, s)
  | frame :: outer => (s.drain frame.element frame.source).bind fun
    | (none, s) => drainAll outer s
    | (some f, s) => unwind outer (some f, s)

/-- Goes on to the elements around one that was drained, or closes them. -/
def drainOn (stack : List Frame) (r : Visit) : Option Visit :=
  match r with
  | (none, s) => drainAll stack s
  | (some f, s) => unwind stack (some f, s)

end Frame

/-- What a traversal still comes to at a stage when no connection is followed any more. -/
def Stage.drained (st : Stage) (s : Session) : Option Visit :=
  match st with
  | opening => match s.opening with
    | (.error f, s) => some (some f, s)
    | (.ok _, s) => some (none, s)
  | walking t => Frame.drainAll t.stack s
  | awaiting ⟨_, []⟩ _ _ => none
  | awaiting ⟨_, frame :: outer⟩ a _ =>
    ((a.pull s frame.element).bind (Session.keep frame.element)).bind (Frame.drainOn outer)
  | delaying t id => Frame.drainAll t.stack (s.completed id)
  | unwinding t e => (e.visit? s).bind (Frame.unwind t.stack)
  | closing t p _ e => (p.await s).bind fun (_, _, s) => (e.visit? s).bind (Frame.unwind t.stack)
  | .over e => e.visit? s

/-! ### A run that is not active stays so -/

/-- Whether a session comes of another one that is active if it is, and knows all logic that that one
knows. -/
structure Session.Fades (s s' : Session) : Prop where
  retains : s.Retains s'
  off : s.active = false → s'.active = false

namespace Session.Fades

variable {s s₁ s' : Session}

theorem trans (h : s.Fades s₁) (h' : s₁.Fades s') : s.Fades s' :=
  ⟨h.retains.trans h'.retains, fun off => h'.off (h.off off)⟩

theorem deeds (h : Deeds s s') : s.Fades s' := by
  refine ⟨h.retains, fun off => ?_⟩
  have same := h.runsOn.running
  cases running : s.running with
  | false => rw [Session.active, same, running, Bool.false_and]
  | true =>
      have stop : s.stopRequested = true := by
        rw [Session.active, running, Bool.true_and] at off
        exact Bool.not_eq_eq_eq_not.mp off
      rw [Session.active, (h.kept_of_running running).stop stop, Bool.not_true, Bool.and_false]

theorem of_eq (retains : s.Retains s') (running : s'.running = s.running)
    (stop : s'.stopRequested = s.stopRequested) : s.Fades s' :=
  ⟨retains, fun off => by rw [Session.active, running, stop]; exact off⟩

theorem record (s : Session) (id : String) (e : Emission) : s.Fades (s.record id e) :=
  of_eq (s.record_retains id e) rfl rfl

theorem completing (s : Session) (id : String) : s.Fades (s.completing id) := by
  refine of_eq (s.completing_retains id) (s.completing_runsOn id).running ?_
  unfold Session.completing hears
  split <;> rfl

theorem completed (s : Session) (id : String) : s.Fades (s.completed id) :=
  (deeds (s.say_deeds _)).trans ((completing _ id).trans (deeds (notify_deeds _ _)))

end Session.Fades

/-! ### Answers of logic -/

namespace Process

variable {p q : Process} {s s' : Session}

/-- Logic that goes on does deeds, and stays known. -/
theorem resume_known (known : p.Known s) : Deeds s (p.resume s).2.2 ∧ (p.resume s).2.1.Known (p.resume s).2.2 :=
  ⟨resume_deeds known, (known.of_context (resume_context p s)).deeds (resume_deeds known)⟩

theorem await_deeds {pause : Pause} (known : p.Known s) (found : p.await s = some (pause, q, s')) :
    Deeds s s' ∧ q.Known s' := by
  refine await_induct (P := fun p s => p.Known s → Deeds s s' ∧ q.Known s') ?_ ?_ found known
  · intro p s length insists p₁ s₁ resumed ih known
    obtain ⟨deeds, known⟩ := resume_known known
    rw [resumed] at deeds known
    exact ⟨deeds.trans (ih known).1, (ih known).2⟩
  · intro p s resumed _ known
    have went := resume_known known
    rwa [resumed] at went

theorem gather_deeds {how : Ending} {items collected : List Value} (known : p.Known s)
    (found : p.gather s collected = some (how, items, s')) : Deeds s s' := by
  refine gather_induct (P := fun p _ s => p.Known s → Deeds s s') ?_ ?_ ?_ found known
  · intro p s collected length insists p₁ s₁ resumed ih known
    obtain ⟨deeds, known⟩ := resume_known known
    rw [resumed] at deeds known
    exact deeds.trans (ih known)
  · intro p s collected v p₁ s₁ resumed ih known
    obtain ⟨deeds, known⟩ := resume_known known
    rw [resumed] at deeds known
    exact deeds.trans (ih known)
  · intro p s collected q resumed _ known
    have deeds := (resume_known known).1
    rwa [resumed] at deeds

end Process

/-- Whether an answer comes of deeds, with a source that is known. -/
structure Session.Answers (s : Session) (r : Pulled) : Prop where
  deeds : Deeds s r.2
  known : ∀ item source, r.1 = .ok (some (item, source)) → source.Known r.2

namespace Session.Answers

variable {s s₁ : Session} {r : Pulled} {e : Element}

theorem after (h : s₁.Answers r) (deeds : Deeds s s₁) : s.Answers r := ⟨deeds.trans h.deeds, h.known⟩

theorem ended (s : Session) (e : Element) (how : Ending) : s.Answers (s.pulledEnd e how) := by
  cases how with
  | fault f =>
      unfold pulledEnd
      simp only
      split
      · exact ⟨Traversal.blockTimedOut_deeds s e, fun _ _ => nofun⟩
      · exact ⟨Traversal.blockFailed_deeds s e f, fun _ _ => nofun⟩
  | _ => exact ⟨.refl, fun _ _ => nofun⟩

theorem items (s : Session) (vs : List Value) : s.Answers (s.pulledItems vs) := by
  cases vs with
  | nil => exact ⟨.refl, fun _ _ => nofun⟩
  | cons v rest =>
      refine ⟨.refl, fun item source same => ?_⟩
      cases same
      exact .of_none rfl s

theorem pause {source : Source} (known : source.Known s) (e : Element) (pause : Pause) :
    s.Answers (s.pulledPause e source pause) := by
  cases pause with
  | item v =>
      refine ⟨.refl, fun item next same => ?_⟩
      cases same
      exact known
  | sleep length insists => exact ⟨.refl, fun _ _ => nofun⟩
  | ended how => exact .ended s e how

theorem all (s : Session) (e : Element) (items : List Value) (how : Ending) :
    s.Answers (s.pulledAll e items how) := by
  cases how with
  | normal => exact .items s items
  | fault f => exact .ended s e (.fault f)
  | closed => exact .ended s e .closed
  | interrupted => exact .ended s e .interrupted

theorem now (s : Session) (e : Element) (items : List Value) (how : Ending) :
    s.Answers (s.pulledNow e items how) := by
  cases how with
  | fault f => exact ⟨Traversal.blockFailed_deeds s e f, fun _ _ => nofun⟩
  | _ => exact .items s items

theorem awaited {p : Process} (known : p.Known s)
    {ofProcess : Process → Source} (draws : ∀ p, (ofProcess p).process? = some p)
    (found : ((p.await s).map fun (pause, p, s) => s.pulledPause e (ofProcess p) pause) = some r) :
    s.Answers r := by
  obtain ⟨⟨pause, q, s'⟩, waited, rfl⟩ := Option.map_eq_some_iff.mp found
  obtain ⟨deeds, here⟩ := Process.await_deeds known waited
  refine (Answers.pause (fun p' drawn => ?_) e pause).after deeds
  rw [draws] at drawn
  exact Option.some.inj drawn ▸ here

/-- What the logic of an element answers. -/
theorem pull {source : Source} (known : source.Known s) (found : s.pull e source = some r) :
    s.Answers r := by
  cases source with
  | items vs => exact Option.some.inj found ▸ .items s vs
  | busy => exact Option.some.inj found ▸ ⟨.refl, fun _ _ => nofun⟩
  | sequence p => exact .awaited (known p rfl) (fun _ => rfl) found
  | stream p => exact .awaited (known p rfl) (fun _ => rfl) found
  | gathering p collected =>
      obtain ⟨⟨how, items, s'⟩, gathered, rfl⟩ := Option.map_eq_some_iff.mp found
      exact (Answers.now s' e items how).after (Process.gather_deeds (known p rfl) gathered)
  | deferred p =>
      obtain ⟨⟨how, items, s'⟩, gathered, rfl⟩ := Option.map_eq_some_iff.mp found
      exact (Answers.all s' e items how).after (Process.gather_deeds (known p rfl) gathered)

/-- What logic that is waited for answers. -/
theorem attempt {a : Attempt} (known : a.process.Known s) (found : a.pull s e = some r) :
    s.Answers r := by
  by_cases ceased : ∃ y, a.mode = .over y
  · obtain ⟨y, ceased⟩ := ceased
    obtain ⟨p, collected?, mode⟩ := a
    cases ceased
    cases y with
    | items vs => exact Option.some.inj found ▸ .items s vs
    | pause pause =>
        refine Option.some.inj found ▸ .pause (fun q drawn => ?_) e pause
        exact Option.some.inj drawn ▸ known
  · rw [Attempt.pull_alive (fun y same => ceased ⟨y, same⟩)] at found
    cases collected : a.collected? with
    | none =>
        rw [collected] at found
        exact .awaited known (fun _ => rfl) found
    | some items =>
        rw [collected] at found
        obtain ⟨⟨how, items, s'⟩, gathered, rfl⟩ := Option.map_eq_some_iff.mp found
        exact (Answers.all s' e items how).after (Process.gather_deeds known gathered)

end Session.Answers

/-! ### A recursion that follows nothing -/

namespace Session

variable {s : Session} {e : Element} {source : Source}

/-- When a run is not active, connections are not followed. -/
theorem follow_inactive (off : s.active = false) (cs : List Connection) :
    s.follow cs = some (none, s) := by
  cases cs with
  | nil => rw [follow]
  | cons c rest =>
      rw [follow]
      simp only [off, Bool.false_eq_true, if_false]

/-- An element that is driven by a run that is not active is drained. -/
theorem drain_of_drive {r : Visit} (found : s.drive e source = some r) (off : s.active = false)
    (known : source.Known s) : s.drain e source = some r := by
  have drives : ∀ s e source r, Session.drive s e source = some r → s.active = false → source.Known s →
      s.drain e source = some r := by
    refine (Session.visit.mutual_partial_correctness (fun _ _ _ => True)
      (fun s e source r => s.active = false → source.Known s → s.drain e source = some r)
      (fun s _ r => s.active = false → r = (none, s)) ?_ ?_ ?_).2.1
    · exact fun _ _ _ _ _ _ => trivial
    · intro drive follow ihDrive ihFollow s e source r found off known
      obtain ⟨⟨answer, s₁⟩, pulled, found⟩ := Option.bind_eq_some_iff.mp found
      have answers := Answers.pull known pulled
      have fades := Fades.deeds answers.deeds
      rw [drain_eq, pulled]
      cases answer with
      | error f => exact found
      | ok item? =>
          cases item? with
          | none => exact found
          | some item =>
              obtain ⟨item, next⟩ := item
              show keep e (.ok (some (item, next)), s₁) = some r
              unfold keep
              simp only at found ⊢
              cases made : Emission.ofItem item with
              | error f =>
                  simp only [made] at found ⊢
                  exact Option.map_eq_bind.trans found
              | ok emission =>
                  simp only [made] at found ⊢
                  obtain ⟨⟨f?, s₂⟩, followed, found⟩ := Option.bind_eq_some_iff.mp found
                  have recorded := Fades.record s₁ e.id emission
                  have same := ihFollow _ _ _ followed (recorded.off (fades.off off))
                  cases same
                  exact ihDrive _ _ _ _ found (recorded.off (fades.off off))
                    ((answers.known item next rfl).retains recorded.retains)
    · intro visit follow _ ihFollow s cs r found off
      cases cs with
      | nil => exact (Option.some.inj found).symm
      | cons c rest =>
          simp only [off, Bool.false_eq_true, if_false] at found
          exact (Option.some.inj found).symm
  exact drives s e source r found off known

theorem drive_of_drain {r : Visit} (found : s.drain e source = some r) (off : s.active = false)
    (known : source.Known s) : s.drive e source = some r := by
  refine Session.drain.partial_correctness e
    (fun s source r => s.active = false → source.Known s → s.drive e source = some r) ?_
    s source r found off known
  intro drain ih s source r found off known
  obtain ⟨⟨answer, s₁⟩, pulled, found⟩ := Option.bind_eq_some_iff.mp found
  have answers := Answers.pull known pulled
  have fades := Fades.deeds answers.deeds
  rw [drive_eq, pulled]
  cases answer with
  | error f => exact found
  | ok item? =>
      cases item? with
      | none => exact found
      | some item =>
          obtain ⟨item, next⟩ := item
          show take e (.ok (some (item, next)), s₁) = some r
          unfold take
          simp only at found ⊢
          cases made : Emission.ofItem item with
          | error f =>
              simp only [made] at found ⊢
              exact Option.map_eq_bind.trans found
          | ok emission =>
              simp only [made] at found ⊢
              have recorded := Fades.record s₁ e.id emission
              have off := recorded.off (fades.off off)
              rw [Frame.finish, follow_inactive off]
              exact ih _ _ _ found off ((answers.known item next rfl).retains recorded.retains)

/-- Driving an element in a run that is not active is draining it. -/
theorem drive_eq_drain (off : s.active = false) (known : source.Known s) :
    s.drive e source = s.drain e source :=
  Option.ext fun _ => ⟨fun found => drain_of_drive found off known,
    fun found => drive_of_drain found off known⟩

theorem take_eq_keep {r : Pulled} (answers : s.Answers r) (off : s.active = false) :
    take e r = keep e r := by
  obtain ⟨answer, s₁⟩ := r
  have fades := Fades.deeds answers.deeds
  cases answer with
  | error f => rfl
  | ok item? =>
      cases item? with
      | none => rfl
      | some item =>
          obtain ⟨item, next⟩ := item
          unfold take keep
          simp only
          cases Emission.ofItem item with
          | error f => rfl
          | ok emission =>
              have recorded := Fades.record s₁ e.id emission
              have off := recorded.off (fades.off off)
              simp only
              rw [Frame.finish, follow_inactive off]
              exact drive_eq_drain off ((answers.known item next rfl).retains recorded.retains)

/-- An element that was drained leaves a run that knows what it knew before, and is not active. -/
theorem drain_fades {s' : Session} (found : s.drain e source = some (none, s')) (known : source.Known s) :
    s.Fades s' := by
  refine Session.drain.partial_correctness e (fun s source r => ∀ s', r = (none, s') → source.Known s →
    s.Fades s') ?_ s source _ found s' rfl known
  intro drain ih s source r found s' same known
  subst same
  obtain ⟨⟨answer, s₁⟩, pulled, found⟩ := Option.bind_eq_some_iff.mp found
  have answers := Answers.pull known pulled
  have fades := Fades.deeds answers.deeds
  cases answer with
  | error f => cases found
  | ok item? =>
      cases item? with
      | none =>
          cases found
          exact fades.trans (.completed s₁ e.id)
      | some item =>
          obtain ⟨item, next⟩ := item
          simp only at found
          cases made : Emission.ofItem item with
          | error f =>
              simp only [made] at found
              obtain ⟨s₂, _, other⟩ := Option.bind_eq_some_iff.mp found
              cases other
          | ok emission =>
              simp only [made] at found
              have recorded := Fades.record s₁ e.id emission
              exact fades.trans (recorded.trans (ih _ _ _ found s' rfl
                ((answers.known item next rfl).retains recorded.retains)))

theorem keep_fades {r : Pulled} {s' : Session} (answers : s.Answers r)
    (found : keep e r = some (none, s')) : s.Fades s' := by
  obtain ⟨answer, s₁⟩ := r
  have fades := Fades.deeds answers.deeds
  unfold keep at found
  cases answer with
  | error f => cases found
  | ok item? =>
      cases item? with
      | none =>
          cases found
          exact fades.trans (.completed s₁ e.id)
      | some item =>
          obtain ⟨item, next⟩ := item
          simp only at found
          cases made : Emission.ofItem item with
          | error f =>
              simp only [made] at found
              obtain ⟨s₂, _, other⟩ := Option.map_eq_some_iff.mp found
              cases other
          | ok emission =>
              simp only [made] at found
              have recorded := Fades.record s₁ e.id emission
              exact fades.trans (recorded.trans (drain_fades found
                ((answers.known item next rfl).retains recorded.retains)))

end Session

/-! ### Traversals -/

namespace Traversal

theorem finishAll_drains {s : Session} (off : s.active = false) (entries : List String) {stack : List Frame}
    (known : Traversal.Known ⟨entries, stack⟩ s) :
    Frame.finishAll entries stack s = Frame.drainAll stack s := by
  induction stack generalizing s with
  | nil =>
      show s.visitAll entries = some (none, s)
      cases entries with
      | nil => rfl
      | cons id rest =>
          rw [Session.visitAll, off]
          rfl
  | cons frame outer ih =>
      have here : frame.source.Known s := known frame List.mem_cons_self
      rw [Frame.finishAll, Frame.drainAll, Frame.finish, Session.follow_inactive off]
      show (s.drive frame.element frame.source).bind _ = _
      rw [Session.drive_eq_drain off here]
      refine Option.bind_congr fun r found => ?_
      obtain ⟨f?, s'⟩ := r
      cases f? with
      | some f => rfl
      | none =>
          have fades := Session.drain_fades found here
          exact ih (fades.off off) fun other member =>
            (known other (List.mem_cons_of_mem _ member)).retains fades.retains

/-- A traversal that goes on in a run that is not active drains the elements under way. -/
theorem goOn_drains {t : Traversal} {r : Visit}
    (inside : r.1 = none → r.2.active = false ∧ t.Known r.2) : t.goOn r = Frame.drainOn t.stack r := by
  obtain ⟨f?, s⟩ := r
  cases f? with
  | some f => rw [goOn, Frame.drainOn]
  | none =>
      obtain ⟨off, known⟩ := inside rfl
      rw [goOn, Frame.drainOn]
      exact finishAll_drains off t.entries known

end Traversal

namespace Stage

variable {st : Stage} {s : Session}

/-- What a traversal still comes to in a run that is not active is what draining comes to. -/
theorem explores_eq_drained (sound : st.Sound s) (off : s.active = false) :
    st.explores s = st.drained s := by
  have walks : ∀ {t : Traversal} {s : Session}, t.Known s → s.active = false →
      t.goOn (none, s) = Frame.drainAll t.stack s := by
    intro t s known off
    rw [Traversal.goOn_drains fun _ => ⟨off, known⟩, Frame.drainOn]
  cases st with
  | opening =>
      have fades := Session.Fades.deeds s.opening_deeds.1
      unfold explores drained Session.explore
      simp only
      cases opened : s.opening with
      | mk result s' =>
          rw [opened] at fades
          cases result with
          | error f => rfl
          | ok entries =>
              cases entries with
              | nil => rfl
              | cons id rest =>
                  simp only
                  rw [Session.visitAll, fades.off off]
                  rfl
  | walking t => exact walks sound.1 off
  | delaying t id =>
      have fades := Session.Fades.completed s id
      exact walks (Traversal.Known.retains sound.1 fades.retains) (fades.off off)
  | awaiting t a given? =>
      obtain ⟨known, here, frame, outer, stack, _⟩ := sound
      obtain ⟨entries, stack⟩ := t
      cases stack
      unfold explores drained
      simp only
      have takes : (a.pull s frame.element).bind (Session.take frame.element) =
          (a.pull s frame.element).bind (Session.keep frame.element) :=
        Option.bind_congr fun r found => Session.take_eq_keep (.attempt here found) off
      rw [takes]
      refine Option.bind_congr fun r found => Traversal.goOn_drains fun none => ?_
      obtain ⟨f?, s'⟩ := r
      cases none
      obtain ⟨p, pulled, kept⟩ := Option.bind_eq_some_iff.mp found
      have fades := Session.keep_fades (.attempt here pulled) kept
      exact ⟨fades.off off, fun other member =>
        (known other (List.mem_cons_of_mem _ member)).retains fades.retains⟩
  | _ => rfl

/-- Left to itself in a run that is not active, a traversal comes to its end with all elements under way
drained, unless the logic of one of them hands over items forever. -/
theorem UnderWay.drains {g : Graph} (h : UnderWay g (st, s)) (intact : st.Intact) (off : s.active = false) :
    (∃ how s' v, Leads (st, s) (.over how, s') ∧ how.visit? s' = some v ∧ st.drained s = some v) ∨
      ∃ (f : Nat → Stage × Session) (id : String), f 0 = (st, s) ∧
        (∀ n, (f n).1.next (f n).2 = some (f (n + 1))) ∧ ∀ n, ∃ m, n ≤ m ∧ (f m).1.Hands (f m).2 id := by
  rcases ends_or_endless (st, s) with ⟨how, s', leads⟩ | ⟨f, start, goes⟩
  · have stands := leads.explores intact
    have explored : st.explores s = how.visit? s' := stands.explores.symm
    have drained := (explores_eq_drained h.holds.sound.2 off).symm.trans explored
    cases how with
    | normal => exact .inl ⟨_, _, _, leads, rfl, drained⟩
    | failed f => exact .inl ⟨_, _, _, leads, rfl, drained⟩
    | cancelled => exact absurd rfl stands.intact
  · have onward : ∀ n, Onward (f n) (f (n + 1)) := fun n => ⟨_, goes n, .refl⟩
    obtain ⟨id, forever⟩ := UnderWay.endless (start ▸ h) onward
    exact .inr ⟨f, id, start, goes, forever⟩

end Stage

end BlockGraph
