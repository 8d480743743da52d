import BlockGraph.Proofs.Moves
import BlockGraph.Run.World
/-!
Stages: how far the traversal of a run has come, with the logic that it waits for. `Stage.next` is the
traversal left to itself; `Cut` is what else becomes of it when it is cancelled or loses patience. Both
come to the few cases of `Goes`, and those are all that statements about runs look at.
-/
namespace BlockGraph

namespace Attempt

/-- An attempt that is about to start. Logic that is waited for as a whole is collected. -/
def ofProcess (p : Process) : Attempt :=
  let collected? := match p.progress with
    | .fresh logic => if logic.form = .deferred then some [] else none
    | _ => none
  ⟨p, collected?, .fresh⟩

/-- An attempt after its logic has paused. -/
def paused (a : Attempt) (pause : Pause) (p : Process) : Attempt :=
  match pause, a.collected? with
  | .item v, some collected => ⟨p, some (v :: collected), .working⟩
  | .sleep length insists, collected? => ⟨p, collected?, .asleep (if insists then some length else none)⟩
  | .ended .normal, some collected => ⟨p, some collected, .over (.items collected.reverse)⟩
  | pause, collected? => ⟨p, collected?, .over (.pause pause)⟩

@[simp] theorem paused_process (a : Attempt) (pause : Pause) (p : Process) :
    (a.paused pause p).process = p := by
  unfold paused
  split <;> rfl

end Attempt

/-- How far a traversal has come. An attempt that was given up is marked, with whether it was for lack
of time. -/
inductive Stage where
  | opening
  | walking (t : Traversal)
  | awaiting (t : Traversal) (a : Attempt) (given? : Option Bool)
  | delaying (t : Traversal) (element : String)
  | unwinding (t : Traversal) (e : WalkEnd)
  | closing (t : Traversal) (p : Process) (insists? : Option Span) (e : WalkEnd)
  | over (e : WalkEnd)

namespace Stage

/-- The stage that a move leads to. -/
def settle (r : Move × Session) : Stage × Session :=
  match r with
  | (.go t, s) => (walking t, s)
  | (.wait p t, s) => (awaiting t (.ofProcess p) none, s)
  | (.delay id t, s) => (delaying t id, s)
  | (.finished, s) => (unwinding ⟨[], []⟩ .normal, s)
  | (.fail f t, s) => (unwinding t (.failed f), s.note (.failed f))

/-- The stage after the outcome of an attempt was taken. -/
def took (t : Traversal) (a : Attempt) (outOfTime : Bool) (y : Yield) (s : Session) : Stage × Session :=
  let t := t.withSource (World.sourceOf a)
  match y with
  | .items _ => (walking t, s)
  | .pause (.ended .interrupted) =>
    match outOfTime, t.stack with
    | true, frame :: _ =>
      let (f, s) := s.blockTimedOut frame.element
      settle (.fail f t, s)
    | _, _ => (unwinding t .cancelled, s)
  | .pause pause => settle (t.answer s pause (World.sourceOf a))

/-- The stage after an element that is being closed has paused. -/
def closed (t : Traversal) (e : WalkEnd) (r : Pause × Process × Session) : Stage × Session :=
  match r with
  | (.sleep length insists, p, s) => (closing t p (if insists then some length else none) e, s)
  | (.ended .interrupted, _, s) => (.over .cancelled, s)
  | (_, _, s) => (unwinding t e, s)

/-- The next stage of a traversal that is left to itself. -/
def next (st : Stage) (s : Session) : Option (Stage × Session) :=
  match st with
  | opening => match s.opening with
    | (.ok entries, s) => some (walking ⟨entries, []⟩, s)
    | (.error f, s) => some (.over (.failed f), s)
  | walking t => some (settle (t.step s))
  | awaiting t a given? => match a.mode with
    | .over y => some (took t a (given? == some true) y s)
    | _ =>
      let (pause, p, s) := a.process.resume s
      some (awaiting t (a.paused pause p) given?, s)
  | delaying t id => some (walking t, s.completed id)
  | unwinding t e => match t.stack with
    | [] => some (.over e, s)
    | frame :: outer =>
      let t := { t with stack := outer }
      match frame.source with
      | .stream p | .sequence p => some (closed t e (p.close s))
      | _ => some (unwinding t e, s)
  | closing t p _ e => some (closed t e (p.resume s))
  | .over _ => none

/-- The traversal of a stage. -/
def traversal : Stage → Traversal
  | walking t | awaiting t _ _ | delaying t _ | unwinding t _ | closing t _ _ _ => t
  | opening | .over _ => ⟨[], []⟩

/-- How a traversal is about to end, once it is being torn down. -/
def ending? : Stage → Option WalkEnd
  | unwinding _ e | closing _ _ _ e | .over e => some e
  | _ => none

/-- Whether all logic of a stage is known, and logic is waited for only when nothing is left to fire. -/
def Sound (st : Stage) (s : Session) : Prop :=
  st.traversal.Known s ∧ match st with
  | awaiting t a _ => a.process.Known s ∧
    ∃ frame outer, t.stack = frame :: outer ∧ frame.pending = []
  | closing _ p _ _ => p.Known s
  | _ => True

end Stage

/-- What becomes of a traversal that is cancelled, or whose block has had its time. -/
inductive Cut : Stage → Session → Stage → Session → Prop
  | giveUp (t : Traversal) (a : Attempt) (s : Session) (outOfTime : Bool) :
      Cut (.awaiting t a none) s (.awaiting t a (some outOfTime)) s
  /-- Logic that had not begun to work is dropped. -/
  | drop (t : Traversal) (a : Attempt) (given? : Option Bool) (s : Session) :
      Cut (.awaiting t a given?) s
        (.awaiting t { a with mode := .over (.pause (.ended .interrupted)) } given?) s
  /-- Logic insists on its sleep. -/
  | insist (t : Traversal) (a : Attempt) (given? : Option Bool) (s : Session) :
      Cut (.awaiting t a given?) s (.awaiting t { a with mode := .asleep none } given?) s
  | interrupt (t : Traversal) (a : Attempt) (given? : Option Bool) (s : Session) :
      Cut (.awaiting t a given?) s
        (.awaiting t (a.paused (a.process.interrupt s).1 (a.process.interrupt s).2.1) given?)
        (a.process.interrupt s).2.2
  /-- An attempt that was given up is no longer waited for. -/
  | leave (t : Traversal) (a : Attempt) (given? : Option Bool) (s : Session) :
      Cut (.awaiting t a given?) s (.unwinding (t.withSource (World.sourceOf a)) .cancelled) s
  | cancel (st : Stage) (s : Session) : Cut st s (.unwinding st.traversal .cancelled) s
  | refuse (s : Session) : Cut .opening s (.over .cancelled) s
  | insistClosing (t : Traversal) (p : Process) (length : Span) (e : WalkEnd) (s : Session) :
      Cut (.closing t p (some length) e) s (.closing t p none e) s
  | interruptClosing (t : Traversal) (p : Process) (e : WalkEnd) (s : Session) :
      Cut (.closing t p none e) s (Stage.closed t e (p.interrupt s)).1
        (Stage.closed t e (p.interrupt s)).2

namespace Graph

/-- The elements from which a run visits others: the entry points, or the first element of a graph that
has none. -/
def roots (g : Graph) : List String :=
  match g.entryPoints with
  | [] => (g.elements.head?.map (·.id)).toList
  | entries => entries

end Graph

/-- What can happen to a traversal, told by what it changes of the run. -/
inductive Goes (s : Session) : Stage → Stage → Session → Prop
  | opened {s' : Session} : Deeds s s' → Goes s .opening (.walking ⟨s.graph.roots, []⟩) s'
  | barred (e : WalkEnd) {s' : Session} : Deeds s s' → e ≠ .normal →
      (∀ steps limit, e ≠ .failed (.budget steps limit)) → Goes s .opening (.over e) s'
  | moved {t : Traversal} {m : Move} {s' : Session} : t.Moved s m s' →
      Goes s (.walking t) (Stage.settle (m, s')).1 (Stage.settle (m, s')).2
  | answered {t : Traversal} {a : Attempt} {given? : Option Bool} {m : Move} {s' : Session} :
      t.Moved s m s' →
      Goes s (.awaiting t a given?) (Stage.settle (m, s')).1 (Stage.settle (m, s')).2
  | worked {t : Traversal} {a a' : Attempt} {given? given'? : Option Bool} {s' : Session} :
      Deeds s s' → a'.process.Known s' →
      Goes s (.awaiting t a given?) (.awaiting t a' given'?) s'
  | delayed {t : Traversal} {id : String} {s₁ s' : Session} : Deeds s s₁ →
      Deeds (s₁.completing id) s' → Goes s (.delaying t id) (.walking t) s'
  | torn {st st' : Stage} {e : WalkEnd} {s' : Session} : st.ending? = some e → Deeds s s' →
      st'.ending? = some e ∨ st'.ending? = some .cancelled → st'.Sound s' → Goes s st st' s'
  | cancelled {st : Stage} {t : Traversal} : t.Known s → Goes s st (.unwinding t .cancelled) s

/-! ### Every stage goes on in one of these ways -/

namespace Session

theorem graph_deeds {s s' : Session} (h : Deeds s s') : s'.graph = s.graph := by
  refine Deeds.induct (P := fun s' => s'.graph = s.graph) (fun d same => ?_) h rfl
  rw [← same]
  cases d <;> rfl

theorem checkElement_faults {s : Session} {e : Element} {f : RunFault} (h : s.checkElement e = .error f)
    (steps limit : Int) : f ≠ .budget steps limit := by
  unfold checkElement at h
  split at h
  · cases h
    exact nofun
  · split at h
    · cases h
      exact nofun
    · split at h
      · split at h <;> (cases h; exact nofun)
      · cases h

/-- The gate never finds a run over its budget. -/
theorem checkAll_faults {s : Session} {f : RunFault} (h : s.checkAll = .error f) (steps limit : Int) :
    f ≠ .budget steps limit := by
  have all : ∀ es : List Element, es.forM s.checkElement = .error f → f ≠ .budget steps limit := by
    intro es
    induction es with
    | nil => exact nofun
    | cons e rest ih =>
        intro failed
        have failed : ((s.checkElement e).bind fun _ => rest.forM s.checkElement) = .error f := failed
        cases checked : s.checkElement e with
        | error g =>
            rw [checked] at failed
            cases failed
            exact checkElement_faults checked steps limit
        | ok _ =>
            rw [checked] at failed
            exact ih failed
  exact all _ h

/-- A run opens with lines of its log, and then starts at the roots of its graph. -/
theorem opening_deeds (s : Session) :
    Deeds s s.opening.2 ∧ (∀ entries, s.opening.1 = .ok entries → entries = s.graph.roots) ∧
      ∀ f steps limit, s.opening.1 = .error f → f ≠ .budget steps limit := by
  have diagnosed : Deeds s (if s.options.detectCycles then s.diagnose else s) := by
    split
    · exact s.diagnose_deeds
    · exact .refl
  have same := graph_deeds diagnosed
  have none : ∀ {entries : List String} (f : RunFault) (steps limit : Int),
      (.ok entries : Except RunFault (List String)) = .error f → f ≠ .budget steps limit := by
    intro entries f steps limit same
    cases same
  unfold opening
  simp only
  generalize (if s.options.detectCycles then s.diagnose else s) = s₁ at diagnosed same
  split
  · rename_i f barred
    refine ⟨diagnosed, fun entries same => ?_, fun g steps limit same => ?_⟩
    · cases same
    · cases same
      exact checkAll_faults barred steps limit
  · split
    · rename_i empty
      refine ⟨diagnosed.trans (s₁.say_deeds _), fun entries found => ?_, none⟩
      cases found
      simp only [Graph.roots, Graph.entryPoints, ← same, empty]
      rfl
    · rename_i first rest elements
      cases entryPoints : s₁.graph.entryPoints with
      | nil =>
          have fell := say_deeds s₁ ("No entry points found - falling back to element " ++ first.id)
          refine ⟨diagnosed.trans (fell.trans (say_deeds _ _)), fun entries found => ?_, none⟩
          cases found
          rw [Graph.roots, ← same, entryPoints, elements]
          rfl
      | cons id ids =>
          refine ⟨diagnosed.trans (s₁.say_deeds _), fun entries found => ?_, none⟩
          cases found
          rw [Graph.roots, ← same, entryPoints]

end Session

namespace Source

theorem Known.retains {source : Source} {s s' : Session} (known : source.Known s)
    (h : s.Retains s') : source.Known s' := fun p drawn => h.knows (known p drawn)

end Source

namespace Traversal

theorem Known.retains {t : Traversal} {s s' : Session} (known : t.Known s) (h : s.Retains s') :
    t.Known s' := fun frame member => (known frame member).retains h

theorem Known.withSource {t : Traversal} {s : Session} {source : Source} (known : t.Known s)
    (drawn : source.Known s) : (t.withSource source).Known s := by
  unfold Traversal.withSource
  split
  · exact known
  · rename_i frame outer stack
    intro other member
    rcases List.mem_cons.mp member with rfl | rest
    · exact drawn
    · exact known other (stack ▸ List.mem_cons_of_mem _ rest)

theorem withSource_withSource (t : Traversal) (a b : Source) :
    (t.withSource a).withSource b = t.withSource b := by
  obtain ⟨entries, stack⟩ := t
  cases stack <;> rfl

/-- What an answer comes to does not hang on the source that was there. -/
theorem answer_withSource (t : Traversal) (s : Session) (pause : Pause) (a b : Source) :
    (t.withSource a).answer s pause b = t.answer s pause b := by
  unfold answer
  rw [withSource_withSource]

end Traversal

theorem sourceOf_known {a : Attempt} {s : Session} (known : a.process.Known s) :
    (World.sourceOf a).Known s := by
  unfold World.sourceOf
  split
  · exact .of_none rfl s
  · intro p drawn
    cases drawn
    exact known

theorem Stage.over_sound (e : WalkEnd) (s : Session) : (Stage.over e).Sound s :=
  ⟨fun _ member => (List.not_mem_nil member).elim, trivial⟩

theorem closed_goes {s : Session} {st : Stage} {t : Traversal} {e : WalkEnd}
    (r : Pause × Process × Session) (ending : st.ending? = some e) (h : Deeds s r.2.2)
    (known : t.Known r.2.2) (here : r.2.1.Known r.2.2) :
    Goes s st (Stage.closed t e r).1 (Stage.closed t e r).2 := by
  obtain ⟨pause, p, s'⟩ := r
  have unwinding : (Stage.unwinding t e).Sound s' := ⟨known, trivial⟩
  cases pause with
  | item v => exact .torn ending h (.inl rfl) unwinding
  | sleep length insists =>
      have sound : (Stage.closing t p (if insists then some length else none) e).Sound s' := ⟨known, here⟩
      exact .torn ending h (.inl rfl) sound
  | ended how =>
      cases how with
      | interrupted => exact .torn ending h (.inr rfl) (Stage.over_sound .cancelled s')
      | _ => exact .torn ending h (.inl rfl) unwinding

/-- An element under way is closed. -/
theorem close_goes {s s' : Session} {st' : Stage} {entries : List String} {frame : Frame}
    {outer : List Frame} {e : WalkEnd} {p : Process} (known : (⟨entries, outer⟩ : Traversal).Known s)
    (here : p.Known s) (h : Stage.closed ⟨entries, outer⟩ e (p.close s) = (st', s')) :
    Goes s (.unwinding ⟨entries, frame :: outer⟩ e) st' s' := by
  have shut := p.close_deeds here
  have context := p.close_context s
  have ending : (Stage.unwinding ⟨entries, frame :: outer⟩ e).ending? = some e := rfl
  have goes := closed_goes (p.close s) ending shut (known.retains shut.retains)
    ((here.of_context context).deeds shut)
  rw [h] at goes
  exact goes

theorem took_goes {t : Traversal} {a : Attempt} {given? : Option Bool} {s : Session}
    (sound : (Stage.awaiting t a given?).Sound s) (outOfTime : Bool) (y : Yield) :
    Goes s (.awaiting t a given?) (Stage.took t a outOfTime y s).1 (Stage.took t a outOfTime y s).2 := by
  obtain ⟨known, here, frame, outer, stack, rest⟩ := sound
  have drawn := sourceOf_known here
  unfold Stage.took
  simp only
  split
  · have moved := Traversal.Moved.went frame outer _ stack rest .refl drawn
    rw [Traversal.withSource_stack stack]
    exact .answered moved
  · split
    · rename_i innermost _ _
      have moved := Traversal.failed_moved (f := (s.blockTimedOut innermost.element).1) .refl
        (Traversal.blockTimedOut_deeds s innermost.element) (fun _ _ => nofun)
        (Traversal.withSource_known stack drawn)
      exact .answered moved
    · exact .cancelled (known.withSource drawn)
  · rw [Traversal.answer_withSource]
    have moved := Traversal.answer_moved stack rest .refl drawn
    exact .answered (moved _)

theorem Stage.next_goes {st st' : Stage} {s s' : Session} (stored : 0 < s.stores.size)
    (sound : st.Sound s) (h : st.next s = some (st', s')) : Goes s st st' s' := by
  cases st with
  | opening =>
      obtain ⟨deeds, roots, faults⟩ := s.opening_deeds
      cases opened : s.opening with
      | mk r s₁ =>
          rw [opened] at deeds roots faults
          cases r with
          | ok entries =>
              simp only [next, opened, Option.some.injEq, Prod.mk.injEq] at h
              obtain ⟨rfl, rfl⟩ := h
              rw [roots entries rfl]
              exact .opened deeds
          | error f =>
              simp only [next, opened, Option.some.injEq, Prod.mk.injEq] at h
              obtain ⟨rfl, rfl⟩ := h
              refine .barred _ deeds nofun fun steps limit same => ?_
              cases same
              exact faults _ steps limit rfl rfl
  | walking t =>
      have goes : Goes s (.walking t) (settle (t.step s)).1 (settle (t.step s)).2 :=
        .moved (Traversal.step_moved stored sound.1)
      simp only [next, Option.some.injEq] at h
      rw [h] at goes
      exact goes
  | awaiting t a given? =>
      simp only [next] at h
      split at h
      · rename_i y _
        have goes := took_goes sound (given? == some true) y
        rw [Option.some.inj h] at goes
        exact goes
      · have resumed := a.process.resume_deeds sound.2.1
        have context := a.process.resume_context s
        simp only [Option.some.injEq, Prod.mk.injEq] at h
        obtain ⟨rfl, rfl⟩ := h
        refine .worked resumed ?_
        rw [Attempt.paused_process]
        exact (sound.2.1.of_context context).deeds resumed
  | delaying t id =>
      simp only [next, Option.some.injEq, Prod.mk.injEq] at h
      obtain ⟨rfl, rfl⟩ := h
      exact .delayed (s.say_deeds _) (Session.notify_deeds _ _)
  | unwinding t e =>
      obtain ⟨entries, stack⟩ := t
      cases stack with
      | nil =>
          simp only [next, Option.some.injEq, Prod.mk.injEq] at h
          obtain ⟨rfl, rfl⟩ := h
          exact .torn rfl .refl (.inl rfl) (over_sound e s)
      | cons frame outer =>
          have outside : (⟨entries, outer⟩ : Traversal).Known s := fun other member =>
            sound.1 other (List.mem_cons_of_mem _ member)
          have inside : frame.source.Known s := sound.1 frame List.mem_cons_self
          simp only [next] at h
          split at h <;> rename_i drawn
          · rename_i p
            exact close_goes outside (inside p (by rw [drawn]; rfl)) (Option.some.inj h)
          · rename_i p
            exact close_goes outside (inside p (by rw [drawn]; rfl)) (Option.some.inj h)
          · simp only [Option.some.injEq, Prod.mk.injEq] at h
            obtain ⟨rfl, rfl⟩ := h
            exact .torn rfl .refl (.inl rfl) ⟨outside, trivial⟩
  | closing t p insists? e =>
      have here : p.Known s := sound.2
      have resumed := p.resume_deeds here
      have context := p.resume_context s
      have known : t.Known (p.resume s).2.2 := Traversal.Known.retains sound.1 resumed.retains
      have ending : (Stage.closing t p insists? e).ending? = some e := rfl
      have goes := closed_goes (p.resume s) ending resumed known
        ((here.of_context context).deeds resumed)
      simp only [next, Option.some.injEq] at h
      rw [h] at goes
      exact goes
  | «over» e => cases h

theorem Cut.goes {st st' : Stage} {s s' : Session} (sound : st.Sound s) (h : Cut st s st' s') :
    Goes s st st' s' := by
  cases h with
  | giveUp t a outOfTime => exact .worked .refl sound.2.1
  | drop t a given? => exact .worked .refl sound.2.1
  | insist t a given? => exact .worked .refl sound.2.1
  | interrupt t a given? =>
      have interrupted := a.process.interrupt_deeds sound.2.1
      have context := a.process.interrupt_context s
      refine .worked interrupted ?_
      rw [Attempt.paused_process]
      exact (sound.2.1.of_context context).deeds interrupted
  | leave t a given? => exact .cancelled (sound.1.withSource (sourceOf_known sound.2.1))
  | cancel => exact .cancelled sound.1
  | refuse => exact .barred _ .refl nofun fun _ _ => nofun
  | insistClosing t p length e => exact .torn rfl .refl (.inl rfl) sound
  | interruptClosing t p e =>
      have here : p.Known s := sound.2
      have interrupted := p.interrupt_deeds here
      have context := p.interrupt_context s
      have ending : (Stage.closing t p none e).ending? = some e := rfl
      exact closed_goes (p.interrupt s) ending interrupted
        (Traversal.Known.retains sound.1 interrupted.retains)
        ((here.of_context context).deeds interrupted)

/-! ### Soundness goes on -/

namespace Session

theorem note_retains (s : Session) (h : Happening) : s.Retains (s.note h) :=
  ⟨Nat.le_refl _, fun known => known⟩

theorem counted_retains (s : Session) : s.Retains s.counted := ⟨Nat.le_refl _, fun known => known⟩

theorem hears_retains (s : Session) (e : Event) : s.Retains (s.hears e) := by
  unfold hears
  split <;> exact ⟨Nat.le_refl _, fun known => known⟩

theorem withSlots_retains (s : Session) (run : Nat) (slots : Slots) :
    s.Retains (s.withSlots run slots) := by
  refine ⟨Nat.le_of_eq (s.withSlots_size run slots).symm, fun known => ?_⟩
  simpa only [Knows, withSlots_size, withSlots_processed] using known

theorem traversing_retains (s : Session) (c : Connection) : s.Retains (s.traversing c) :=
  (s.note_retains _).trans (hears_retains _ _)

theorem completing_retains (s : Session) (id : String) : s.Retains (s.completing id) :=
  (s.note_retains _).trans (hears_retains _ _)

theorem record_retains (s : Session) (id : String) (e : Emission) : s.Retains (s.record id e) :=
  (s.withSlots_retains _ _).trans (note_retains _ _)

end Session

theorem fail_sound {t : Traversal} {s s' : Session} (f : RunFault) (h : s.Retains s')
    (known : t.Known s') :
    (Stage.settle (.fail f t, s')).1.Sound (Stage.settle (.fail f t, s')).2 ∧
      s.Retains (Stage.settle (.fail f t, s')).2 :=
  ⟨⟨known, trivial⟩, h.trans (s'.note_retains _)⟩

theorem Traversal.Visited.sound {t : Traversal} {s s' : Session} {id : String} {m : Move}
    (h : t.Visited s id m s') (known : t.Known s) :
    (Stage.settle (m, s')).1.Sound (Stage.settle (m, s')).2 ∧
      s.Retains (Stage.settle (m, s')).2 := by
  cases h with
  | skipped _ _ => exact ⟨⟨known, trivial⟩, s.counted_retains⟩
  | overBudget _ _ => exact fail_sound _ s.counted_retains known
  | unknown type _ _ => exact fail_sound _ s.counted_retains known
  | failed f _ kept =>
      have retains := (Session.starting_retains id).trans kept.retains
      exact fail_sound _ retains (known.retains retains)
  | started frame _ kept _ _ drawn =>
      have retains := (Session.starting_retains id).trans kept.retains
      refine ⟨⟨fun other member => ?_, trivial⟩, retains⟩
      rcases List.mem_cons.mp member with rfl | rest
      · exact drawn
      · exact (known other rest).retains retains

/-- A frame is put in the place of the innermost one. -/
theorem Traversal.Known.replace {t : Traversal} {s s' : Session} {frame frame' : Frame}
    {outer : List Frame} (known : t.Known s) (stack : t.stack = frame :: outer) (h : s.Retains s')
    (drawn : frame'.source.Known s') : Traversal.Known { t with stack := frame' :: outer } s' := by
  intro other member
  rcases List.mem_cons.mp member with rfl | rest
  · exact drawn
  · exact (known other (stack ▸ List.mem_cons_of_mem _ rest)).retains h

theorem Traversal.Known.drop {t : Traversal} {s s' : Session} {frame : Frame} {outer : List Frame}
    (known : t.Known s) (stack : t.stack = frame :: outer) (h : s.Retains s') :
    Traversal.Known { t with stack := outer } s' := fun other member =>
  (known other (stack ▸ List.mem_cons_of_mem _ member)).retains h

theorem Traversal.Moved.sound {t : Traversal} {s s' : Session} {m : Move} (h : t.Moved s m s')
    (known : t.Known s) :
    (Stage.settle (m, s')).1.Sound (Stage.settle (m, s')).2 ∧
      s.Retains (Stage.settle (m, s')).2 := by
  have still : s.Retains s := Relation.ReflTransGen.refl |> Deeds.retains
  cases h with
  | finished _ _ => exact ⟨⟨fun _ member => (List.not_mem_nil member).elim, trivial⟩, still⟩
  | entered id rest stack _ _ visited =>
      have noted : s.Retains (s.note (.entered id)) := s.note_retains _
      have below : Traversal.Known { t with entries := rest } (s.note (.entered id)) :=
        Traversal.Known.retains known noted
      exact (visited.sound below).imp_right noted.trans
  | traversed frame outer c rest stack _ _ kept visited =>
      have told := (s.traversing_retains c).trans kept.retains
      have inside := (known frame (stack ▸ List.mem_cons_self)).retains told
      exact (visited.sound (known.replace stack told inside)).imp_right told.trans
  | cleared frame outer stack _ =>
      exact ⟨⟨known.replace stack still (known frame (stack ▸ List.mem_cons_self)), trivial⟩, still⟩
  | waited frame outer p stack rest drawn =>
      have inside := known frame (stack ▸ List.mem_cons_self)
      exact ⟨⟨known.replace stack still (.of_none rfl _), inside p drawn, _, _, rfl, rest⟩, still⟩
  | went frame outer source stack _ deeds drawn =>
      exact ⟨⟨known.replace stack deeds.retains drawn, trivial⟩, deeds.retains⟩
  | @recorded frame outer source e s₁ stack _ deeds drawn =>
      have recorded := s₁.record_retains frame.element.id e
      have retains := deeds.retains.trans recorded
      exact ⟨⟨known.replace stack retains (drawn.retains recorded), trivial⟩, retains⟩
  | ended frame outer stack _ before after =>
      have retains := (before.retains.trans (Session.completing_retains _ _)).trans after.retains
      exact ⟨⟨known.drop stack retains, trivial⟩, retains⟩
  | delayed frame outer stack _ deeds _ =>
      exact ⟨⟨known.drop stack deeds.retains, trivial⟩, deeds.retains⟩
  | failed f t' deeds _ inside =>
      refine fail_sound _ deeds.retains fun frame member => ?_
      rcases inside frame member with old | drawn
      · exact (known frame old).retains deeds.retains
      · exact drawn

/-- Soundness lasts, and nothing that was known is forgotten. -/
theorem Goes.sound {st st' : Stage} {s s' : Session} (h : Goes s st st' s') (sound : st.Sound s) :
    st'.Sound s' ∧ s.Retains s' := by
  cases h with
  | opened deeds =>
      exact ⟨⟨fun _ member => (List.not_mem_nil member).elim, trivial⟩, deeds.retains⟩
  | barred e deeds _ _ => exact ⟨Stage.over_sound e _, deeds.retains⟩
  | moved h => exact h.sound sound.1
  | answered h => exact h.sound sound.1
  | worked deeds drawn =>
      exact ⟨⟨Traversal.Known.retains sound.1 deeds.retains, drawn, sound.2.2⟩, deeds.retains⟩
  | delayed before after =>
      have retains := (before.retains.trans (Session.completing_retains _ _)).trans after.retains
      exact ⟨⟨Traversal.Known.retains sound.1 retains, trivial⟩, retains⟩
  | torn _ deeds _ sound' => exact ⟨sound', deeds.retains⟩
  | cancelled known => exact ⟨⟨known, trivial⟩, ⟨Nat.le_refl _, fun known => known⟩⟩

end BlockGraph
