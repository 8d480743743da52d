import BlockGraph.Proofs.Stage
/-!
The gate of a run: which elements it lets through, and why it bars the others. Elements are asked about in
order and the first that is barred decides. Behind the gate nothing is found invalid as long as the types
of the graph are known.
-/
namespace BlockGraph

/-- Whether nothing keeps an element from running: its type is known, and what is said about its properties
does not count as a complaint. -/
def Registry.Admits (r : Registry) (e : Element) : Prop :=
  ∃ d answer, r.find? e.type = some d ∧ d.check e.props = .ok answer ∧ answer.isTrue = false

/-- Why an element may not run. -/
inductive Registry.Bars (r : Registry) (e : Element) : RunFault → Prop
  | unknown : r.find? e.type = none → Bars r e (.unknownType e.id e.type)
  | raised {d : BlockDefinition} {f : Fault} : r.find? e.type = some d → d.check e.props = .error f →
      Bars r e (.rejected e.id e.type f.message (some f))
  | complained {d : BlockDefinition} {answer : Value} {complaint : String} : r.find? e.type = some d →
      d.check e.props = .ok answer → answer.isTrue = true → answer.plainText = .ok complaint →
      Bars r e (.rejected e.id e.type complaint none)
  /-- There is a complaint, but it has no text. -/
  | wordless {d : BlockDefinition} {answer : Value} {f : Fault} : r.find? e.type = some d →
      d.check e.props = .ok answer → answer.isTrue = true → answer.plainText = .error f →
      Bars r e (.value f)

/-- Why a graph may not run: what bars the first of its elements that is barred. -/
def Graph.Barred (g : Graph) (r : Registry) (f : RunFault) : Prop :=
  ∃ before e after, g.elements = before ++ e :: after ∧ (∀ x ∈ before, r.Admits x) ∧ r.Bars e f

/-- Whether a failure says that a graph is not valid. -/
inductive RunFault.Invalidates : RunFault → Prop
  | unknownType (element type : String) : Invalidates (.unknownType element type)
  | rejected (element type complaint : String) (cause? : Option Fault) :
      Invalidates (.rejected element type complaint cause?)
  | typeGone (element type : String) : Invalidates (.typeGone element type)

/-! ### Asking about every element -/

section Check

variable {β ε : Type} {check : β → Except ε Unit}

theorem forM_ok {xs : List β} : xs.forM check = .ok () ↔ ∀ x ∈ xs, check x = .ok () := by
  induction xs with
  | nil => exact ⟨fun _ _ member => (List.not_mem_nil member).elim, fun _ => rfl⟩
  | cons x rest ih =>
      rw [List.forM, List.forall_mem_cons, ← ih]
      cases check x with
      | error f => exact ⟨nofun, fun h => nomatch h.1⟩
      | ok _ => exact ⟨fun h => ⟨rfl, h⟩, fun h => h.2⟩

/-- The first refusal decides. -/
theorem forM_error {xs : List β} {f : ε} : xs.forM check = .error f ↔
    ∃ before x after, xs = before ++ x :: after ∧ (∀ y ∈ before, check y = .ok ()) ∧ check x = .error f := by
  induction xs with
  | nil => exact ⟨nofun, fun ⟨before, _, _, same, _⟩ => by cases before <;> cases same⟩
  | cons x rest ih =>
      rw [List.forM]
      constructor
      · intro refused
        cases asked : check x with
        | error g =>
            rw [asked] at refused
            exact ⟨[], x, rest, rfl, nofun, asked.trans refused⟩
        | ok _ =>
            rw [asked] at refused
            obtain ⟨before, y, after, rfl, passed, refused⟩ := ih.mp refused
            exact ⟨x :: before, y, after, rfl, List.forall_mem_cons.mpr ⟨asked, passed⟩, refused⟩
      · rintro ⟨before, y, after, same, passed, refused⟩
        cases before with
        | nil =>
            cases same
            rw [refused]
            rfl
        | cons z before =>
            cases same
            obtain ⟨asked, passed⟩ := List.forall_mem_cons.mp passed
            rw [asked]
            exact ih.mpr ⟨before, y, after, rfl, passed, refused⟩

end Check

namespace Session

variable {s : Session} {e : Element} {f : RunFault}

theorem checkElement_ok : s.checkElement e = .ok () ↔ s.registry.Admits e := by
  unfold checkElement Registry.Admits
  cases found : s.registry.find? e.type with
  | none => simp
  | some d =>
      cases asked : d.check e.props with
      | error f => simp [asked]
      | ok answer =>
          cases complains : answer.isTrue with
          | false => simp [asked, complains]
          | true => cases worded : answer.plainText <;> simp [asked, complains, worded]

theorem checkElement_error : s.checkElement e = .error f ↔ s.registry.Bars e f := by
  constructor
  · intro refused
    unfold checkElement at refused
    split at refused
    · cases refused
      exact .unknown ‹_›
    · split at refused
      · cases refused
        exact .raised ‹_› ‹_›
      · split at refused
        · split at refused <;> cases refused
          · exact .complained ‹_› ‹_› ‹_› ‹_›
          · exact .wordless ‹_› ‹_› ‹_› ‹_›
        · cases refused
  · intro bars
    unfold checkElement
    cases bars with
    | unknown found => simp only [found]
    | raised found asked => simp only [found, asked]
    | complained found asked complains worded => simp only [found, asked, complains, if_true, worded]
    | wordless found asked complains worded => simp only [found, asked, complains, if_true, worded]

theorem checkAll_ok : s.checkAll = .ok () ↔ ∀ e ∈ s.graph.elements, s.registry.Admits e := by
  unfold checkAll
  simp only [forM_ok, checkElement_ok]

theorem checkAll_error : s.checkAll = .error f ↔ s.graph.Barred s.registry f := by
  unfold checkAll Graph.Barred
  simp only [forM_error, checkElement_ok, checkElement_error]

/-! ### Telling leaves the registry alone -/

theorem react_registry {stop : Session → Session} (stops : ∀ s, (stop s).registry = s.registry)
    (e : Event) (reactions : List Reaction) (s : Session) :
    (react stop e s reactions).registry = s.registry := by
  induction reactions generalizing s with
  | nil => rfl
  | cons r rest ih =>
      cases r with
      | stop => exact (ih _).trans (stops s)
      | reset =>
          rw [react]
          cases h : s.reset? with
          | none => rfl
          | some s' =>
              simp only [reset?] at h
              split at h
              · cases h
              · cases h
                exact ih _
      | «raise» f => rfl

theorem tell_registry (depth : Nat) (s : Session) (options : Options) (listener : Listener) (e : Event) :
    (tell depth s options listener e).registry = s.registry := by
  induction depth generalizing s options listener e with
  | zero => rfl
  | succ depth ih =>
      have stops : ∀ s : Session, (stopBy (tell depth) s).registry = s.registry := by
        intro s
        unfold stopBy
        split
        · exact ih _ _ _ _
        · rfl
      rw [tell]
      split
      · exact react_registry stops e _ _
      · rfl

theorem say_registry (s : Session) (line : String) : (s.say line).registry = s.registry :=
  tell_registry _ _ _ _ _

theorem diagnose_registry (s : Session) : s.diagnose.registry = s.registry :=
  diagnose_induct (fun s line _ same => (s.say_registry line).trans same) rfl

/-- What a run opens with: the gate is passed exactly when every element is admitted, and otherwise the
graph is barred by its first one that is not. -/
theorem opening_gate (s : Session) :
    ((∃ entries, s.opening.1 = .ok entries) ↔ ∀ e ∈ s.graph.elements, s.registry.Admits e) ∧
      ∀ f, s.opening.1 = .error f ↔ s.graph.Barred s.registry f := by
  have graph : (if s.options.detectCycles then s.diagnose else s).graph = s.graph := by
    split
    · exact graph_deeds s.diagnose_deeds
    · rfl
  have registry : (if s.options.detectCycles then s.diagnose else s).registry = s.registry := by
    split
    · exact s.diagnose_registry
    · rfl
  rw [← graph, ← registry]
  unfold opening
  simp only
  generalize (if s.options.detectCycles then s.diagnose else s) = s₁
  cases passed : s₁.checkAll with
  | error f =>
      refine ⟨⟨nofun, fun admits => ?_⟩, fun g => ?_⟩
      · rw [checkAll_ok.mpr admits] at passed
        cases passed
      · rw [← checkAll_error, passed]
        simp only [Except.error.injEq]
  | ok _ =>
      refine ⟨⟨fun _ => checkAll_ok.mp passed, fun _ => ?_⟩, fun g => ⟨fun opened => ?_, fun barred => ?_⟩⟩
      · simp only
        split
        · exact ⟨_, rfl⟩
        · exact ⟨_, rfl⟩
      · simp only at opened
        split at opened <;> cases opened
      · rw [checkAll_error.mpr barred] at passed
        cases passed

end Session

/-- Whether a move does not find the graph invalid. -/
def Move.Valid (m : Move) : Prop := ∀ f t, m = .fail f t → ¬f.Invalidates

theorem Move.Valid.of_ne {m : Move} (other : ∀ f t, m ≠ .fail f t) : m.Valid :=
  fun f t same => absurd same (other f t)

namespace Traversal

variable {t : Traversal} {s : Session}

/-- What a visit fails with before the logic of its element goes on. -/
theorem begin_fault (id : String) {f : RunFault} (failed : (begin s id).1 = .error f) :
    (∃ steps limit, f = .budget steps limit) ∨
      (∃ e ∈ s.graph.elements, s.registry.has e.type = false ∧ f = .typeGone id e.type) ∨
      ∃ g, f = .value g := by
  unfold begin start at failed
  simp only at failed
  split at failed
  · cases failed
  · split at failed
    · cases failed
      exact .inl ⟨_, _, rfl⟩
    · split at failed
      · cases failed
      · split at failed
        · cases failed
        · rename_i e found
          split at failed
          · rename_i gone
            cases failed
            have unknown : s.registry.find? e.type = none := gone
            refine .inr (.inl ⟨e, List.mem_of_find?_eq_some found, ?_, rfl⟩)
            rw [Registry.has, unknown]
            rfl
          · split at failed <;> cases failed
            exact .inr (.inr ⟨_, rfl⟩)

theorem begin_valid (known : ∀ e ∈ s.graph.elements, s.registry.has e.type = true) (id : String)
    {f : RunFault} (failed : (begin s id).1 = .error f) : ¬f.Invalidates := by
  rcases begin_fault id failed with ⟨_, _, rfl⟩ | ⟨e, member, unknown, _⟩ | ⟨_, rfl⟩
  · exact nofun
  · cases unknown.symm.trans (known e member)
  · exact nofun

theorem visit_valid (known : ∀ e ∈ s.graph.elements, s.registry.has e.type = true) (id : String) :
    (t.visit s id).1.Valid := by
  intro f t' failed
  have begun := fun {f} => begin_valid known id (f := f)
  unfold visit at failed
  split at failed <;> rename_i same <;> rw [same] at begun <;> cases failed
  exact begun rfl

theorem complete_valid (id : String) : (t.complete s id).1.Valid := by
  intro f t' failed
  unfold complete at failed
  split at failed <;> cases failed

theorem accept_valid (item : Value) : (t.accept s item).1.Valid := by
  intro f t' failed
  unfold accept at failed
  split at failed
  · cases failed
  · split at failed
    · cases failed
      exact nofun
    · cases failed

theorem endWith_valid (e : Ending) : (t.endWith s e).1.Valid := by
  intro f t' failed
  unfold endWith at failed
  split at failed
  · cases failed
  · split at failed
    · simp only at failed
      split at failed <;> cases failed <;> exact nofun
    · exact complete_valid _ f t' failed

theorem answer_valid (pause : Pause) (source : Source) : (t.answer s pause source).1.Valid := by
  unfold answer
  cases pause with
  | item v => exact accept_valid v
  | ended e => exact endWith_valid e
  | sleep length insists => exact .of_ne fun _ _ same => nomatch same

theorem gather_valid (frame : Frame) (p : Process) (collected : List Value) :
    (t.gather s frame p collected).1.Valid := by
  intro f t' failed
  unfold gather at failed
  split at failed <;> cases failed
  exact nofun

theorem advance_valid (frame : Frame) : (t.advance s frame).1.Valid := by
  unfold advance
  split
  · exact gather_valid frame _ _
  · exact endWith_valid _
  · exact accept_valid _
  · split
    · exact .of_ne fun _ _ same => nomatch same
    · exact answer_valid _ _
  · exact .of_ne fun _ _ same => nomatch same
  · exact .of_ne fun _ _ same => nomatch same
  · exact endWith_valid _

theorem step_valid (known : ∀ e ∈ s.graph.elements, s.registry.has e.type = true) :
    (t.step s).1.Valid := by
  unfold step
  split
  · split
    · exact .of_ne fun _ _ same => by cases same
    · split
      · exact visit_valid (s := s.note _) known _
      · exact .of_ne fun _ _ same => by cases same
  · split
    · exact advance_valid _
    · rename_i c rest _
      split
      · have graph : ((s.note (.traversed c.id)).notify (.traverse c.id)).graph = s.graph := by
          rw [Session.graph_deeds (Session.notify_deeds _ _), Session.hears]
          split <;> rfl
        have registry : ((s.note (.traversed c.id)).notify (.traverse c.id)).registry = s.registry :=
          Session.tell_registry _ _ _ _ _
        refine visit_valid ?_ _
        rw [graph, registry]
        exact known
      · exact .of_ne fun _ _ same => by cases same

end Traversal

namespace Stage

/-- Whether a traversal is not about to end with a graph found invalid. -/
def Valid (st : Stage) : Prop := ∀ f, st.ending? = some (.failed f) → ¬f.Invalidates

theorem Valid.of_ne {st : Stage} (other : ∀ f, st.ending? ≠ some (.failed f)) : st.Valid :=
  fun f ends => absurd ends (other f)

theorem settle_valid {m : Move} (valid : m.Valid) (s : Session) : (settle (m, s)).1.Valid := by
  intro f ends
  cases m with
  | fail g t =>
      cases ends
      exact valid f t rfl
  | _ => cases ends

theorem closed_valid {t : Traversal} {e : WalkEnd} (valid : (unwinding t e).Valid)
    (r : Pause × Process × Session) : (closed t e r).1.Valid := by
  obtain ⟨pause, p, s⟩ := r
  cases pause with
  | ended how =>
      cases how with
      | interrupted => exact .of_ne fun _ same => nomatch same
      | _ => exact valid
  | _ => exact valid

theorem took_valid (t : Traversal) (a : Attempt) (outOfTime : Bool) (y : Yield) (s : Session) :
    (took t a outOfTime y s).1.Valid := by
  unfold took
  simp only
  split
  · exact .of_ne fun _ same => nomatch same
  · split
    · refine settle_valid (fun f t' failed => ?_) _
      cases failed
      exact nofun
    · exact .of_ne fun _ same => nomatch same
  · exact settle_valid (Traversal.answer_valid _ _) _

/-- Behind the gate a traversal does not find its graph invalid. -/
theorem next_valid {st st' : Stage} {s s' : Session} (next : st.next s = some (st', s')) (valid : st.Valid)
    (admits : ∀ e ∈ s.graph.elements, s.registry.Admits e) : st'.Valid := by
  have known : ∀ e ∈ s.graph.elements, s.registry.has e.type = true := by
    intro e member
    obtain ⟨d, _, found, _⟩ := admits e member
    rw [Registry.has, found]
    rfl
  cases st with
  | opening =>
      obtain ⟨entries, opened⟩ := s.opening_gate.1.mpr admits
      unfold Stage.next at next
      simp only at next
      split at next <;> rename_i same <;> rw [same] at opened <;> cases opened
      cases next
      exact .of_ne fun _ same => nomatch same
  | walking t =>
      have settled := settle_valid (Traversal.step_valid (t := t) known) (t.step s).2
      have next : settle (t.step s) = (st', s') := Option.some.inj next
      rw [next] at settled
      exact settled
  | awaiting t a given? =>
      unfold Stage.next at next
      simp only at next
      split at next
      · have took := took_valid t a (given? == some true) ‹_› s
        rw [Option.some.inj next] at took
        exact took
      · cases next
        exact .of_ne fun _ same => nomatch same
  | delaying t id =>
      cases next
      exact .of_ne fun _ same => nomatch same
  | unwinding t e =>
      obtain ⟨entries, stack⟩ := t
      cases stack with
      | nil =>
          cases next
          exact valid
      | cons frame outer =>
          have inside : (unwinding ⟨entries, outer⟩ e).Valid := valid
          unfold Stage.next at next
          simp only at next
          split at next
          · have shut := closed_valid inside (Process.close ‹_› s)
            rw [Option.some.inj next] at shut
            exact shut
          · have shut := closed_valid inside (Process.close ‹_› s)
            rw [Option.some.inj next] at shut
            exact shut
          · cases next
            exact valid
  | closing t p insists? e =>
      have shut := closed_valid (show (unwinding t e).Valid from valid) (p.resume s)
      unfold Stage.next at next
      rw [Option.some.inj next] at shut
      exact shut
  | «over» e => cases next

end Stage

theorem Cut.valid {st st' : Stage} {s s' : Session} (cut : Cut st s st' s') (valid : st.Valid) :
    st'.Valid := by
  cases cut with
  | insistClosing => exact valid
  | interruptClosing t p e => exact Stage.closed_valid (show (Stage.unwinding t e).Valid from valid) _
  | _ => exact .of_ne fun _ same => nomatch same

end BlockGraph
