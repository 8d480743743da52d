import BlockGraph.Proofs.Plans
/-!
Outputs: what an invocation hands over, one emission at each pause, and how it ends. For a standard block it is read off
its plan: what a plan stores and logs leaves no trace in it, an emission is handed over or refused, and a fault ends it.
-/
namespace BlockGraph

/-! ### Logic that goes on again and again -/

/-- Whether logic that goes on in some sessions hands over some emissions, one at each pause, and then ends so. -/
structure Process.Emits (p : Process) (sessions : ℕ → Session) (es : List Emission) (e : Ending) : Prop where
  items : ∀ n x, es[n]? = some x → p.pause sessions n = .item x.toItem
  ends : p.pause sessions es.length = .ended e

/-- Whether steps, in whatever sessions they are taken, hand over some emissions and then end so. -/
inductive Cursor.Emits (c : Context) : List Step → List Emission → Ending → Prop
  | «over» : Emits c [] [] .normal
  | pass {step : Step} {rest : List Step} {es : List Emission} {e : Ending} :
      (∀ s, (step.take c s).1 = .done) → Emits c rest es e → Emits c (step :: rest) es e
  | item {step : Step} {x : Emission} {rest : List Step} {es : List Emission} {e : Ending} :
      (∀ s, (step.take c s).1 = .item x.toItem) → Emits c rest es e → Emits c (step :: rest) (x :: es) e
  | itemThen {step next : Step} {x : Emission} {rest : List Step} {es : List Emission} {e : Ending} :
      (∀ s, (step.take c s).1 = .itemThen x.toItem next) → Emits c (next :: rest) es e →
      Emits c (step :: rest) (x :: es) e
  | fault {step : Step} {f : Fault} {rest : List Step} :
      (∀ s, (step.take c s).1 = .fault f) → Emits c (step :: rest) [] (.fault f)

/-- Whether a value is small enough to be emitted. -/
def Value.Emittable : Value → Prop
  | .text s => s.length ≤ Emission.textLimit
  | .list items | .tuple items => items.length ≤ Emission.arrayLimit
  | _ => True

instance : DecidablePred Value.Emittable
  | .text s => inferInstanceAs (Decidable (s.length ≤ Emission.textLimit))
  | .list items | .tuple items => inferInstanceAs (Decidable (items.length ≤ Emission.arrayLimit))
  | .null | .bool _ | .int _ | .float _ | .mapping _ | .set _ | .frozenset _ | .foreign _ => .isTrue trivial

/-- The fault by which a value that is too large is refused. -/
def Value.refusal : Value → Fault
  | .text _ => .emittedTextTooLarge Emission.textLimit
  | _ => .emittedArrayTooLarge Emission.arrayLimit

namespace Emission

/-- On a port with a name, a value is emitted or refused for its size. -/
theorem ofParts_cases {port : String} (named : Text.isBlankText port = false) (v : Value) :
    v.Emittable ∧ ofParts (.text port) v = .ok ⟨port, v⟩ ∨
      ¬v.Emittable ∧ ofParts (.text port) v = .error v.refusal := by
  cases v with
  | text s =>
      simp only [ofParts, named, Bool.false_eq_true, if_false, Value.Emittable, Value.refusal, ← Nat.not_lt]
      exact (Decidable.em _).symm.imp (fun fits => ⟨fits, if_neg fits⟩) fun large => ⟨not_not.mpr large, if_pos large⟩
  | list items | tuple items =>
      simp only [ofParts, named, Bool.false_eq_true, if_false, Value.Emittable, Value.refusal, ← Nat.not_lt]
      exact (Decidable.em _).symm.imp (fun fits => ⟨fits, if_neg fits⟩) fun large => ⟨not_not.mpr large, if_pos large⟩
  | _ =>
      simp only [ofParts, named, Bool.false_eq_true, if_false]
      exact .inl ⟨trivial, trivial⟩

end Emission

theorem Emission.toItem_injective {x y : Emission} (same : x.toItem = y.toItem) : x = y := by
  obtain ⟨port, v⟩ := x
  cases same
  rfl

namespace Process

variable {p : Process} {sessions : ℕ → Session} {es es' : List Emission} {e e' : Ending}

theorem Emits.le_length (h : p.Emits sessions es e) (h' : p.Emits sessions es' e') : es.length ≤ es'.length := by
  by_contra more
  have item := h.items es'.length _ (List.getElem?_eq_getElem (by omega))
  cases item.symm.trans h'.ends

/-- There is one row of emissions, and one ending. -/
theorem Emits.unique (h : p.Emits sessions es e) (h' : p.Emits sessions es' e') : es = es' ∧ e = e' := by
  have length : es.length = es'.length := Nat.le_antisymm (h.le_length h') (h'.le_length h)
  refine ⟨List.ext_getElem length fun n inside inside' => ?_, ?_⟩
  · have item := h.items n _ (List.getElem?_eq_getElem inside)
    have item' := h'.items n _ (List.getElem?_eq_getElem inside')
    exact Emission.toItem_injective (Pause.item.inj (item.symm.trans item'))
  · exact Pause.ended.inj (h.ends.symm.trans (length ▸ h'.ends))

theorem after_succ (p : Process) (sessions : ℕ → Session) (n : ℕ) :
    p.after sessions (n + 1) = (p.resume (sessions 0)).2.1.after (fun n => sessions (n + 1)) n := by
  induction n with
  | zero => rfl
  | succ n ih => rw [after, ih, after]

theorem pause_succ (p : Process) (sessions : ℕ → Session) (n : ℕ) :
    p.pause sessions (n + 1) = (p.resume (sessions 0)).2.1.pause (fun n => sessions (n + 1)) n := by
  rw [pause, after_succ, pause]

end Process

namespace Cursor

variable {c : Context} {steps : List Step} {es : List Emission} {x : Emission} {e : Ending}

theorem Emits.advance_nil (h : Emits c steps [] e) (s : Session) :
    ∃ s', advance c steps s = (.ended e, [], s') := by
  generalize none : ([] : List Emission) = es at h
  induction h generalizing s with
  | «over» => exact ⟨s, rfl⟩
  | @pass step rest es e silent _ ih =>
      obtain ⟨s', goes⟩ := ih (step.take c s).2 none
      refine ⟨s', ?_⟩
      have taken : step.take c s = (.done, (step.take c s).2) := Prod.ext (silent s) rfl
      rw [advance, taken]
      exact goes
  | item | itemThen => cases none
  | @fault step f rest raises =>
      refine ⟨(step.take c s).2, ?_⟩
      have taken : step.take c s = (.fault f, (step.take c s).2) := Prod.ext (raises s) rfl
      rw [advance, taken]

theorem Emits.advance_cons (h : Emits c steps (x :: es) e) (s : Session) :
    ∃ rest s', advance c steps s = (.item x.toItem, rest, s') ∧ Emits c rest es e := by
  generalize some : x :: es = all at h
  induction h generalizing s with
  | «over» | fault => cases some
  | @pass step rest all e silent _ ih =>
      obtain ⟨rest', s', goes, emits⟩ := ih (step.take c s).2 some
      refine ⟨rest', s', ?_, emits⟩
      have taken : step.take c s = (.done, (step.take c s).2) := Prod.ext (silent s) rfl
      rw [advance, taken]
      exact goes
  | @item step y rest es e hands emits =>
      cases some
      refine ⟨rest, (step.take c s).2, ?_, emits⟩
      have taken : step.take c s = (.item x.toItem, (step.take c s).2) := Prod.ext (hands s) rfl
      rw [advance, taken]
  | @itemThen step next y rest es e hands emits =>
      cases some
      refine ⟨next :: rest, (step.take c s).2, ?_, emits⟩
      have taken : step.take c s = (.itemThen x.toItem next, (step.take c s).2) := Prod.ext (hands s) rfl
      rw [advance, taken]

/-- Logic with such steps ahead, and nothing to take when it ends, hands over what they hand over. -/
theorem Emits.process {p : Process} {sessions : ℕ → Session} (h : Emits p.context steps es e)
    (begins : p.resume (sessions 0) = p.put (resume p.context ⟨steps, [], none⟩ (sessions 0))) :
    p.Emits sessions es e := by
  induction es generalizing p sessions steps with
  | nil =>
      obtain ⟨s', goes⟩ := h.advance_nil (sessions 0)
      refine ⟨fun n x none => by simp at none, ?_⟩
      rw [List.length_nil, Process.pause, Process.after, begins]
      simp only [Process.put, resume, goes, close, advance]
  | cons x es ih =>
      obtain ⟨rest, s', goes, emits⟩ := h.advance_cons (sessions 0)
      have first : p.resume (sessions 0) = (.item x.toItem, ⟨p.context, .resting ⟨rest, [], none⟩⟩, s') := by
        rw [begins]
        simp only [Process.put, resume, goes]
      have later : Process.Emits ⟨p.context, .resting ⟨rest, [], none⟩⟩ (fun n => sessions (n + 1)) es e :=
        ih emits rfl
      constructor
      · intro n y found
        cases n with
        | zero =>
            cases found
            rw [Process.pause, Process.after, first]
        | succ n =>
            rw [Process.pause_succ, first]
            exact later.items n y found
      · rw [List.length_cons, Process.pause_succ, first]
        exact later.ends

end Cursor

/-! ### Plans -/

namespace Plan

/-- The steps of a plan behind those that are listed already. -/
def stepsAfter (p : Plan Unit) (sight : Sight) (planned : Array Step) : List Step :=
  match (p.run sight).run.run planned with
  | (.ok _, all) => all.toList
  | (.error f, all) => all.toList ++ [.raise f]

/-- Whether what a plan lists hands over some emissions and then ends so. -/
def Emits (p : Plan Unit) (sight : Sight) (es : List Emission) (e : Ending) : Prop :=
  ∃ steps, (∀ planned, p.stepsAfter sight planned = planned.toList ++ steps) ∧
    Cursor.Emits sight.context (Process.possible .stream steps) es e

/-- Whether a plan comes to emissions and an ending that are as they should be. -/
def Gives (p : Plan Unit) (sight : Sight) (post : List Emission → Ending → Prop) : Prop :=
  ∃ es e, p.Emits sight es e ∧ post es e

variable {α : Type} {sight : Sight} {es : List Emission} {e : Ending} {post : List Emission → Ending → Prop}
  {x : Emission} {f : Unit → Plan Unit}

theorem Gives.imp {p : Plan Unit} (h : p.Gives sight post) {post' : List Emission → Ending → Prop}
    (weaker : ∀ es e, post es e → post' es e) : p.Gives sight post' := by
  obtain ⟨es, e, emits, here⟩ := h
  exact ⟨es, e, emits, weaker es e here⟩

/-- A step that leaves no trace, in front of a plan. -/
theorem Gives.pass {p q : Plan Unit} {step : Step} (h : q.Gives sight post)
    (listed : ∀ planned, p.stepsAfter sight planned = q.stepsAfter sight (planned.push step))
    (silent : ∀ s, ((Process.inForm .stream step).take sight.context s).1 = .done) : p.Gives sight post := by
  obtain ⟨es, e, ⟨steps, lists, emits⟩, here⟩ := h
  refine ⟨es, e, ⟨step :: steps, fun planned => ?_, .pass silent emits⟩, here⟩
  rw [listed, lists, Array.toList_push, List.append_assoc, List.singleton_append]

theorem gives_pure (here : post [] .normal) : Gives (pure ()) sight post :=
  ⟨[], .normal, ⟨[], fun _ => (List.append_nil _).symm, .over⟩, here⟩

theorem gives_input (name : String) {g : Value → Plan Unit}
    (h : (g (Entries.field sight.context.inputs name)).Gives sight post) : (input name >>= g).Gives sight post := h

theorem gives_number (name : String) (default : ℤ) {g : Number → Plan Unit}
    (h : (g ((Entries.field sight.context.inputs name).toNumber (.int default))).Gives sight post) :
    (number name default >>= g).Gives sight post := h

theorem gives_say (message : String) (h : (f ()).Gives sight post) : (say message >>= f).Gives sight post :=
  h.pass (fun _ => rfl) fun _ => rfl

theorem gives_store {key : String} (named : Text.isBlankText key = false) (v : Value)
    (h : (f ()).Gives sight post) : (store key v >>= f).Gives sight post := by
  refine h.pass (fun _ => rfl) fun s => ?_
  have name : (Value.text key).name? = some key := by rw [Value.name?, named]; rfl
  simp only [Process.inForm, Step.take, Slots.store, name, Step.withSlots]

theorem gives_storeGlobal (name : String) (v : Value) (h : (f ()).Gives sight post) :
    (step (.storeGlobal (.text name) v) >>= f).Gives sight post :=
  h.pass (fun _ => rfl) fun _ => rfl

theorem gives_useDraw (h : (f ()).Gives sight post) : (step .useDraw >>= f).Gives sight post :=
  h.pass (fun _ => rfl) fun _ => rfl

/-- A plan that comes down to one step. -/
theorem gives_step {x : Step} {es : List Emission} {e : Ending}
    (emits : Cursor.Emits sight.context [Process.inForm .stream x] es e) (here : post es e) :
    (step x).Gives sight post :=
  ⟨es, e, ⟨[x], fun _ => Array.toList_push, emits⟩, here⟩

/-- What may fault goes on with its result, or raises its fault. -/
theorem gives_of {r : Except Fault α} {g : α → Plan Unit} (goes : ∀ a, r = .ok a → (g a).Gives sight post)
    (faults : ∀ fault, r = .error fault → post [] (.fault (Process.leaving .stream fault))) :
    (of r >>= g).Gives sight post := by
  cases r with
  | ok a => exact goes a rfl
  | error fault =>
      exact ⟨[], _, ⟨[.raise fault], fun _ => rfl, .fault fun _ => rfl⟩, faults fault rfl⟩

/-- An emission that is handed over, and what comes behind it, or one that is refused. -/
theorem gives_emit {port : String} (named : Text.isBlankText port = false) {v : Value}
    (goes : (f ()).Gives sight fun es e => v.Emittable → post (⟨port, v⟩ :: es) e)
    (refused : ¬v.Emittable → post [] (.fault v.refusal)) : (emit port v >>= f).Gives sight post := by
  obtain ⟨es, e, ⟨steps, lists, emits⟩, here⟩ := goes
  have listed : ∀ planned, (emit port v >>= f).stepsAfter sight planned =
      planned.toList ++ .emit (.text port) v :: steps := fun planned => by
    show (f ()).stepsAfter sight (planned.push _) = _
    rw [lists, Array.toList_push, List.append_assoc, List.singleton_append]
  have taken : ∀ s, ((Process.inForm .stream (.emit (.text port) v)).take sight.context s).1 =
      Step.emitted (.ok (.text port)) (.ok v) := fun _ => rfl
  rcases Emission.ofParts_cases named v with ⟨fits, parts⟩ | ⟨large, parts⟩
  · exact ⟨_, e, ⟨_, listed, .item (fun s => by rw [taken s, Step.emitted, parts]) emits⟩, here fits⟩
  · exact ⟨[], _, ⟨_, listed, .fault fun s => by rw [taken s, Step.emitted, parts]⟩, refused large⟩

theorem gives_emitted {port : String} (named : Text.isBlankText port = false) {v : Value}
    (goes : v.Emittable → post [⟨port, v⟩] .normal) (refused : ¬v.Emittable → post [] (.fault v.refusal)) :
    (emit port v).Gives sight post := by
  have rest : (emit port v >>= pure).Gives sight post := gives_emit named (gives_pure goes) refused
  rwa [bind_pure] at rest

/-- Whether a plan comes to some emissions, or to a fault, which it only does where something is lacking. -/
def Hands (p : Plan Unit) (sight : Sight) (fine : Prop) (es : List Emission) : Prop :=
  p.Gives sight fun es' e => e = .normal ∧ es' = es ∨ (∃ f, e = .fault f) ∧ ¬fine

variable {fine : Prop}

theorem hands_of {r : Except Fault α} {g : α → Plan Unit} (goes : ∀ a, r = .ok a → (g a).Hands sight fine es)
    (needs : fine → r.isOk = true) : (of r >>= g).Hands sight fine es :=
  gives_of goes fun fault fails => .inr ⟨⟨_, rfl⟩, fun all => by
    have some := needs all
    rw [fails] at some
    cases some⟩

theorem hands_emit {port : String} (named : Text.isBlankText port = false) {v : Value}
    (goes : (f ()).Hands sight fine es) (needs : fine → v.Emittable) :
    (emit port v >>= f).Hands sight fine (⟨port, v⟩ :: es) := by
  refine gives_emit named (Gives.imp goes ?_) fun large => .inr ⟨⟨_, rfl⟩, fun all => large (needs all)⟩
  rintro es' e (⟨normal, same⟩ | faults) _
  · exact .inl ⟨normal, by rw [same]⟩
  · exact .inr faults

theorem hands_emitted {port : String} (named : Text.isBlankText port = false) {v : Value}
    (needs : fine → v.Emittable) : (emit port v).Hands sight fine [⟨port, v⟩] :=
  gives_emitted named (fun _ => .inl ⟨rfl, rfl⟩) fun large => .inr ⟨⟨_, rfl⟩, fun all => large (needs all)⟩

end Plan

namespace StandardBlock

/-- What an invocation of a block that hands over its items one by one comes to is what its plan comes to. -/
theorem invoked_emits {b : StandardBlock} {c : Context} {sessions : ℕ → Session}
    {post : List Emission → Ending → Prop} (stream : b.form = .stream)
    (gives : b.plan.Gives (sight c (sessions 0)) post) :
    ∃ es e, (b.invoked c).Emits sessions es e ∧ post es e := by
  obtain ⟨es, e, ⟨steps, lists, emits⟩, here⟩ := gives
  refine ⟨es, e, Cursor.Emits.process (p := b.invoked c) emits ?_, here⟩
  have planned : b.plan.steps (sight c (sessions 0)) = steps := lists #[]
  show Process.put _ (Cursor.resume c (Process.start c b.logic (sessions 0)) (sessions 0)) = _
  rw [start_invoked, planned, stream]
  rfl

/-- What an invocation came to is as it should be when all that its plan can come to is. -/
theorem invoked_only {b : StandardBlock} {c : Context} {sessions : ℕ → Session} {es : List Emission} {e : Ending}
    {post : List Emission → Ending → Prop} (stream : b.form = .stream)
    (gives : b.plan.Gives (sight c (sessions 0)) post) (emits : (b.invoked c).Emits sessions es e) : post es e := by
  obtain ⟨es', e', emits', here⟩ := invoked_emits stream gives
  obtain ⟨rfl, rfl⟩ := emits.unique emits'
  exact here

/-- An invocation hands over what its plan comes to when nothing is lacking, and nothing else when it does not fail. -/
theorem invoked_hands {b : StandardBlock} {c : Context} {sessions : ℕ → Session} {fine : Prop} {es : List Emission}
    (stream : b.form = .stream) (hands : b.plan.Hands (sight c (sessions 0)) fine es) :
    (fine → (b.invoked c).Emits sessions es .normal) ∧
      ∀ es', (b.invoked c).Emits sessions es' .normal → es' = es := by
  constructor
  · intro all
    obtain ⟨es', e, emits, ⟨rfl, rfl⟩ | ⟨-, lacks⟩⟩ := invoked_emits stream hands
    · exact emits
    · exact absurd all lacks
  · intro es' emits
    rcases invoked_only stream hands emits with ⟨-, same⟩ | ⟨⟨f, fault⟩, -⟩
    · exact same
    · cases fault

end StandardBlock

end BlockGraph
