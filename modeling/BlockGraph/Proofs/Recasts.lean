import BlockGraph.Proofs.LikeMoves
import BlockGraph.Proofs.Listings
/-!
Registries that differ only in the form of logic that does nothing but hand over items: blocks are recast. Whoever
looks at a session sees nothing of that, and logic, whatever it does to the session, does it alike.
-/
namespace BlockGraph

/-- Whether logic is the same, or hands over the same items and does nothing else. -/
def Logic.Recasts (l l' : Logic) : Prop := l' = l ∨ ∃ items, l.Lists items ∧ l'.Lists items

/-- Whether sources are the same, or the same items and nothing else comes from them. -/
def Source.Recasts (a b : Source) : Prop := b = a ∨ ∃ items, a.Lists items ∧ b.Lists items

/-- Whether definitions differ at most in a recast of their logic. -/
structure BlockDefinition.Recasts (d d' : BlockDefinition) : Prop where
  same : d' = { d with logic := d'.logic }
  logic : d.logic.Recasts d'.logic

/-- Whether two registries hold the same types in the same order, with definitions that differ at most in recasts. -/
def Registry.Recasts (r r' : Registry) : Prop :=
  List.Forall₂ (fun b b' => b'.1 = b.1 ∧ b.2.Recasts b'.2) r.blocks r'.blocks

/-- A session with another registry. -/
def Session.withRegistry (s : Session) (registry : Registry) : Session := { s with registry }

/-- Whether two sessions are the same, with registries that differ at most in recasts. -/
inductive Session.Recasts (s : Session) : Session → Prop
  | mk {registry : Registry} : s.registry.Recasts registry → Recasts s (s.withRegistry registry)

/-! ### Logic and registries -/

theorem Logic.Recasts.symm {l l' : Logic} (h : l.Recasts l') : l'.Recasts l := by
  rcases h with rfl | ⟨items, lists, lists'⟩
  · exact .inl rfl
  · exact .inr ⟨items, lists', lists⟩

namespace BlockDefinition.Recasts

variable {d d' : BlockDefinition}

theorem refl (d : BlockDefinition) : d.Recasts d := ⟨rfl, .inl rfl⟩

theorem symm (h : d.Recasts d') : d'.Recasts d := by
  refine ⟨?_, h.logic.symm⟩
  rw [h.same]

theorem check (h : d.Recasts d') : d'.check = d.check := by rw [h.same]

end BlockDefinition.Recasts

namespace Registry.Recasts

variable {r r' : Registry}

theorem refl (r : Registry) : r.Recasts r := List.forall₂_same.mpr fun _ _ => ⟨rfl, .refl _⟩

theorem symm (h : r.Recasts r') : r'.Recasts r :=
  List.Forall₂.flip (h.imp fun _ _ each => ⟨each.1.symm, each.2.symm⟩)

/-- A block that does nothing but hand over items may do so in any other form. -/
theorem form {steps : List Step} {items : List Value} (lists : ∀ c, List.Forall₂ (Step.HandsOver c) steps items)
    (form form' : Form) (before after : List (String × BlockDefinition)) (type : String) (d : BlockDefinition) :
    Registry.Recasts ⟨before ++ (type, { d with logic := .script form steps [] }) :: after⟩
      ⟨before ++ (type, { d with logic := .script form' steps [] }) :: after⟩ := by
  have block : BlockDefinition.Recasts { d with logic := .script form steps [] }
      { d with logic := .script form' steps [] } :=
    ⟨rfl, .inr ⟨items, Logic.lists_script form lists, Logic.lists_script form' lists⟩⟩
  exact List.rel_append (refl ⟨before⟩) (.cons ⟨rfl, block⟩ (refl ⟨after⟩))

/-- The same types are found, with definitions that differ at most in recasts. -/
theorem find? (h : r.Recasts r') (type : String) :
    Option.Rel BlockDefinition.Recasts (r.find? type) (r'.find? type) := by
  show Option.Rel _ (r.blocks.lookup type) (r'.blocks.lookup type)
  unfold Recasts at h
  generalize r.blocks = blocks at h ⊢
  generalize r'.blocks = blocks' at h ⊢
  induction h with
  | nil => exact .none
  | @cons b b' _ _ each rest ih =>
      obtain ⟨name, d⟩ := b
      obtain ⟨name', d'⟩ := b'
      obtain ⟨same, recasts⟩ := each
      cases same
      rw [List.lookup_cons, List.lookup_cons]
      split
      · exact .some recasts
      · exact ih

theorem unregister (h : r.Recasts r') (type : String) :
    (r.unregister type).2.Recasts (r'.unregister type).2 := by
  show List.Forall₂ _ (r.blocks.filter (·.1 != type)) (r'.blocks.filter (·.1 != type))
  unfold Recasts at h
  generalize r.blocks = blocks at h ⊢
  generalize r'.blocks = blocks' at h ⊢
  induction h with
  | nil => exact .nil
  | cons each rest ih =>
      rw [List.filter_cons, List.filter_cons, each.1]
      split
      · exact .cons each ih
      · exact ih

end Registry.Recasts

namespace Source

/-- A recast of the logic of an element recasts what its emissions come from. -/
theorem recasts_ofLogic {l l' : Logic} (h : l.Recasts l') (c : Context) : (ofLogic c l).Recasts (ofLogic c l') := by
  rcases h with rfl | ⟨items, lists, lists'⟩
  · exact .inl rfl
  · exact .inr ⟨items, lists_ofLogic lists c, lists_ofLogic lists' c⟩

end Source

namespace Session.Recasts

variable {s t : Session}

theorem refl (s : Session) : s.Recasts s := .mk (.refl s.registry)

theorem symm (h : s.Recasts t) : t.Recasts s := by
  cases h with
  | mk recasts => exact .mk (s := s.withRegistry _) recasts.symm

theorem registry (h : s.Recasts t) : s.registry.Recasts t.registry := by
  cases h with
  | mk recasts => exact recasts

/-- What does not depend on what is registered is the same. -/
theorem reads {β : Type} (h : s.Recasts t) (f : Session → β)
    (blind : ∀ s registry, f (s.withRegistry registry) = f s) : f t = f s := by
  cases h with
  | mk => exact blind s _

/-- A change that has nothing to do with what is registered. -/
theorem update (h : s.Recasts t) (f : Session → Session)
    (blind : ∀ s registry, f (s.withRegistry registry) = (f s).withRegistry registry)
    (still : ∀ s, (f s).registry = s.registry) : (f s).Recasts (f t) := by
  cases h with
  | mk recasts =>
      rw [blind]
      exact .mk (still s ▸ recasts)

/-! ### Telling -/

/-- What a listener does when it is told has nothing to do with what is registered. -/
theorem react {stop : Session → Session} (stops : ∀ {s t : Session}, s.Recasts t → (stop s).Recasts (stop t))
    (h : s.Recasts t) (e : Event) (reactions : List Reaction) :
    (Session.react stop e s reactions).Recasts (Session.react stop e t reactions) := by
  induction reactions generalizing s t with
  | nil => exact h
  | cons r rest ih =>
      have warned : ∀ kind message, (s.warn e kind message).Recasts (t.warn e kind message) := fun kind message =>
        h.update (·.warn e kind message) (fun _ _ => rfl) fun _ => rfl
      cases r with
      | stop => exact ih (stops h)
      | reset =>
          rw [Session.react, Session.react]
          unfold Session.reset?
          rw [h.reads Session.running fun _ _ => rfl]
          cases s.running with
          | false => exact ih (h.update Session.cleared (fun _ _ => rfl) fun _ => rfl)
          | true => exact warned _ _
      | «raise» f => exact warned _ _

/-- A line is logged by a way to tell listeners that has nothing to do with what is registered. -/
theorem logBy {tell : Telling} (h : s.Recasts t)
    (tells : ∀ {s t : Session} o l e, s.Recasts t → (tell s o l e).Recasts (tell t o l e)) (line : String) :
    (Session.logBy tell s line).Recasts (Session.logBy tell t line) := by
  have logged := h.update (fun s => { s with log := s.log.push line }) (fun _ _ => rfl) fun _ => rfl
  cases h with
  | mk => exact tells s.options s.listener (.log line) logged

theorem tell (h : s.Recasts t) (depth : Nat) (o : Options) (l : Listener) (e : Event) :
    (Session.tell depth s o l e).Recasts (Session.tell depth t o l e) := by
  induction depth generalizing s t o l e with
  | zero => exact h
  | succ depth ih =>
      have stops : ∀ {s t : Session}, s.Recasts t →
          (Session.stopBy (Session.tell depth) s).Recasts (Session.stopBy (Session.tell depth) t) := by
        intro s t h
        have asked := h.update (fun s => { s with stopRequested := true }) (fun _ _ => rfl) fun _ => rfl
        unfold Session.stopBy
        rw [h.reads Session.active fun _ _ => rfl]
        split
        · exact asked.logBy (fun o l e h => ih h o l e) _
        · exact h
      have heard := h.update (fun s => { s with heard := s.heard.push (l.number, e) }) (fun _ _ => rfl) fun _ => rfl
      rw [Session.tell, Session.tell]
      split
      · exact react stops heard e (l.react e)
      · exact h

theorem say (h : s.Recasts t) (line : String) : (s.say line).Recasts (t.say line) :=
  h.logBy (fun o l e h => h.tell 2 o l e) line

theorem notify (h : s.Recasts t) (e : Event) : (s.notify e).Recasts (t.notify e) := by
  have told := h.tell 2 s.options s.listener e
  cases h with
  | mk => exact told

/-! ### What a run does to a session -/

/-- An element passes, or fails, the same checks. -/
theorem checkElement (h : s.Recasts t) (e : Element) : t.checkElement e = s.checkElement e := by
  have found := h.registry.find? e.type
  unfold Session.checkElement
  generalize s.registry.find? e.type = d at found
  generalize t.registry.find? e.type = d' at found
  cases found with
  | none => rfl
  | some recasts => simp only [recasts.check]

/-- Sessions with recast registries stay so under the small moves of runs. -/
theorem likeness : Likeness Recasts where
  toldAs h := by
    cases h
    rfl
  put {s t s'} h told := by
    cases h with
    | @mk registry recasts =>
        have same : s'.toldAs (s.withRegistry registry) = s'.withRegistry registry :=
          congrArg (·.withRegistry registry) told
        have old : s'.registry = s.registry := (congrArg Session.registry told.symm :)
        rw [same]
        exact .mk (old ▸ recasts)
  delays h := by
    cases h
    rfl
  patience h := by
    cases h
    rfl
  lasts h := by
    cases h
    rfl
  more h := by
    cases h
    exact Int.le_refl _
  checked {s t} h := by
    have graph : t.graph = s.graph := h.reads Session.graph fun _ _ => rfl
    unfold Session.checkAll
    rw [graph]
    exact congrArg (s.graph.elements.forM ·) (funext h.checkElement)
  unregistered {s t} type h := by
    cases h with
    | mk recasts => exact .mk (s := { s with registry := (s.registry.unregister type).2 }) (recasts.unregister type)
  reported lines h := h.update (fun s => { s with journal := s.journal ++ lines }) (fun _ _ => rfl) fun _ => rfl
  said line _ h := h.say line
  notified e h := h.notify e

theorem diagnose (h : s.Recasts t) : s.diagnose.Recasts t.diagnose := by
  rw [s.diagnose_eq, t.diagnose_eq, h.reads Session.graph fun _ _ => rfl]
  generalize findings s.graph = lines
  induction lines generalizing s t with
  | nil => exact h
  | cons line rest ih => exact ih (h.say line)

theorem opening (h : s.Recasts t) : Likens Recasts s.opening t.opening := by
  refine likeness.opening ?_
  rw [h.reads (·.options.detectCycles) fun _ _ => rfl]
  split
  · exact h.diagnose
  · exact h

/-- Two sessions are taken for the same run. -/
theorem taken (h : s.Recasts t) (o : Options) (l : Listener) (bindings : Entries) :
    (s.taken o l bindings).Recasts (t.taken o l bindings) := by
  have begun := h.update (fun s => { s.cleared with
    options := o, listener := l, bindings, running := true, status := .running, started := true })
    (fun _ _ => rfl) fun _ => rfl
  have reported := begun.update (fun s => s.report .info "engine" ("Executing program with " ++
    s.graph.elements.length.repr ++ " elements and " ++ s.graph.connections.length.repr ++ " connections"))
    (fun _ _ => rfl) fun _ => rfl
  exact reported.say ("Starting execution with options - " ++ o.describe)

end Session.Recasts

end BlockGraph
