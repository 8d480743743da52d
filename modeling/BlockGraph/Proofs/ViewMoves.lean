import BlockGraph.Proofs.ViewLogic
/-!
Moves of a run under a view: what is done to a session in a run, and each step of a traversal, come to
what they come to without it.
-/
namespace BlockGraph

/-! ### Stops last -/

theorem Session.hears_lasts (s : Session) (e : Event) : s.Lasts (s.hears e) := by
  unfold Session.hears
  split <;> exact .of_eq rfl rfl rfl

theorem Session.note_lasts (s : Session) (x : Happening) : s.Lasts (s.note x) := .of_eq rfl rfl rfl

theorem Session.starting_lasts (s : Session) (id : String) : s.Lasts (s.starting id) := by
  have before : s.Lasts ({ s.counted with processed := s.counted.processed ++ [id] }.note (.started id)) :=
    .of_eq rfl rfl rfl
  exact (before.trans (Session.hears_lasts _ _)).trans (.of_eq (Session.withSlots_size _ _ _) rfl rfl)

theorem Session.traversing_lasts (s : Session) (c : Connection) : s.Lasts (s.traversing c) :=
  (s.note_lasts _).trans (hears_lasts _ _)

theorem Session.completing_lasts (s : Session) (id : String) : s.Lasts (s.completing id) :=
  (s.note_lasts _).trans (hears_lasts _ _)

theorem Session.record_lasts (s : Session) (id : String) (e : Emission) : s.Lasts (s.record id e) :=
  .of_eq (Session.withSlots_size _ _ _) rfl rfl

theorem Traversal.Visited.lasts {t : Traversal} {s s' : Session} {id : String} {m : Move}
    (h : t.Visited s id m s') : s.Lasts s' := by
  cases h with
  | failed f _ kept => exact (s.starting_lasts id).trans (.kept kept)
  | started frame _ kept _ _ _ => exact (s.starting_lasts id).trans (.kept kept)
  | _ => exact .of_eq rfl rfl rfl

/-- An element is put into the execution order and told of. -/
def Session.startTold (s : Session) (e : Element) : Session :=
  (({ s with processed := s.processed ++ [e.id] }.say
    ("Executing element " ++ e.id ++ " (" ++ e.type ++ ")")).note (.started e.id)).notify (.start e.id)

theorem Traversal.start_eq (s : Session) (e : Element) (logic : Logic) :
    start s e logic = match (s.startTold e).contextOf e with
      | (.error f, s) => (.error (.value f), s)
      | (.ok c, s) => (.ok (some ⟨e, Source.ofLogic c logic, []⟩), s) := rfl

theorem Traversal.Moved.lasts {t : Traversal} {s s' : Session} {m : Move} (h : t.Moved s m s') :
    s.Lasts s' := by
  cases h with
  | entered id _ _ _ _ visited => exact (s.note_lasts _).trans visited.lasts
  | traversed _ _ c _ _ _ _ kept visited =>
      exact (s.traversing_lasts c).trans ((Session.Lasts.kept kept).trans visited.lasts)
  | went _ _ _ _ _ deeds _ => exact deeds.lasts
  | recorded _ _ _ e _ _ deeds _ => exact deeds.lasts.trans (Session.record_lasts _ _ e)
  | ended frame _ _ _ before after =>
      exact before.lasts.trans ((Session.completing_lasts _ _).trans after.lasts)
  | delayed _ _ _ _ deeds _ => exact deeds.lasts
  | failed _ _ deeds _ _ => exact deeds.lasts
  | _ => exact .refl s

namespace View

variable (v : View)

def source : Source → Source
  | .gathering p collected => .gathering (v.process p) collected
  | .items rest => .items rest
  | .sequence p => .sequence (v.process p)
  | .stream p => .stream (v.process p)
  | .deferred p => .deferred (v.process p)
  | .busy => .busy

def frame (f : Frame) : Frame := { f with source := v.source f.source }

def traversal (t : Traversal) : Traversal := { t with stack := t.stack.map v.frame }

def move : Move → Move
  | .go t => .go (v.traversal t)
  | .wait p t => .wait (v.process p) (v.traversal t)
  | .delay id t => .delay id (v.traversal t)
  | .finished => .finished
  | .fail f t => .fail f (v.traversal t)

/-- What a step of a traversal comes to. -/
def moved (r : Move × Session) : Move × Session := (v.move r.1, v.session r.2)

/-! ### What a run does to a session -/

section Sessions

variable {v} {s : Session}

theorem collectInputs (stored : 0 < s.stores.size) (id : String) :
    (v.session s).collectInputs id = s.collectInputs id := by
  unfold Session.collectInputs
  rw [slots v stored]
  rfl

theorem contextOf (stored : 0 < s.stores.size) (e : Element) :
    (v.session s).contextOf e = ((s.contextOf e).1.map v.context, v.session (s.contextOf e).2) := by
  have opened : (v.session s).withSlots (v.session s).run ((v.session s).slots.opened e.id) =
      v.session (s.withSlots s.run (s.slots.opened e.id)) := by
    rw [run v stored, slots v stored, withSlots]
  unfold Session.contextOf
  rw [opened]
  have stored : 0 < (s.withSlots s.run (s.slots.opened e.id)).stores.size := by
    rwa [Session.withSlots_size]
  generalize s.withSlots s.run (s.slots.opened e.id) = s₁ at stored
  cases (copyProps e.props).outcome with
  | mk props lines =>
      cases props with
      | error f => rfl
      | ok props =>
          let s₂ : Session := { s₁ with journal := s₁.journal ++ lines }
          have inputs : (v.session s₂).collectInputs e.id = s₂.collectInputs e.id := collectInputs stored e.id
          have run : (v.session s₂).run = v.earlier.size + s₂.run := run v stored
          show ((Except.ok ⟨e.id, e.type, Entries.overlay ((v.session s₂).collectInputs e.id) props, e.props,
            s₂.bindings, (v.session s₂).run⟩ : Except Fault Context), v.session s₂) = _
          rw [inputs, run]
          rfl

theorem record (stored : 0 < s.stores.size) (id : String) (e : Emission) :
    (v.session s).record id e = v.session (s.record id e) := by
  unfold Session.record
  rw [run v stored, slots v stored, withSlots]
  rfl

/-- Whether what is done to a session is the same under a view. -/
def Commutes (v : View) (f : Session → Session) : Prop :=
  ∀ s, s.Lasts (f s) ∧ (v.Clear s (f s) → f (v.session s) = v.session (f s))

namespace Commutes

variable {f g : Session → Session}

theorem comp (first : v.Commutes f) (next : v.Commutes g) : v.Commutes fun s => g (f s) := by
  intro s
  obtain ⟨before, same⟩ := first s
  obtain ⟨after, same'⟩ := next (f s)
  refine ⟨before.trans after, fun clear => ?_⟩
  show g (f (v.session s)) = _
  rw [same (clear.first before after)]
  exact same' (clear.rest before)

theorem ite {c : Prop} [Decidable c] (yes : v.Commutes f) (no : v.Commutes g) :
    v.Commutes fun s => if c then f s else g s := by
  by_cases h : c
  · simpa only [if_pos h] using yes
  · simpa only [if_neg h] using no

theorem id : v.Commutes fun s => s := fun s => ⟨.refl s, fun _ => rfl⟩

theorem say (line : String) : v.Commutes (·.say line) := fun s =>
  ⟨(s.say_deeds line).lasts, View.say⟩

theorem note (x : Happening) : v.Commutes (·.note x) := fun _ => ⟨.of_eq rfl rfl rfl, fun _ => rfl⟩

theorem notify (e : Event) : v.Commutes (·.notify e) := fun s =>
  ⟨(s.hears_lasts e).trans (s.notify_deeds e).lasts, View.notify⟩

theorem sayAll {α : Type} (line : α → String) (xs : List α) :
    v.Commutes fun s => xs.foldl (fun s x => s.say (line x)) s := by
  induction xs with
  | nil => exact id
  | cons x rest ih => exact (say (line x)).comp ih

theorem completed (id : String) : v.Commutes (·.completed id) :=
  ((say _).comp (note _)).comp (notify _)

theorem diagnose : v.Commutes (·.diagnose) := fun s => by
  have graph : (v.session s).graph = s.graph := rfl
  simpa only [Session.diagnose_eq, graph] using sayAll (v := v) (fun line => line) (Session.findings s.graph) s

end Commutes

theorem blockFailed {e : Element} (cause : Fault) (clear : v.Clear s (s.blockFailed e cause).2) :
    (v.session s).blockFailed e cause = ((s.blockFailed e cause).1, v.session (s.blockFailed e cause).2) :=
  congrArg (Prod.mk _) (say clear)

theorem blockTimedOut {e : Element} (clear : v.Clear s (s.blockTimedOut e).2) :
    (v.session s).blockTimedOut e = ((s.blockTimedOut e).1, v.session (s.blockTimedOut e).2) :=
  congrArg (Prod.mk _) (say clear)

theorem checkElement (s : Session) (e : Element) : (v.session s).checkElement e = s.checkElement e := by
  have found : (v.session s).registry.find? e.type = _ := find? v s.registry e.type
  unfold Session.checkElement
  rw [found]
  cases s.registry.find? e.type <;> rfl

theorem checkAll (s : Session) : (v.session s).checkAll = s.checkAll :=
  congrArg (fun check => s.graph.elements.forM check) (funext fun e => checkElement s e)

theorem opening (clear : v.Clear s s.opening.2) :
    (v.session s).opening = (s.opening.1, v.session s.opening.2) := by
  obtain ⟨before, told⟩ := Commutes.ite (v := v) (c := s.options.detectCycles = true) .diagnose .id s
  unfold Session.opening at clear ⊢
  simp only at before told clear ⊢
  rw [show (v.session s).options = s.options from rfl]
  generalize (if s.options.detectCycles = true then s.diagnose else s) = s₁ at before told clear ⊢
  have graph : (v.session s₁).graph = s₁.graph := rfl
  have told : ∀ {f : Session → Session}, v.Commutes f → v.Clear s (f s₁) →
      (if s.options.detectCycles = true then (v.session s).diagnose else v.session s) = v.session s₁ ∧
        f (v.session s₁) = v.session (f s₁) := by
    intro f commutes clear
    obtain ⟨after, same⟩ := commutes s₁
    exact ⟨told (clear.first before after), same (clear.rest before)⟩
  cases checked : s₁.checkAll with
  | error f =>
      simp only [checked] at clear ⊢
      rw [(told .id clear).1, checkAll, checked]
  | ok _ =>
      simp only [checked] at clear ⊢
      cases elements : s₁.graph.elements with
      | nil =>
          simp only [elements] at clear ⊢
          obtain ⟨first, next⟩ := told (.say _) clear
          rw [first, checkAll, checked]
          simp only [graph, elements]
          exact congrArg (Prod.mk _) next
      | cons e rest =>
          simp only [elements] at clear ⊢
          cases entries : s₁.graph.entryPoints with
          | nil =>
              simp only [entries] at clear ⊢
              obtain ⟨first, next⟩ := told ((Commutes.say _).comp (.say _)) clear
              rw [first, checkAll, checked]
              simp only [graph, elements, entries]
              exact congrArg (Prod.mk _) next
          | cons id ids =>
              simp only [entries] at clear ⊢
              obtain ⟨first, next⟩ := told (.say _) clear
              rw [first, checkAll, checked]
              simp only [graph, elements, entries]
              exact congrArg (Prod.mk _) next

end Sessions

/-! ### Steps of a traversal -/

section Traversals

variable {v} {t : Traversal} {s : Session}

theorem form (logic : Logic) : (v.logic logic).form = logic.form := by cases logic <;> rfl

theorem ofLogic (c : Context) (logic : Logic) :
    Source.ofLogic (v.context c) (v.logic logic) = v.source (Source.ofLogic c logic) := by
  unfold Source.ofLogic
  rw [form]
  cases logic.form <;> rfl

theorem withSource (t : Traversal) (source : Source) :
    (v.traversal t).withSource (v.source source) = v.traversal (t.withSource source) := by
  obtain ⟨entries, stack⟩ := t
  cases stack <;> rfl

theorem contextOf_lasts (s : Session) (e : Element) : s.Lasts (s.contextOf e).2 :=
  .trans (.of_eq (Session.withSlots_size _ _ _) rfl rfl) (.kept (Session.contextOf_kept e))

theorem Commutes.startTold (e : Element) : v.Commutes (·.startTold e) := by
  have turned : v.Commutes fun s => { s with processed := s.processed ++ [e.id] } := fun _ =>
    ⟨.of_eq rfl rfl rfl, fun _ => rfl⟩
  exact ((turned.comp (say _)).comp (note _)).comp (notify _)

theorem start (e : Element) (logic : Logic) (clear : v.Clear s (Traversal.start s e logic).2) :
    Traversal.start (v.session s) e (v.logic logic) =
      ((Traversal.start s e logic).1.map (Option.map v.frame), v.session (Traversal.start s e logic).2) := by
  have before : s.Lasts (s.startTold e) := (Commutes.startTold (v := v) e s).1
  have told : v.Clear s (s.startTold e) → (v.session s).startTold e = v.session (s.startTold e) :=
    (Commutes.startTold e s).2
  have session : (Traversal.start s e logic).2 = ((s.startTold e).contextOf e).2 := by
    rw [Traversal.start_eq]
    split <;> rename_i same <;> rw [same]
  rw [session] at clear
  have stored := (clear.rest before).stored
  rw [Traversal.start_eq, Traversal.start_eq, told (clear.first before (contextOf_lasts _ e)), contextOf stored]
  cases (s.startTold e).contextOf e with
  | mk r s₂ =>
      cases r with
      | error f => rfl
      | ok c => exact congrArg (fun source => ((Except.ok (some ⟨e, source, []⟩), v.session s₂) :
          Except RunFault (Option Frame) × Session)) (ofLogic c logic)

theorem begin (s : Session) (id : String) (clear : v.Clear s (Traversal.begin s id).2) :
    Traversal.begin (v.session s) id =
      ((Traversal.begin s id).1.map (Option.map v.frame), v.session (Traversal.begin s id).2) := by
  cases on : s.active with
  | false =>
      have off : (v.session s).active = false := on
      rw [Traversal.begin_inactive on, Traversal.begin_inactive off]
      rfl
  | true =>
      have on' : (v.session s).active = true := on
      by_cases beyond : s.options.maxSteps < ((s.steps + 1 : Nat) : Int)
      · rw [Traversal.begin_overBudget on beyond, Traversal.begin_overBudget on' beyond]
        rfl
      have within := Int.not_lt.mp beyond
      by_cases seen : id ∈ s.processed
      · rw [Traversal.begin_seen on within seen, Traversal.begin_seen on' within seen]
        rfl
      rw [Traversal.begin_fresh on within seen] at clear ⊢
      rw [Traversal.begin_fresh on' within seen]
      have graph : (v.session s).graph = s.graph := rfl
      rw [graph]
      cases found : s.graph.element? id with
      | none => rfl
      | some e =>
          have type' : (v.session s).registry.find? e.type = _ := find? v s.registry e.type
          simp only [found] at clear ⊢
          rw [type']
          cases type : s.registry.find? e.type with
          | none => rfl
          | some d =>
              simp only [type] at clear
              exact (start (s := s.counted) e d.logic ⟨clear.stored, clear.calm⟩ :)

theorem visit (t : Traversal) (id : String) (clear : v.Clear s (t.visit s id).2) :
    (v.traversal t).visit (v.session s) id = v.moved (t.visit s id) := by
  have session : (t.visit s id).2 = (Traversal.begin s id).2 := by
    unfold Traversal.visit
    split <;> rename_i same <;> rw [same]
  unfold Traversal.visit
  rw [begin s id (session ▸ clear)]
  cases Traversal.begin s id with
  | mk r s₁ =>
      cases r with
      | error f => rfl
      | ok frame? => cases frame? <;> rfl

theorem complete (t : Traversal) (id : String) (clear : v.Clear s (t.complete s id).2) :
    (v.traversal t).complete (v.session s) id = v.moved (t.complete s id) := by
  unfold Traversal.complete at clear ⊢
  show (if s.options.stepDelay.isZero || !s.active then _ else _) = _
  split at clear
  · rename_i now
    rw [if_pos now, if_pos now]
    exact congrArg (Prod.mk _) ((Commutes.completed id s).2 clear)
  · rename_i later
    rw [if_neg later, if_neg later]
    rfl

theorem accept (t : Traversal) (item : Value) (clear : v.Clear s (t.accept s item).2) :
    (v.traversal t).accept (v.session s) item = v.moved (t.accept s item) := by
  obtain ⟨entries, stack⟩ := t
  cases stack with
  | nil => rfl
  | cons frame outer =>
      unfold Traversal.accept at clear ⊢
      simp only at clear
      cases made : Emission.ofItem item with
      | error f =>
          simp only [made] at clear ⊢
          exact congrArg (Prod.mk _) (say clear)
      | ok e =>
          show (Move.go _, (v.session s).record frame.element.id e) = _
          rw [record clear.stored]
          rfl

theorem endWith (t : Traversal) (e : Ending) (clear : v.Clear s (t.endWith s e).2) :
    (v.traversal t).endWith (v.session s) e = v.moved (t.endWith s e) := by
  obtain ⟨entries, stack⟩ := t
  cases stack with
  | nil => rfl
  | cons frame outer =>
      unfold Traversal.endWith at clear ⊢
      cases e with
      | fault f =>
          simp only at clear ⊢
          split at clear
          · rename_i late
            simp only [if_pos late]
            exact congrArg (Prod.mk _) (say clear)
          · rename_i other
            simp only [if_neg other]
            exact congrArg (Prod.mk _) (say clear)
      | _ => exact complete ⟨entries, outer⟩ frame.element.id clear

theorem answer (t : Traversal) (pause : Pause) (source : Source)
    (clear : v.Clear s (t.answer s pause source).2) :
    (v.traversal t).answer (v.session s) pause (v.source source) = v.moved (t.answer s pause source) := by
  unfold Traversal.answer at clear ⊢
  simp only at clear ⊢
  rw [withSource]
  cases pause with
  | item x => exact accept _ x clear
  | ended e => exact endWith _ e clear
  | sleep length insists => rfl

theorem gather (t : Traversal) (frame : Frame) {p : Process} (known : p.Known s) (collected : List Value)
    (clear : v.Clear s (t.gather s frame p collected).2) :
    (v.traversal t).gather (v.session s) (v.frame frame) (v.process p) collected =
      v.moved (t.gather s frame p collected) := by
  have lasts := (p.resume_deeds known).lasts
  have same : v.Clear s (p.resume s).2.2 → _ := resume (v := v) known
  have put : ∀ source, (v.traversal t).withSource (v.source source) = v.traversal (t.withSource source) :=
    withSource t
  have dropped : (v.traversal t).stack.drop 1 = (t.stack.drop 1).map v.frame := List.map_drop.symm
  unfold Traversal.gather at clear ⊢
  cases resumed : p.resume s with
  | mk pause r =>
      obtain ⟨q, s₁⟩ := r
      simp only [resumed] at lasts same clear
      have before : v.Clear s s₁ := by
        cases pause with
        | ended e =>
            cases e with
            | fault f => exact clear.first lasts (s₁.say_deeds _).lasts
            | _ => exact clear
        | _ => exact clear
      rw [same before]
      cases pause with
      | item x => exact congrArg (fun t => (Move.go t, v.session s₁)) (put (.gathering q (x :: collected)))
      | sleep length insists =>
          exact congrArg (fun t => (Move.go t, v.session s₁)) (put (.gathering q collected))
      | ended e =>
          cases e with
          | fault f =>
              have failed := blockFailed (v := v) (e := frame.element) f (clear.rest lasts)
              simp only [paused]
              rw [show (v.frame frame).element = frame.element from rfl, failed, dropped]
              rfl
          | _ => exact congrArg (fun t => (Move.go t, v.session s₁)) (put (.items collected.reverse))

/-- Going on with the innermost element. -/
theorem advanceFrame {frame : Frame} {outer : List Frame} (stack : t.stack = frame :: outer)
    (rest : frame.pending = []) (known : frame.source.Known s) (clear : v.Clear s (t.advance s frame).2) :
    (v.traversal t).advance (v.session s) (v.frame frame) = v.moved (t.advance s frame) := by
  have put : ∀ source, (v.traversal t).withSource (v.source source) = v.traversal (t.withSource source) :=
    withSource t
  have source : (v.frame frame).source = v.source frame.source := rfl
  unfold Traversal.advance at clear ⊢
  rw [source]
  cases drawn : frame.source with
  | gathering p collected =>
      have known : p.Known s := known p (by rw [drawn]; rfl)
      simp only [drawn] at clear
      exact gather t frame known collected clear
  | items values =>
      cases values with
      | nil =>
          simp only [drawn] at clear
          exact endWith t .normal clear
      | cons x rest =>
          simp only [drawn] at clear
          have accepted := accept (v := v) (t.withSource (.items rest)) x clear
          rw [← put] at accepted
          exact accepted
  | sequence p =>
      have known : p.Known s := known p (by rw [drawn]; rfl)
      have lasts := (p.resume_deeds known).lasts
      have same : v.Clear s (p.resume s).2.2 → _ := resume (v := v) known
      have known' : (Source.sequence (p.resume s).2.1).Known (p.resume s).2.2 := fun q drawn => by
        cases drawn
        exact (known.of_context (p.resume_context s)).deeds (p.resume_deeds known)
      simp only [drawn] at clear
      cases resumed : p.resume s with
      | mk pause r =>
          obtain ⟨q, s₁⟩ := r
          rw [resumed] at lasts same clear known'
          have after := (Traversal.answer_moved stack rest .refl known' pause).lasts
          cases pause with
          | sleep length insists =>
              simp only [View.source, resumed]
              rw [same clear]
              exact congrArg (fun t => (Move.go t, v.session s₁)) (put (.sequence q))
          | _ =>
              simp only [View.source, resumed]
              rw [same (clear.first lasts after)]
              exact answer t _ (.sequence q) (clear.rest lasts)
  | stream p => exact congrArg (fun t => (Move.wait (v.process p) t, v.session s)) (put .busy)
  | deferred p => exact congrArg (fun t => (Move.wait (v.process p) t, v.session s)) (put .busy)
  | busy =>
      simp only [drawn] at clear
      exact endWith t .normal clear

/-- A visit after something that is told first. -/
theorem visitAfter {f : Session → Session} (told : v.Commutes f) (t : Traversal) (id : String)
    (stored : 0 < (f s).stores.size) (clear : v.Clear s (t.visit (f s) id).2) :
    (v.traversal t).visit (f (v.session s)) id = v.moved (t.visit (f s) id) := by
  obtain ⟨before, same⟩ := told s
  have after := (Traversal.visit_visited t stored id).lasts
  rw [same (clear.first before after)]
  exact visit t id (clear.rest before)

theorem step (t : Traversal) (known : t.Known s) (clear : v.Clear s (t.step s).2) :
    (v.traversal t).step (v.session s) = v.moved (t.step s) := by
  obtain ⟨entries, stack⟩ := t
  cases stack with
  | nil =>
      cases entries with
      | nil => rfl
      | cons id rest =>
          unfold Traversal.step at clear ⊢
          show (if s.active then _ else _) = _
          cases on : s.active with
          | false => rfl
          | true =>
              simp only [on, if_true] at clear ⊢
              exact visitAfter (.note (.entered id)) ⟨rest, []⟩ id clear.stored clear
  | cons frame outer =>
      cases pending : frame.pending with
      | nil =>
          have advanced := advanceFrame (v := v) (t := ⟨entries, frame :: outer⟩) rfl pending
            (known frame List.mem_cons_self)
          have pending' : (v.frame frame).pending = [] := pending
          unfold Traversal.step at clear ⊢
          simp only [traversal, List.map_cons, pending, pending'] at clear ⊢
          exact advanced clear
      | cons c rest =>
          have pending' : (v.frame frame).pending = c :: rest := pending
          have active : (v.session s).active = s.active := rfl
          unfold Traversal.step at clear ⊢
          simp only [traversal, List.map_cons, pending, pending', active] at clear ⊢
          cases on : s.active with
          | false => rfl
          | true =>
              have told : v.Commutes fun s => (s.note (.traversed c.id)).notify (.traverse c.id) :=
                (Commutes.note _).comp (.notify _)
              have stored := Nat.lt_of_lt_of_le clear.stored (told s).1.size
              simp only [on, if_true] at clear ⊢
              exact visitAfter told ⟨entries, { frame with pending := rest } :: outer⟩ c.target stored clear

end Traversals

end View

end BlockGraph
