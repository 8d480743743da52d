import BlockGraph.Proofs.Stage
/-!
Views of runs. A view puts a run behind earlier ones, or leaves out the stops that logic and listeners
ask for. What a run comes to under a view is what it comes to without it, seen in that way, as long as
nothing that is left out was of consequence.
-/
namespace BlockGraph

/-- Whether a step asks for a stop. -/
def Step.isStop : Step → Bool
  | .stop => true
  | _ => false

/-- Whether a listener asks for a stop. -/
def Reaction.isStop : Reaction → Bool
  | .stop => true
  | _ => false

/-- A way to see a run: behind the slots of earlier runs, and with or without stops. -/
structure View where
  spares : Bool
  earlier : Array Slots

namespace View

variable (v : View)

def steps (l : List Step) : List Step := l.filter fun x => !(v.spares && x.isStop)

def reactions (l : List Reaction) : List Reaction := l.filter fun x => !(v.spares && x.isStop)

def listener (l : Listener) : Listener := { l with react := fun e => v.reactions (l.react e) }

def context (c : Context) : Context := { c with run := v.earlier.size + c.run }

/-- What logic would see if there were no earlier runs. -/
def unseen (x : Sight) : Sight :=
  { x with context := { x.context with run := x.context.run - v.earlier.size } }

def logic : Logic → Logic
  | .script form steps closing => .script form (v.steps steps) (v.steps closing)
  | .constant form value => .constant form value
  | .planned form plan => .planned form fun x => v.steps (plan (v.unseen x))

def definition (d : BlockDefinition) : BlockDefinition := { d with logic := v.logic d.logic }

def registry (r : Registry) : Registry := ⟨r.blocks.map fun b => (b.1, v.definition b.2)⟩

def session (s : Session) : Session :=
  { s with
    registry := v.registry s.registry
    listener := v.listener s.listener
    stores := v.earlier ++ s.stores }

def cursor (c : Cursor) : Cursor := ⟨v.steps c.steps, v.steps c.closing, c.pending?⟩

def progress : Progress → Progress
  | .fresh logic => .fresh (v.logic logic)
  | .resting c => .resting (v.cursor c)
  | .over => .over

def process (p : Process) : Process := ⟨v.context p.context, v.progress p.progress⟩

/-- What a process comes to. -/
def paused (r : Pause × Process × Session) : Pause × Process × Session :=
  (r.1, v.process r.2.1, v.session r.2.2)

end View

/-- Whether a session comes of another without a stop being taken back. -/
structure Session.Lasts (s s' : Session) : Prop where
  size : s.stores.size ≤ s'.stores.size
  running : s'.running = s.running
  stop : s.running = true → s.stopRequested = true → s'.stopRequested = true

namespace Session.Lasts

theorem refl (s : Session) : s.Lasts s := ⟨Nat.le_refl _, rfl, fun _ stop => stop⟩

theorem trans {s₁ s₂ s₃ : Session} (h : s₁.Lasts s₂) (h' : s₂.Lasts s₃) : s₁.Lasts s₃ where
  size := Nat.le_trans h.size h'.size
  running := h'.running.trans h.running
  stop running stop := h'.stop (h.running.trans running) (h.stop running stop)

theorem of_eq {s s' : Session} (size : s'.stores.size = s.stores.size) (running : s'.running = s.running)
    (stop : s'.stopRequested = s.stopRequested) : s.Lasts s' :=
  ⟨Nat.le_of_eq size.symm, running, fun _ asked => stop.trans asked⟩

theorem kept {s s' : Session} (h : Kept s s') : s.Lasts s' :=
  ⟨Nat.le_of_eq h.size.symm, h.running, fun _ => h.stop⟩

end Session.Lasts

theorem Deeds.lasts {s s' : Session} (h : Deeds s s') : s.Lasts s' := by
  rcases h.kept with kept | gone
  · exact .kept kept
  · refine ⟨Nat.le_of_lt gone.size, gone.running.trans gone.idle.symm, fun running => ?_⟩
    rw [gone.idle] at running
    cases running

namespace View

/-- Whether a view leaves nothing out that was of consequence on the way from one session to another:
if stops are left out, none was asked for by then. -/
structure Clear (v : View) (s s' : Session) : Prop where
  stored : 0 < s.stores.size
  calm : v.spares = true → s.running = true ∧ s'.stopRequested = false

namespace Clear

variable {v : View} {s₁ s₂ s₃ : Session}

theorem first (h : v.Clear s₁ s₃) (before : s₁.Lasts s₂) (after : s₂.Lasts s₃) : v.Clear s₁ s₂ := by
  refine ⟨h.stored, fun spares => ⟨(h.calm spares).1, ?_⟩⟩
  obtain ⟨running, calm⟩ := h.calm spares
  cases stop : s₂.stopRequested with
  | false => rfl
  | true => rw [after.stop (before.running.trans running) stop] at calm; cases calm

theorem rest (h : v.Clear s₁ s₃) (before : s₁.Lasts s₂) : v.Clear s₂ s₃ :=
  ⟨Nat.lt_of_lt_of_le h.stored before.size, fun spares =>
    ⟨before.running.trans (h.calm spares).1, (h.calm spares).2⟩⟩

end Clear

/-! ### Sessions -/

section Sessions

variable (v : View)

theorem withSlots (s : Session) (run : Nat) (slots : Slots) :
    (v.session s).withSlots (v.earlier.size + run) slots = v.session (s.withSlots run slots) := by
  have stores : (v.earlier ++ s.stores).setIfInBounds (v.earlier.size + run) slots =
      v.earlier ++ s.stores.setIfInBounds run slots := by
    rw [Array.setIfInBounds_append_right (Nat.le_add_right _ _), Nat.add_sub_cancel_left]
  exact congrArg (fun stores => { v.session s with stores }) stores

theorem slotsOf (s : Session) (run : Nat) :
    (v.session s).slotsOf (v.earlier.size + run) = s.slotsOf run := by
  show (v.earlier ++ s.stores).getD (v.earlier.size + run) [] = s.stores.getD run []
  rw [Array.getD_eq_getD_getElem?, Array.getElem?_append_right (Nat.le_add_right _ _),
    Nat.add_sub_cancel_left, Array.getD_eq_getD_getElem?]

theorem run {s : Session} (stored : 0 < s.stores.size) :
    (v.session s).run = v.earlier.size + s.run := by
  simp only [Session.run, session, Array.size_append]
  omega

theorem slots {s : Session} (stored : 0 < s.stores.size) : (v.session s).slots = s.slots := by
  rw [Session.slots, run v stored, slotsOf, Session.slots]

theorem cleared (s : Session) : (v.session s).cleared = v.session s.cleared :=
  congrArg (fun stores => { v.session s.cleared with stores }) Array.push_append

theorem reset? (s : Session) : (v.session s).reset? = s.reset?.map v.session := by
  rw [Session.reset?, Session.reset?, cleared]
  show (if s.running then _ else _) = _
  split <;> rfl

theorem find? (r : Registry) (type : String) :
    (v.registry r).find? type = (r.find? type).map v.definition := by
  obtain ⟨blocks⟩ := r
  show (blocks.map fun b => (b.1, v.definition b.2)).lookup type = (blocks.lookup type).map v.definition
  induction blocks with
  | nil => rfl
  | cons b rest ih =>
      obtain ⟨name, d⟩ := b
      simp only [List.map_cons, List.lookup_cons, ih]
      split <;> rfl

theorem unregister (r : Registry) (type : String) :
    ((v.registry r).unregister type).2 = v.registry (r.unregister type).2 := by
  refine congrArg Registry.mk ?_
  show List.filter _ (List.map _ _) = List.map _ (List.filter _ _)
  rw [List.filter_map]
  rfl

end Sessions

/-! ### Telling -/

/-- Whether a way to tell a listener is the same under a view. -/
def Tells (v : View) (tell : Session.Telling) : Prop :=
  ∀ s options l e, v.Clear s (tell s options l e) →
    tell (v.session s) options (v.listener l) e = v.session (tell s options l e)

section Telling

variable {v : View} {s : Session}

theorem Tells.logBy {tell : Session.Telling} (h : v.Tells tell) {line : String}
    (clear : v.Clear s (Session.logBy tell s line)) :
    Session.logBy tell (v.session s) line = v.session (Session.logBy tell s line) :=
  h { s with log := s.log.push line } s.options s.listener (.log line) ⟨clear.stored, clear.calm⟩

theorem Tells.stopBy {tell : Session.Telling} (h : v.Tells tell)
    (clear : v.Clear s (Session.stopBy tell s)) :
    Session.stopBy tell (v.session s) = v.session (Session.stopBy tell s) := by
  unfold Session.stopBy at clear ⊢
  show (if s.active then _ else _) = _
  split at clear
  · rename_i on
    rw [if_pos on, if_pos on]
    exact h.logBy (s := { s with stopRequested := true }) ⟨clear.stored, clear.calm⟩
  · rename_i off
    rw [if_neg off, if_neg off]

/-- Asking for a stop is of consequence while a run is active, and only then. -/
theorem stopBy_inactive {tell : Session.Telling} (discreet : Session.Discreet tell) {s' : Session}
    (after : (Session.stopBy tell s).Lasts s') (clear : v.Clear s s') (spares : v.spares = true) :
    Session.stopBy tell s = s := by
  unfold Session.stopBy at after ⊢
  split
  · rename_i on
    rw [if_pos on] at after
    obtain ⟨running, calm⟩ := clear.calm spares
    have logged := (discreet.logBy { s with stopRequested := true }
      "Execution stopped by user request").lasts
    have asked := logged.stop running rfl
    rw [after.stop (logged.running.trans running) asked] at calm
    cases calm
  · rfl

/-- The reactions of a listener come to the same under a view. -/
theorem Tells.react {tell : Session.Telling} (h : v.Tells tell) (discreet : Session.Discreet tell) (e : Event)
    (reactions : List Reaction) (s : Session)
    (clear : v.Clear s (Session.react (Session.stopBy tell) e s reactions)) :
    Session.react (Session.stopBy tell) e (v.session s) (v.reactions reactions) =
      v.session (Session.react (Session.stopBy tell) e s reactions) := by
  induction reactions generalizing s with
  | nil => rfl
  | cons r rest ih =>
      cases r with
      | stop =>
          have before := (discreet.stopBy s).lasts
          have after := (Session.react_deeds discreet.stopBy e rest (Session.stopBy tell s)).lasts
          cases spares : v.spares with
          | true =>
              have same := stopBy_inactive discreet after clear spares
              have left : v.reactions (.stop :: rest) = v.reactions rest := by
                simp only [View.reactions, Reaction.isStop, spares, Bool.true_and, Bool.not_true,
                  List.filter_cons, Bool.false_eq_true, if_false]
              rw [left, Session.react, same]
              rw [Session.react, same] at clear
              exact ih s clear
          | false =>
              have left : v.reactions (.stop :: rest) = .stop :: v.reactions rest := by
                simp only [View.reactions, spares, Bool.false_and, Bool.not_false, List.filter_cons, if_true]
              rw [left, Session.react, Session.react, h.stopBy (clear.first before after)]
              exact ih _ (clear.rest before)
      | reset =>
          have left : v.reactions (.reset :: rest) = .reset :: v.reactions rest := by
            simp only [View.reactions, Reaction.isStop, Bool.and_false, Bool.not_false, List.filter_cons,
              if_true]
          rw [left, Session.react, Session.react, View.reset?]
          rw [Session.react] at clear
          cases reset : s.reset? with
          | none => rfl
          | some s' =>
              simp only [reset, Option.map_some] at clear ⊢
              have idle : s.running = false ∧ s' = s.cleared := by
                unfold Session.reset? at reset
                split at reset
                · cases reset
                · rename_i idle
                  exact ⟨Bool.eq_false_iff.mpr idle, (Option.some.inj reset).symm⟩
              have before : s.Lasts s' := by
                rw [idle.2]
                exact (Relation.ReflTransGen.single (Deed.reset idle.1) |> Deeds.lasts)
              exact ih s' (clear.rest before)
      | «raise» f =>
          have left : v.reactions (.raise f :: rest) = .raise f :: v.reactions rest := by
            simp only [View.reactions, Reaction.isStop, Bool.and_false, Bool.not_false, List.filter_cons,
              if_true]
          rw [left, Session.react, Session.react]
          rfl

theorem tell (depth : Nat) : v.Tells (Session.tell depth) := by
  induction depth with
  | zero => exact fun _ _ _ _ _ => rfl
  | succ depth ih =>
      intro s options l e clear
      rw [Session.tell] at clear ⊢
      rw [Session.tell]
      split at clear
      · rename_i hears
        rw [if_pos hears, if_pos hears]
        exact ih.react (Session.tell_discreet depth) e (l.react e)
          { s with heard := s.heard.push (l.number, e) } ⟨clear.stored, clear.calm⟩
      · rename_i deaf
        rw [if_neg deaf, if_neg deaf]

theorem say {line : String} (clear : v.Clear s (s.say line)) :
    (v.session s).say line = v.session (s.say line) := (tell 2).logBy clear

theorem notify {e : Event} (clear : v.Clear s (s.notify e)) :
    (v.session s).notify e = v.session (s.notify e) := tell 2 s s.options s.listener e clear

end Telling

end View

end BlockGraph
