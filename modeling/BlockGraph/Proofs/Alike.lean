import BlockGraph.Proofs.LikeMoves
/-!
Sessions that are alike: one may take more steps than the other, and other lines may have been logged and
told in it, but all else is the same. To be alike is a likeness, so that whatever logic, listeners that only
listen and a traversal do in the one they do in the other, until the one has used up its steps.
-/
namespace BlockGraph

/-- Whether a listener only listens. -/
def Listener.Records (l : Listener) : Prop := ∀ e, l.react e = []

namespace Session

/-- A session with another limit on its steps, in which other things were logged and told. -/
def but (s : Session) (limit : Int) (log : Array String) (heard : Array (Nat × Event)) : Session :=
  { s with options := { s.options with maxSteps := limit }, log, heard }

/-- Whether two sessions differ in nothing but their limits and what was logged and told, other than of
visits. The second may take at least as many steps. -/
structure Alike (s t : Session) : Prop where
  same : ∃ limit log heard, t = s.but limit log heard
  visits : t.heardVisits = s.heardVisits
  records : s.listener.Records
  more : s.options.maxSteps ≤ t.options.maxSteps

/-- A listener that only listens does nothing when it is told. -/
theorem notify_hears {s : Session} (records : s.listener.Records) (e : Event) : s.notify e = s.hears e := by
  unfold notify tell hears
  rw [records e]
  rfl

theorem traversing_active {s : Session} (c : Connection) : (s.traversing c).active = s.active := by
  unfold traversing hears
  split <;> rfl

namespace Alike

variable {s t : Session}

/-! ### Telling -/

/-- Something is heard in both sessions; it is the same if it tells of a visit. -/
theorem heard (h : s.Alike t) {x y : Nat × Event} (kind : y.2.ofVisit = x.2.ofVisit)
    (visit : x.2.ofVisit = true → y = x) :
    Alike { s with heard := s.heard.push x } { t with heard := t.heard.push y } := by
  obtain ⟨⟨limit, log, heard, rfl⟩, visits, records, more⟩ := h
  refine ⟨⟨limit, log, heard.push y, rfl⟩, ?_, records, more⟩
  have visits : heard.toList.filter (·.2.ofVisit) = s.heard.toList.filter (·.2.ofVisit) := visits
  simp only [heardVisits, but, Array.toList_push, List.filter_append, List.filter_cons, List.filter_nil,
    visits, kind]
  split
  · rename_i told
    rw [visit told]
  · rfl

/-- A listener that only listens is told in both sessions. -/
theorem tell (h : s.Alike t) (depth : Nat) {o o' : Options} (hears : o'.heard = o.heard) {l : Listener}
    (records : l.Records) {e e' : Event} (kind : e'.kind = e.kind) (visit : e.ofVisit = true → e' = e) :
    (Session.tell depth s o l e).Alike (Session.tell depth t o' l e') := by
  have told : e'.ofVisit = e.ofVisit := by
    cases e <;> cases e' <;> first | rfl | cases kind
  cases depth with
  | zero => exact h
  | succ depth =>
      rw [Session.tell, Session.tell, hears, kind]
      split
      · rw [records e, records e']
        exact h.heard told fun tells => congrArg (Prod.mk l.number) (visit tells)
      · exact h

theorem logged (h : s.Alike t) (line line' : String) :
    Alike { s with log := s.log.push line } { t with log := t.log.push line' } := by
  obtain ⟨⟨limit, log, heard, rfl⟩, visits, records, more⟩ := h
  exact ⟨⟨limit, log.push line', heard, rfl⟩, visits, records, more⟩

/-- Lines that are logged need not be the same. -/
theorem logBy (h : s.Alike t) (depth : Nat) (line line' : String) :
    (Session.logBy (Session.tell depth) s line).Alike (Session.logBy (Session.tell depth) t line') := by
  obtain ⟨limit, log, heard, rfl⟩ := h.same
  have hears : (s.but limit log heard).options.heard = s.options.heard := rfl
  have kind : (Event.log line').kind = (Event.log line).kind := rfl
  exact (h.logged line line').tell depth hears h.records kind nofun

theorem say (h : s.Alike t) (line : String) : (s.say line).Alike (t.say line) := h.logBy 2 line line

theorem notify (h : s.Alike t) (e : Event) : (s.notify e).Alike (t.notify e) := by
  obtain ⟨limit, log, heard, rfl⟩ := h.same
  exact h.tell 2 rfl h.records rfl fun _ => rfl

/-- Sessions that are alike stay so under the small moves of runs. -/
theorem likeness : Likeness Alike where
  toldAs := by
    rintro s _ ⟨⟨limit, log, heard, rfl⟩, _⟩
    rfl
  put := by
    rintro s _ s' ⟨⟨limit, log, heard, rfl⟩, visits, records, more⟩ same
    rw [← same]
    exact ⟨⟨limit, log, heard, rfl⟩, visits, records, more⟩
  delays := by
    rintro s _ ⟨⟨limit, log, heard, rfl⟩, _⟩
    rfl
  patience := by
    rintro s _ ⟨⟨limit, log, heard, rfl⟩, _⟩
    rfl
  lasts := by
    rintro s _ ⟨⟨limit, log, heard, rfl⟩, _⟩
    rfl
  more := Alike.more
  checked := by
    rintro s _ ⟨⟨limit, log, heard, rfl⟩, _⟩
    rfl
  unregistered := by
    rintro s _ type ⟨⟨limit, log, heard, rfl⟩, visits, records, more⟩
    exact ⟨⟨limit, log, heard, rfl⟩, visits, records, more⟩
  reported := by
    rintro s _ lines ⟨⟨limit, log, heard, rfl⟩, visits, records, more⟩
    exact ⟨⟨limit, log, heard, rfl⟩, visits, records, more⟩
  said line _ h := h.say line
  notified e h := h.notify e

theorem active (h : s.Alike t) : t.active = s.active := likeness.active h

theorem running (h : s.Alike t) : t.running = s.running := likeness.running h

theorem registry (h : s.Alike t) : t.registry = s.registry := by
  obtain ⟨limit, log, heard, rfl⟩ := h.same
  rfl

/-! ### Listeners that do more than listen -/

theorem stopBy (h : s.Alike t) (depth : Nat) :
    (Session.stopBy (Session.tell depth) s).Alike (Session.stopBy (Session.tell depth) t) := by
  unfold Session.stopBy
  rw [h.active]
  split
  · exact (likeness.asked h).logBy depth _ _
  · exact h

/-- While a run is under way, other listeners may do what they like, and do it in both sessions. -/
theorem react (h : s.Alike t) (depth : Nat) (running : s.running = true) (e : Event)
    (reactions : List Reaction) :
    (Session.react (Session.stopBy (Session.tell depth)) e s reactions).Alike
      (Session.react (Session.stopBy (Session.tell depth)) e t reactions) := by
  induction reactions generalizing s t with
  | nil => exact h
  | cons r rest ih =>
      have warned : ∀ kind message, (s.warn e kind message).Alike (t.warn e kind message) :=
        fun _ _ => likeness.report h _ _ _
      cases r with
      | stop =>
          have stops := ((tell_discreet depth).stopBy s).kept_of_running running
          exact ih (h.stopBy depth) (stops.running.trans running)
      | reset =>
          have busy : s.reset? = none := if_pos running
          have busy' : t.reset? = none := if_pos (h.running.trans running)
          rw [Session.react, Session.react, busy, busy']
          exact warned _ _
      | «raise» f => exact warned _ _

theorem told (h : s.Alike t) (running : s.running = true) (o : Options) (l : Listener) (e : Event) :
    (Session.tell 2 s o l e).Alike (Session.tell 2 t o l e) := by
  rw [Session.tell, Session.tell]
  split
  · exact (h.heard rfl fun _ => rfl).react 1 running e _
  · exact h

/-! ### Runs -/

theorem diagnose (h : s.Alike t) : s.diagnose.Alike t.diagnose := by
  have graph : t.graph = s.graph := likeness.reads h Session.graph fun _ _ => rfl
  rw [Session.diagnose_eq, Session.diagnose_eq, graph]
  generalize Session.findings s.graph = lines
  clear graph
  induction lines generalizing s t with
  | nil => exact h
  | cons line rest ih => exact ih (h.say line)

theorem opening (h : s.Alike t) : Likens Alike s.opening t.opening := by
  have detects : t.options.detectCycles = s.options.detectCycles := by
    obtain ⟨limit, log, heard, rfl⟩ := h.same
    rfl
  refine likeness.opening ?_
  rw [detects]
  split
  · exact h.diagnose
  · exact h

/-- Room is left when a connection is traversed. -/
theorem room_traversing (h : s.Alike t) (room : s.Room t) (c : Connection) :
    ((s.note (.traversed c.id)).notify (.traverse c.id)).Room
      ((t.note (.traversed c.id)).notify (.traverse c.id)) := by
  obtain ⟨limit, log, heard, rfl⟩ := h.same
  have told : ∀ s : Session, s.listener.Records →
      ((s.note (.traversed c.id)).notify (.traverse c.id)) = s.traversing c := fun s records =>
    notify_hears (s := s.note (.traversed c.id)) records _
  rw [told s h.records, told (s.but limit log heard) h.records]
  unfold Room
  rw [traversing_active, traversing_options, traversing_options, traversing_steps]
  exact room

/-- As long as there is room, a traversal goes on alike. -/
theorem step (h : s.Alike t) (room : s.Room t) (walk : Traversal) : Likens Alike (walk.step s) (walk.step t) :=
  likeness.step registry h room (h.room_traversing room) walk

end Alike

end Session

end BlockGraph
