import BlockGraph.Proofs.LikeMoves
/-!
Sessions apart from who listens. A listener that only listens or raises leaves nothing behind but what it has heard
and what is reported of it, and a run without diagnostics lacks nothing but their lines in its log.
-/
namespace BlockGraph

/-- Whether a listener does nothing when it is told something, but that it may raise. -/
def Listener.Raises (l : Listener) : Prop := ∀ e, ∀ x ∈ l.react e, ∃ f, x = .raise f

theorem Listener.silent_raises : silent.Raises := fun _ _ member => absurd member List.not_mem_nil

/-- The budgets of a run, and nothing else. -/
def Options.budgets (o : Options) : Options := { o with detectCycles := false, heard := [] }

/-- Options as they are when nobody listens; with `off` they also leave out diagnostics. -/
def Options.unheard (off : Bool) (o : Options) : Options :=
  { o with detectCycles := o.detectCycles && !off, heard := [] }

namespace Session

theorem findings_diagnosis (g : Graph) : ∀ line ∈ findings g, isDiagnosis line = true := by
  intro line found
  unfold findings at found
  rcases List.mem_append.mp found with cycles | orphans
  · split at cycles
    · cases cycles
    · rcases List.mem_cons.mp cycles with rfl | member
      · simp [isDiagnosis, List.isPrefixOf]
      · obtain ⟨_, _, rfl⟩ := List.mem_map.mp member
        simp [isDiagnosis, List.isPrefixOf]
  · split at orphans
    · cases orphans
    · rw [List.mem_singleton.mp orphans]
      simp [isDiagnosis, List.isPrefixOf]

/-- All that is known of a session apart from who listens to it and what was reported to the operator. With `off`,
its log does without what was found out about the graph. -/
def unheard (off : Bool) (s : Session) : Session :=
  { s with
    options := s.options.budgets
    listener := .silent
    log := if off then s.log.filter (!isDiagnosis ·) else s.log
    journal := #[]
    heard := #[] }

/-! ### Listeners that raise -/

theorem react_raises (stop : Session → Session) (e : Event) (s : Session) {reactions : List Reaction}
    (raises : ∀ x ∈ reactions, ∃ f, x = .raise f) : ∃ journal, react stop e s reactions = { s with journal } := by
  cases reactions with
  | nil => exact ⟨s.journal, rfl⟩
  | cons x rest =>
      obtain ⟨f, rfl⟩ := raises x List.mem_cons_self
      exact ⟨_, rfl⟩

theorem tell_raises (depth : Nat) (s : Session) (o : Options) {l : Listener} (raises : l.Raises) (e : Event) :
    ∃ journal heard, tell depth s o l e = { s with journal, heard } := by
  cases depth with
  | zero => exact ⟨s.journal, s.heard, rfl⟩
  | succ depth =>
      unfold tell
      split
      · obtain ⟨journal, same⟩ :=
          react_raises (stopBy (tell depth)) e { s with heard := s.heard.push (l.number, e) } (raises e)
        exact ⟨journal, _, same⟩
      · exact ⟨s.journal, s.heard, rfl⟩

/-! ### Sessions that differ in who listens -/

/-- Whether two sessions are the same apart from who listens, who may raise but do nothing else. With `off`, the
second does without diagnostics, as its options say once it is `armed` by a run; all that the first logs of them
was found out about its graph. -/
structure Echoes (g : Graph) (off armed : Bool) (s t : Session) : Prop where
  same : t.unheard false = s.unheard off
  raises : s.listener.Raises
  raises' : t.listener.Raises
  found : ∀ line ∈ s.log, isDiagnosis line = true → line ∈ findings g
  armed : armed = true → t.options.detectCycles = (s.options.detectCycles && !off)

namespace Echoes

variable {g : Graph} {off armed : Bool} {s t : Session}

theorem log (h : s.Echoes g off armed t) : t.log = if off then s.log.filter (!isDiagnosis ·) else s.log :=
  congrArg Session.log h.same

theorem budgets (h : s.Echoes g off armed t) : t.options.budgets = s.options.budgets :=
  (congrArg Session.options h.same :)

theorem graph (h : s.Echoes g off armed t) : t.graph = s.graph := (congrArg Session.graph h.same :)

theorem registry (h : s.Echoes g off armed t) : t.registry = s.registry := (congrArg Session.registry h.same :)

theorem maxSteps (h : s.Echoes g off armed t) : t.options.maxSteps = s.options.maxSteps :=
  (congrArg Options.maxSteps h.budgets :)

/-- What was heard and reported is left open. -/
theorem heard (h : s.Echoes g off armed t) (journal journal' : Array JournalEntry) (heard heard' : Array (Nat × Event)) :
    { s with journal, heard }.Echoes g off armed { t with journal := journal', heard := heard' } :=
  ⟨h.same, h.raises, h.raises', h.found, h.armed⟩

/-- Nothing depends on who is told of something in either session. -/
theorem tell (h : s.Echoes g off armed t) (depth : Nat) (o o' : Options) {l l' : Listener} (raises : l.Raises)
    (raises' : l'.Raises) (e : Event) : (Session.tell depth s o l e).Echoes g off armed (Session.tell depth t o' l' e) := by
  obtain ⟨journal, heard, told⟩ := tell_raises depth s o raises e
  obtain ⟨journal', heard', told'⟩ := tell_raises depth t o' raises' e
  rw [told, told']
  exact h.heard journal journal' heard heard'

/-- What one more line in the log tells of the graph was found out before, or just now. -/
theorem found_push (h : s.Echoes g off armed t) {line : String} (known : isDiagnosis line = true → line ∈ findings g) :
    ∀ l ∈ s.log.push line, isDiagnosis l = true → l ∈ findings g := by
  intro l member
  rcases Array.mem_push.mp member with old | rfl
  · exact h.found l old
  · exact known

/-- A line that both sessions log. -/
theorem logs (h : s.Echoes g off armed t) {line : String} (shows : (off && isDiagnosis line) = false)
    (known : isDiagnosis line = true → line ∈ findings g) :
    (s.say line).Echoes g off armed (t.say line) := by
  have logs : { s with log := s.log.push line }.Echoes g off armed { t with log := t.log.push line } := by
    refine ⟨?_, h.raises, h.raises', h.found_push known, h.armed⟩
    have pushed : t.log.push line = if off then (s.log.push line).filter (!isDiagnosis ·) else s.log.push line := by
      rw [h.log]
      cases off with
      | false => rfl
      | true =>
          have keeps : (!isDiagnosis line) = true := by
            rw [Bool.true_and] at shows
            rw [shows, Bool.not_false]
          exact (Array.filter_push_of_pos (p := (!isDiagnosis ·)) keeps (Array.size_push line)).symm
    have rest := congrArg (fun x : Session => { x with log := t.log.push line }) h.same
    exact rest.trans (congrArg (fun log => { s.unheard off with log }) pushed)
  exact logs.tell 2 _ _ h.raises h.raises' _

/-- A line that only the first session logs. -/
theorem skips (h : s.Echoes g true armed t) {line : String} (known : line ∈ findings g) :
    (s.say line).Echoes g true armed t := by
  have logs : { s with log := s.log.push line }.Echoes g true armed t := by
    refine ⟨?_, h.raises, h.raises', h.found_push fun _ => known, h.armed⟩
    have drops : ¬(!isDiagnosis line) = true := by
      rw [findings_diagnosis g line known]
      decide
    have pushed : s.log.filter (!isDiagnosis ·) = (s.log.push line).filter (!isDiagnosis ·) :=
      (Array.filter_push_of_neg (p := (!isDiagnosis ·)) drops (Array.size_push line)).symm
    exact h.same.trans (congrArg (fun log => { s.unheard true with log }) pushed)
  obtain ⟨journal, heard, told⟩ := tell_raises 2 { s with log := s.log.push line } s.options h.raises (.log line)
  unfold Session.say Session.logBy
  rw [told]
  exact logs.heard journal t.journal heard t.heard

/-- Who listens is told alike of what was found out about a graph. -/
theorem finds (h : s.Echoes g false armed t) {lines : List String} (known : ∀ line ∈ lines, line ∈ findings g) :
    (lines.foldl say s).Echoes g false armed (lines.foldl say t) := by
  induction lines generalizing s t with
  | nil => exact h
  | cons line rest ih =>
      exact ih (h.logs rfl fun _ => known line List.mem_cons_self) fun line member =>
        known line (List.mem_cons_of_mem _ member)

/-- A session that does without diagnostics comes to the same as one that does not. -/
theorem ignores (h : s.Echoes g true armed t) {lines : List String} (known : ∀ line ∈ lines, line ∈ findings g) :
    (lines.foldl say s).Echoes g true armed t := by
  induction lines generalizing s with
  | nil => exact h
  | cons line rest ih =>
      exact ih (h.skips (known line List.mem_cons_self)) fun line member => known line (List.mem_cons_of_mem _ member)

/-- Whether or not the graph is looked into before a run, it comes to the same. -/
theorem diagnosed (h : s.Echoes g off true t) (graph : s.graph = g) :
    (if s.options.detectCycles then s.diagnose else s).Echoes g off true
      (if t.options.detectCycles then t.diagnose else t) := by
  rw [h.armed rfl, s.diagnose_eq, t.diagnose_eq, h.graph, graph]
  cases off with
  | false =>
      rw [Bool.not_false, Bool.and_true]
      split
      · exact h.finds fun _ member => member
      · exact h
  | true =>
      rw [Bool.not_true, Bool.and_false]
      split
      · exact h.ignores fun _ member => member
      · exact h

theorem toldAs (h : s.Echoes g off armed t) : t = s.toldAs t := by
  have same := h.same
  obtain ⟨graph, registry, o, l, bindings, running, stopRequested, status, stores, log, processed, steps, started, ended,
    error?, errorCount, successCount, draws, journal, heard, history⟩ := t
  simp only [Session.unheard, Session.mk.injEq] at same
  simp only [Session.toldAs, same]

/-- Apart from who listens, sessions are the same in all that runs go by. -/
theorem likeness (g : Graph) (off armed : Bool) : Likeness (Echoes g off armed) where
  toldAs h := h.toldAs
  put {s t s'} h told := by
    have registry : s'.registry = s.registry := (congrArg Session.registry told.symm :)
    have options : s'.options = s.options := (congrArg Session.options told.symm :)
    have listener : s'.listener = s.listener := (congrArg Session.listener told.symm :)
    have log : s'.log = s.log := (congrArg Session.log told.symm :)
    refine ⟨?_, listener ▸ h.raises, h.raises', log ▸ h.found, fun set => options ▸ h.armed set⟩
    have same : (s'.toldAs t).unheard false =
        { s'.unheard off with
          registry := (t.unheard false).registry, options := (t.unheard false).options
          log := (t.unheard false).log } := rfl
    rw [same, h.same]
    simp only [Session.unheard, registry, options, log]
  delays h := (congrArg Options.stepDelay h.budgets :)
  patience h := (congrArg Options.blockTimeout h.budgets :)
  lasts h := (congrArg Options.maxTime h.budgets :)
  more h := Int.le_of_eq h.maxSteps.symm
  checked {s t} h := by
    unfold Session.checkAll
    rw [h.graph]
    exact congrArg (s.graph.elements.forM ·) (funext fun e => by
      rw [Session.checkElement, h.registry, Session.checkElement])
  unregistered type h := by
    have same := congrArg (fun s : Session => { s with registry := (s.registry.unregister type).2 }) h.same
    exact ⟨same, h.raises, h.raises', h.found, h.armed⟩
  reported lines h := h.heard _ _ _ _
  said line shows h := h.logs (by rw [shows, Bool.and_false]) fun found => by
    rw [shows] at found
    cases found
  notified e h := h.tell 2 _ _ h.raises h.raises' e

theorem roomy (h : s.Echoes g off armed t) : s.Room t := fun _ => .inl h.maxSteps

theorem disarm (h : s.Echoes g off true t) : s.Echoes g off armed t := { h with armed := fun _ => h.armed rfl }

/-! ### What callers do to a session -/

theorem cleared (h : s.Echoes g off armed t) : s.cleared.Echoes g off armed t.cleared := by
  refine ⟨?_, h.raises, h.raises', fun _ member => absurd member (Array.not_mem_empty _), h.armed⟩
  have cleared : ∀ (off : Bool) (s : Session), s.cleared.unheard off = (s.unheard off).cleared := by
    intro off s
    cases off <;> rfl
  rw [cleared, cleared, h.same]

theorem reset (h : s.Echoes g off armed t) : (s.reset?.getD s).Echoes g off armed (t.reset?.getD t) := by
  unfold Session.reset?
  rw [(likeness g off armed).running h]
  split
  · exact h
  · exact h.cleared

section Request

variable {o o' : Options} {l l' : Listener}

/-- A session of which the last run is forgotten for another one. -/
theorem spoiled (h : s.Echoes g off armed t) (twins : o'.unheard false = o.unheard off) (raises : l.Raises)
    (raises' : l'.Raises) : Echoes g off true { s.cleared with options := o, listener := l }
      { t.cleared with options := o', listener := l' } := by
  have budgets : o'.budgets = o.budgets := (congrArg Options.budgets twins :)
  have switched : (o'.detectCycles && !false) = (o.detectCycles && !off) := (congrArg Options.detectCycles twins :)
  refine ⟨?_, raises, raises', h.cleared.found, fun _ => ?_⟩
  · have same : { t.cleared.unheard false with options := o'.budgets } =
        { s.cleared.unheard off with options := o.budgets } := by rw [h.cleared.same, budgets]
    exact same
  · rwa [Bool.not_false, Bool.and_true] at switched

/-- A session that is taken for a run. -/
theorem taken (h : s.Echoes g off armed t) (twins : o'.unheard false = o.unheard off) (raises : l.Raises)
    (raises' : l'.Raises) (bindings : Entries) :
    (s.taken o l bindings).Echoes g off true (t.taken o' l' bindings) := by
  have like := likeness g off true
  have begun := like.update (h.spoiled twins raises raises') (fun s =>
    { s with bindings, running := true, status := .running, started := true }) fun _ _ => rfl
  have described : o'.describe = o.describe := (congrArg Options.describe twins :)
  let size (s : Session) := "Executing program with " ++ s.graph.elements.length.repr ++ " elements and " ++
    s.graph.connections.length.repr ++ " connections"
  have told : ∀ {s t : Session}, s.Echoes g off true t →
      ((s.report .info "engine" (size s)).say ("Starting execution with options - " ++ o.describe)).Echoes g off true
        ((t.report .info "engine" (size t)).say ("Starting execution with options - " ++ o.describe)) := by
    intro s t h
    have same : size t = size s := like.reads h size fun _ _ => rfl
    rw [same]
    exact like.said _ (by simp [isDiagnosis, List.isPrefixOf]) (like.report h _ _ _)
  unfold Session.taken
  rw [described]
  exact told begun

end Request

end Echoes

end Session

end BlockGraph
