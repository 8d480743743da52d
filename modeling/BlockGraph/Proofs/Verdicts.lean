import BlockGraph.Proofs.Ledger
/-!
Verdicts: what a session says of its last run when no execution is under way, and what the listeners of executions
are told of their failing. Both are read off the ledger: a session runs exactly while an execution waits for it,
and an execution that ends has told its listener all that it will be told.
-/
namespace BlockGraph

/-- What a session says of its current or last run. -/
structure Verdict where
  status : Status
  error? : Option String
  errorCount : Nat
  successCount : Nat

namespace Verdict

/-- Of a run that came to no end of its own, or of none at all. -/
def bare (status : Status) : Verdict := ⟨status, none, 0, 0⟩

def completed : Verdict := ⟨.completed, none, 0, 1⟩

def failed (f : RunFault) : Verdict := ⟨.failed, some f.message, 1, 0⟩

end Verdict

/-- The verdicts that an execution may leave. -/
inductive Outcome.Yields : Outcome → Verdict → Prop
  | completed : Yields .finished .completed
  | stopped : Yields .finished (.bare .stopped)
  | cancelled : Yields .cancelled (.bare .stopped)
  | failed (f : RunFault) : Yields (.failed f) (.failed f)

namespace Session

def verdict (s : Session) : Verdict := ⟨s.status, s.error?, s.errorCount, s.successCount⟩

/-- Whether a session goes on to say what it said, or was reset while it did not run. -/
inductive Upholds (s s' : Session) : Prop
  | kept : s'.running = s.running → s'.verdict = s.verdict → s'.run = s.run →
      (s.running = false → s'.stopRequested = s.stopRequested) → Upholds s s'
  | forgot : s.running = false → s'.running = false → s'.stopRequested = false → s'.verdict = .bare .idle →
      Upholds s s'

namespace Upholds

variable {s s' s₁ s₂ s₃ : Session}

theorem same (running : s'.running = s.running) (verdict : s'.verdict = s.verdict) (run : s'.run = s.run)
    (stopRequested : s'.stopRequested = s.stopRequested) : Upholds s s' :=
  .kept running verdict run fun _ => stopRequested

theorem trans (h : Upholds s₁ s₂) (h' : Upholds s₂ s₃) : Upholds s₁ s₃ := by
  cases h with
  | kept running verdict run stop =>
      cases h' with
      | kept running' verdict' run' stop' =>
          refine .kept (running'.trans running) (verdict'.trans verdict) (run'.trans run) fun idle => ?_
          exact (stop' (running.trans idle)).trans (stop idle)
      | forgot idle idle' stop' verdict' => exact .forgot (running.symm.trans idle) idle' stop' verdict'
  | forgot idle idle' stop verdict =>
      cases h' with
      | kept running' verdict' run' stop' =>
          exact .forgot idle (running'.trans idle') ((stop' idle').trans stop) (verdict'.trans verdict)
      | forgot _ idle'' stop' verdict' => exact .forgot idle idle'' stop' verdict'

/-- A session that runs goes on to say what it said. -/
theorem held (h : Upholds s s') (on : s.running = true) :
    s'.running = true ∧ s'.verdict = s.verdict ∧ s'.run = s.run := by
  cases h with
  | kept running verdict run _ => exact ⟨running.trans on, verdict, run⟩
  | forgot idle =>
      rw [on] at idle
      cases idle

theorem visits : Visits Upholds where
  refl _ := same rfl rfl rfl rfl
  trans := trans
  reported _ _ := same rfl rfl rfl rfl
  stopped s _ active := by
    refine .kept rfl rfl rfl fun idle => ?_
    rw [running_of_active active] at idle
    cases idle
  told _ _ _ := same rfl rfl rfl rfl
  reset _ idle := .forgot idle idle rfl rfl
  logged _ _ _ := same rfl rfl rfl rfl
  heard _ _ _ _ := same rfl rfl rfl rfl
  noted _ _ := same rfl rfl rfl rfl
  altered _ _ _ := same rfl rfl rfl rfl
  counted _ _ := same rfl rfl rfl rfl
  joined _ _ _ := same rfl rfl rfl rfl
  opened s _ := same rfl rfl (s.withSlots_run _ _) rfl

theorem say (s : Session) (line : String) : Upholds s (s.say line) := visits.toReacts.say (same rfl rfl rfl rfl)

end Upholds

/-- A run that begins has nothing to say yet. -/
theorem taken_verdict (s : Session) (options : Options) (listener : Listener) (bindings : Entries) :
    (s.taken options listener bindings).verdict = .bare .running := by
  have said := Upholds.say
    ({ s.cleared with options, listener, bindings, running := true, status := .running, started := true }.report
      .info "engine" ("Executing program with " ++ s.graph.elements.length.repr ++ " elements and " ++
        s.graph.connections.length.repr ++ " connections"))
    ("Starting execution with options - " ++ options.describe)
  exact (said.held rfl).2.1

theorem say_verdict {s : Session} (on : s.running = true) (line : String) {v : Verdict} (before : s.verdict = v) :
    (s.say line).verdict = v ∧ (s.say line).run = s.run := by
  obtain ⟨_, verdict, run⟩ := (Upholds.say s line).held on
  exact ⟨verdict.trans before, run⟩

theorem failedWith_verdict {s : Session} (on : s.running = true) (errorCount : s.errorCount = 0)
    (successCount : s.successCount = 0) (f : RunFault) :
    (s.failedWith f).verdict = .failed f ∧ (s.failedWith f).run = s.run := by
  have fails := Upholds.visits.toHabit.failedWith (fun _ _ _ => .same rfl rfl rfl rfl) s f
  obtain ⟨_, verdict, run⟩ := fails.held on
  refine ⟨verdict.trans ?_, run⟩
  simp only [Session.verdict, errorCount, successCount, Verdict.failed]

/-- What a run comes to that ends: its session says what became of it. -/
theorem concluded_verdict {s s' : Session} {st : Stage} {o : Outcome} (how : Concludes s st o s')
    (on : s.running = true) (before : s.verdict = .bare .running) :
    o.Yields s'.verdict ∧ s'.run = s.run := by
  have error? : s.error? = none := congrArg Verdict.error? before
  have errorCount : s.errorCount = 0 := congrArg Verdict.errorCount before
  have successCount : s.successCount = 0 := congrArg Verdict.successCount before
  have stopped : ∀ stopRequested, { s with stopRequested, status := .stopped }.verdict = .bare .stopped := by
    intro stopRequested
    simp only [verdict, error?, errorCount, successCount, Verdict.bare]
  cases how with
  | finished =>
      unfold Session.finished
      split
      · obtain ⟨same, run⟩ := say_verdict (s := { s with status := .stopped }) on
          ("Execution stopped after processing " ++ s.summary) (stopped s.stopRequested)
        exact ⟨same ▸ .stopped, run⟩
      · have counted : { s with status := .completed, successCount := s.successCount + 1 }.verdict = .completed := by
          simp only [verdict, error?, errorCount, successCount, Verdict.completed]
        obtain ⟨same, run⟩ := say_verdict
          (s := { s with status := .completed, successCount := s.successCount + 1 }) on
          ("Execution completed successfully. Processed " ++ s.summary) counted
        exact ⟨same ▸ .completed, run⟩
  | failed f =>
      obtain ⟨same, run⟩ := failedWith_verdict on errorCount successCount f
      exact ⟨same ▸ .failed f, run⟩
  | cancelled =>
      obtain ⟨same, run⟩ := say_verdict (s := { s with stopRequested := true, status := .stopped }) on
        "Execution cancelled" (stopped true)
      exact ⟨same ▸ .cancelled, run⟩
  | outOfTime st ms =>
      obtain ⟨same, run⟩ := failedWith_verdict (s := { s with stopRequested := true }) on errorCount
        successCount (.runTimeout ms)
      exact ⟨same ▸ .failed _, run⟩

end Session

/-- Whether an open execution waits for its run. -/
def Item.waits : Item → Bool
  | asked _ => false
  | pending _ => true

/-- How many executions wait for their runs. -/
def Item.waiting (items : Multiset Item) : Nat := items.countP (Item.waits · = true)

@[simp]
theorem Item.waiting_asked (r : Request) (items : Multiset Item) :
    Item.waiting (.asked r ::ₘ items) = Item.waiting items := Multiset.countP_cons_of_neg _ Bool.false_ne_true

@[simp]
theorem Item.waiting_pending (p : Pending) (items : Multiset Item) :
    Item.waiting (.pending p ::ₘ items) = Item.waiting items + 1 := Multiset.countP_cons_of_pos _ rfl

namespace Ledger

/-- Whether a session says of its runs what became of the executions of a ledger. -/
structure Sound (l : Ledger) : Prop where
  waiting : Item.waiting l.items = l.session.running.toNat
  underway : l.session.running = true → l.session.verdict = .bare .running
  rests : l.session.running = false → l.session.stopRequested = false
  settled : l.session.running = false → l.session.verdict = .bare .idle ∨
    ∃ e ∈ l.ended, e.session.run = l.session.run ∧ e.outcome.Yields l.session.verdict

namespace Sound

variable {s s' : Session} {items : Multiset Item} {ended : Set Execution}

theorem upheld {ended' : Set Execution} (h : Sound ⟨s, items, ended⟩) (upholds : s.Upholds s')
    (grows : ended ⊆ ended') : Sound ⟨s', items, ended'⟩ := by
  cases upholds with
  | kept running verdict run stop =>
      refine ⟨?_, fun on => ?_, fun idle => ?_, fun idle => ?_⟩
      · exact running ▸ h.waiting
      · exact verdict.trans (h.underway (running.symm.trans on))
      · have idle := running.symm.trans idle
        exact (stop idle).trans (h.rests idle)
      · show s'.verdict = _ ∨ ∃ e ∈ ended', e.session.run = s'.run ∧ e.outcome.Yields s'.verdict
        rw [verdict, run]
        refine (h.settled (running.symm.trans idle)).imp_right ?_
        rintro ⟨e, there, rest⟩
        exact ⟨e, grows there, rest⟩
  | forgot idle idle' stop verdict =>
      refine ⟨?_, fun on => ?_, fun _ => stop, fun _ => .inl verdict⟩
      · exact (idle'.trans idle.symm) ▸ h.waiting
      · cases idle'.symm.trans on

/-- A session that an execution waits for runs. -/
theorem running {p : Pending} (h : Sound ⟨s, .pending p ::ₘ items, ended⟩) : s.running = true := by
  have waiting : Item.waiting (.pending p ::ₘ items) = s.running.toNat := h.waiting
  rw [Item.waiting_pending] at waiting
  cases on : s.running with
  | true => rfl
  | false =>
      rw [on] at waiting
      cases waiting

/-- No execution waits for a session that does not run. -/
theorem unawaited (h : Sound ⟨s, items, ended⟩) (idle : s.running = false) {i : Item} (member : i ∈ items) :
    i.waits = false := by
  have waiting : Item.waiting items = s.running.toNat := h.waiting
  rw [idle] at waiting
  exact Bool.eq_false_iff.mpr (Multiset.countP_eq_zero.mp waiting i member)

theorem posts {l l' : Ledger} (h : l.Sound) (post : l.Posts l') : l'.Sound := by
  have dropped : ∀ {s : Session} {r : Request} {items : Multiset Item} {ended : Set Execution},
      Sound ⟨s, .asked r ::ₘ items, ended⟩ → Sound ⟨s, items, ended⟩ := by
    intro s r items ended h
    exact { h with waiting := (Item.waiting_asked r items).symm.trans h.waiting }
  cases post with
  | drifted items ended drifts =>
      refine h.upheld (drifts _ Session.Upholds.visits fun s run slots => ?_) subset_rfl
      exact .same rfl rfl (s.withSlots_run _ _) rfl
  | handled items ended handled =>
      refine h.upheld (handled.reacts Session.Upholds.visits.toReacts fun s registry => ?_) subset_rfl
      exact .same rfl rfl rfl rfl
  | declined items ended declined =>
      refine (dropped h).upheld ?_ (Set.subset_insert _ _)
      cases declined with
      | options f => exact .same rfl rfl rfl rfl
      | busy options f => exact Session.Upholds.visits.tell 2 _ _ _ _ (.same rfl rfl rfl rfl)
      | bindings options f _ idle _ => exact .forgot idle idle rfl rfl
  | withdrawn s r items ended => exact (dropped h).upheld (.same rfl rfl rfl rfl) (Set.subset_insert _ _)
  | admitted items ended accepted named idle listener =>
      rename_i s r p options bindings
      have on := World.taken_running s options r.listener bindings
      have before : Item.waiting items = s.running.toNat := (dropped h).waiting
      refine ⟨?_, fun _ => s.taken_verdict _ _ _, fun off => ?_, fun off => ?_⟩
      · show Item.waiting (.pending p ::ₘ items) = Bool.toNat _
        rw [Item.waiting_pending, before, idle, on]
        rfl
      · cases on.symm.trans off
      · cases on.symm.trans off
  | concluded items ended how told listener =>
      rename_i s s' p st e
      have on := h.running
      obtain ⟨yields, run⟩ := Session.concluded_verdict how on (h.underway on)
      have waiting : Item.waiting (.pending p ::ₘ items) = s.running.toNat := h.waiting
      rw [Item.waiting_pending, on] at waiting
      refine ⟨Nat.succ.inj waiting, nofun, fun _ => rfl, fun _ => .inr ⟨e, Set.mem_insert e ended, ?_, yields⟩⟩
      rw [told]

end Sound

end Ledger

/-! ### Failures told -/

/-- The failure that a listener is told of. -/
def Event.fault? : Event → Option RunFault
  | .error f => some f
  | _ => none

/-- The failure by which an execution ended. -/
def Outcome.fault? : Outcome → Option RunFault
  | .failed f => some f
  | _ => none

/-- Whether an execution that is asked for has a listener for failures. -/
def Request.hearsErrors (r : Request) : Bool :=
  match r.options with
  | .ok options => options.heard.contains .error
  | .error _ => false

/-- Whether an execution is declined because another one is in its way. -/
def RunFault.isConcurrency : RunFault → Bool
  | inProgress | shuttingDown => true
  | _ => false

/-- The failures that an execution has to tell of that was asked for: that another one was in its way, or that its
run failed. With bindings that are no mapping it comes to no run. -/
def Request.reports (r : Request) (e : Execution) : List RunFault :=
  match e.outcome with
  | .failed f => if f.isConcurrency || r.bindings?.isOk then [f] else []
  | _ => []

namespace Session

/-- The failures that a listener was told of. -/
def faultsTold (s : Session) (listener : Nat) : List RunFault :=
  s.heard.toList.filterMap fun (n, e) => if n = listener then e.fault? else none

/-- Whether no listener is told of a failure, and the session keeps its own listener. -/
structure Withholds (s s' : Session) : Prop where
  told : ∀ n, s'.faultsTold n = s.faultsTold n
  listener : s'.listener = s.listener
  options : s'.options = s.options

theorem faultsTold_push (s : Session) (n : Nat) (e : Event) (listener : Nat) :
    { s with heard := s.heard.push (n, e) }.faultsTold listener =
      s.faultsTold listener ++ if n = listener then e.fault?.toList else [] := by
  by_cases mine : n = listener
  · simp only [faultsTold, Array.toList_push, List.filterMap_append, List.filterMap_cons, List.filterMap_nil,
      if_pos mine]
    cases e.fault? <;> rfl
  · simp only [faultsTold, Array.toList_push, List.filterMap_append, List.filterMap_cons, List.filterMap_nil,
      if_neg mine]

namespace Withholds

theorem same {s s' : Session} (heard : s'.heard = s.heard) (listener : s'.listener = s.listener)
    (options : s'.options = s.options) : Withholds s s' where
  told n := by rw [faultsTold, heard, faultsTold]
  listener
  options

theorem heard (s : Session) (n : Nat) {e : Event} (other : ∀ f, e ≠ .error f) :
    Withholds s { s with heard := s.heard.push (n, e) } where
  told listener := by
    have silent : e.fault? = none := by
      cases e with
      | error f => exact absurd rfl (other f)
      | _ => rfl
    rw [faultsTold_push, silent]
    simp only [Option.toList_none, ite_self, List.append_nil]
  listener := rfl
  options := rfl

theorem visits : Visits Withholds where
  refl _ := same rfl rfl rfl
  trans h h' :=
    ⟨fun n => (h'.told n).trans (h.told n), h'.listener.trans h.listener, h'.options.trans h.options⟩
  reported _ _ := same rfl rfl rfl
  stopped _ _ _ := same rfl rfl rfl
  told s n _ := heard s n nofun
  reset _ _ := same rfl rfl rfl
  logged _ _ _ := same rfl rfl rfl
  heard s n _ other := heard s n other
  noted _ _ := same rfl rfl rfl
  altered _ _ _ := same rfl rfl rfl
  counted _ _ := same rfl rfl rfl
  joined _ _ _ := same rfl rfl rfl
  opened _ _ := same rfl rfl rfl

theorem say (s : Session) (line : String) : Withholds s (s.say line) := visits.toReacts.say (same rfl rfl rfl)

end Withholds

/-- Whether a listener is told of some failures, and the session keeps its own listener. -/
structure Tells (n : Nat) (faults : List RunFault) (s s' : Session) : Prop where
  told : ∀ listener, s'.faultsTold listener = s.faultsTold listener ++ if listener = n then faults else []
  listener : s'.listener = s.listener
  options : s'.options = s.options

theorem Withholds.tells {s s' : Session} (h : Withholds s s') (n : Nat) : Tells n [] s s' :=
  ⟨fun listener => by rw [h.told, ite_self, List.append_nil], h.listener, h.options⟩

theorem Withholds.before {s₁ s₂ s₃ : Session} {n : Nat} {faults : List RunFault} (h : Withholds s₁ s₂)
    (tells : Tells n faults s₂ s₃) : Tells n faults s₁ s₃ where
  told listener := by rw [tells.told, h.told]
  listener := tells.listener.trans h.listener
  options := tells.options.trans h.options

theorem Withholds.after {s₁ s₂ s₃ : Session} {n : Nat} {faults : List RunFault} (h : Withholds s₂ s₃)
    (tells : Tells n faults s₁ s₂) : Tells n faults s₁ s₃ where
  told listener := by rw [h.told, tells.told]
  listener := h.listener.trans tells.listener
  options := h.options.trans tells.options

/-- A listener that listens to failures is told of one once, whatever it then does. -/
theorem tell_error (s : Session) (options : Options) (l : Listener) (f : RunFault) :
    Tells l.number (if options.heard.contains .error then [f] else []) s (tell 2 s options l (.error f)) := by
  by_cases listens : options.heard.contains .error = true
  · rw [if_pos listens]
    have pushed : Tells l.number [f] s { s with heard := s.heard.push (l.number, .error f) } := by
      refine ⟨fun listener => ?_, rfl, rfl⟩
      rw [faultsTold_push]
      simp only [eq_comm]
      rfl
    exact (Withholds.visits.toReacts.after 1 l listens).after pushed
  · rw [if_neg listens]
    have same : tell 2 s options l (.error f) = s := by
      rw [tell]
      exact if_neg listens
    rw [same]
    exact (Withholds.visits.refl s).tells _

theorem failedWith_tells (s : Session) (f : RunFault) :
    Tells s.listener.number (if s.options.heard.contains .error then [f] else []) s (s.failedWith f) := by
  let s₁ : Session := { s with errorCount := s.errorCount + 1, status := .failed, error? := some f.message }
  let line := "Execution failed: " ++ f.message
  let s₂ := (s₁.say line).report .error "engine" line
  have logged : Withholds s s₂ := Withholds.visits.trans (.same rfl rfl rfl : Withholds s s₁)
    (Withholds.visits.trans (Withholds.say s₁ line) (Withholds.visits.reported (s₁.say line) s₂.journal))
  have told := s₂.tell_error s₂.options s₂.listener f
  rw [logged.listener, logged.options] at told
  have same : s.failedWith f = tell 2 s₂ s.options s.listener (.error f) := by
    rw [← logged.listener, ← logged.options]
    rfl
  rw [same]
  exact logged.before told

/-- A session that runs tells its own listener, at the end, of the failure that ends its run. -/
theorem concluded_tells {s s' : Session} {st : Stage} {o : Outcome} (how : Concludes s st o s') :
    Tells s.listener.number (if s.options.heard.contains .error then o.fault?.toList else []) s s'.closed := by
  have closes : Withholds s' s'.closed := .same rfl rfl rfl
  refine closes.after ?_
  have silent : Withholds s s' →
      Tells s.listener.number (if s.options.heard.contains .error then [] else []) s s' := by
    intro withholds
    rw [ite_self]
    exact withholds.tells _
  have sayings : ∀ s₁ line, Withholds s s₁ → Withholds s (s₁.say line) := fun s₁ line same =>
    Withholds.visits.trans same (Withholds.say s₁ line)
  cases how with
  | finished =>
      apply silent
      unfold Session.finished
      split
      · exact sayings { s with status := .stopped } _ (.same rfl rfl rfl)
      · exact sayings { s with status := .completed, successCount := s.successCount + 1 } _ (.same rfl rfl rfl)
  | failed f => exact s.failedWith_tells f
  | cancelled =>
      exact silent (sayings { s with stopRequested := true, status := .stopped } _ (.same rfl rfl rfl))
  | outOfTime st ms =>
      have stopped : Withholds s { s with stopRequested := true } := .same rfl rfl rfl
      exact stopped.before ({ s with stopRequested := true }.failedWith_tells (.runTimeout ms))

/-- A run that begins is heard by the listener of its execution. -/
theorem taken_withholds (s : Session) (options : Options) (listener : Listener) (bindings : Entries) :
    Withholds { s with options, listener } (s.taken options listener bindings) := by
  let s' := { s.cleared with options, listener, bindings, running := true, status := .running, started := true }
  have cleared : Withholds { s with options, listener } s' := .same rfl rfl rfl
  exact Withholds.visits.trans cleared (Withholds.visits.trans (Withholds.visits.reported s' _) (Withholds.say _ _))

end Session

/-- Whether an open execution is one that was asked for. A session tells the listener of the one that waits for it. -/
def Item.Serves (s : Session) (r : Request) : Item → Prop
  | asked r' => r' = r
  | pending p => r.listener.number = p.listener ∧ r.bindings?.isOk = true ∧ s.listener.number = p.listener ∧
      s.options.heard.contains .error = r.hearsErrors

theorem Item.Serves.number {s : Session} {r : Request} {i : Item} (h : i.Serves s r) :
    r.listener.number = i.number := by
  cases i with
  | asked r' =>
      cases h
      rfl
  | pending p => exact h.1

/-- A session matters only to an execution that waits for it. -/
theorem Item.Serves.passes {s s' : Session} {r : Request} {i : Item} (h : i.Serves s r)
    (same : i.waits = true → s'.listener = s.listener ∧ s'.options = s.options) : i.Serves s' r := by
  cases i with
  | asked r' => exact h
  | pending p =>
      obtain ⟨listener, options⟩ := same rfl
      obtain ⟨number, named, listens, hears⟩ := h
      exact ⟨number, named, listener ▸ listens, options ▸ hears⟩

namespace Ledger

/-- Whether each execution that was asked for has a listener of its own, which is told of what it has to report
when it ends, and of nothing before. -/
structure Told (requests : Set Request) (l : Ledger) : Prop where
  distinct : (l.items.map Item.number).Nodup
  apart : ∀ e ∈ l.ended, ∀ i ∈ l.items, i.number ≠ e.listener
  unheard : ∀ i ∈ l.items, l.session.faultsTold i.number = []
  serves : ∀ i ∈ l.items, ∃ r ∈ requests, i.Serves l.session r
  heard : ∀ e ∈ l.ended, ∃ r ∈ requests, r.listener.number = e.listener ∧
    l.session.faultsTold e.listener = if r.hearsErrors then r.reports e else []

namespace Told

variable {requests : Set Request} {s s' : Session} {i : Item} {items : Multiset Item} {ended : Set Execution}
  {e : Execution}

/-- Nothing is told of failures. -/
theorem withheld (h : Told requests ⟨s, items, ended⟩) (withholds : s.Withholds s') :
    Told requests ⟨s', items, ended⟩ where
  distinct := h.distinct
  apart := h.apart
  unheard i member := (withholds.told _).trans (h.unheard i member)
  serves i member := by
    obtain ⟨r, asked, serves⟩ := h.serves i member
    exact ⟨r, asked, serves.passes fun _ => ⟨withholds.listener, withholds.options⟩⟩
  heard e there := by
    obtain ⟨r, asked, number, told⟩ := h.heard e there
    exact ⟨r, asked, number, (withholds.told _).trans told⟩

/-- An execution ends, and has told what it has to report. -/
theorem close (h : Told requests ⟨s, i ::ₘ items, ended⟩) (listener : e.listener = i.number)
    (told : ∀ r, i.Serves s r → ∀ n, s'.faultsTold n =
      s.faultsTold n ++ if n = i.number then if r.hearsErrors then r.reports e else [] else [])
    (same : ∀ j ∈ items, j.waits = true → s'.listener = s.listener ∧ s'.options = s.options) :
    Told requests ⟨s', items, insert e ended⟩ := by
  have here : i ∈ i ::ₘ items := Multiset.mem_cons_self i items
  have rest : ∀ {j}, j ∈ items → j ∈ i ::ₘ items := Multiset.mem_cons_of_mem
  have distinct : ((i ::ₘ items).map Item.number).Nodup := h.distinct
  rw [Multiset.map_cons, Multiset.nodup_cons] at distinct
  have others : ∀ j ∈ items, j.number ≠ i.number := fun j member same =>
    distinct.1 (same ▸ Multiset.mem_map_of_mem _ member)
  obtain ⟨r, asked, serves⟩ := h.serves i here
  have told := told r serves
  refine ⟨distinct.2, ?_, fun j member => ?_, fun j member => ?_, ?_⟩
  · rintro e' (rfl | old) j member
    · exact listener ▸ others j member
    · exact h.apart e' old j (rest member)
  · show s'.faultsTold j.number = []
    rw [told, if_neg (others j member), List.append_nil]
    exact h.unheard j (rest member)
  · obtain ⟨r', asked', serves'⟩ := h.serves j (rest member)
    exact ⟨r', asked', serves'.passes (same j member)⟩
  · rintro e' (rfl | old)
    · refine ⟨r, asked, serves.number.trans listener.symm, ?_⟩
      show s'.faultsTold e'.listener = _
      have before : s.faultsTold i.number = [] := h.unheard i here
      rw [listener, told, if_pos rfl, before, List.nil_append]
    · obtain ⟨r', asked', number, before⟩ := h.heard e' old
      refine ⟨r', asked', number, ?_⟩
      show s'.faultsTold e'.listener = _
      rw [told, if_neg (h.apart e' old i here).symm, List.append_nil]
      exact before

/-- A run begins for an execution that was asked for. -/
theorem admitted {r : Request} {p : Pending} {options : Options} {bindings : Entries}
    (h : Told requests ⟨s, .asked r ::ₘ items, ended⟩)
    (accepted : r.options = .ok options) (named : r.bindings? = .ok bindings)
    (number : p.listener = r.listener.number) (told : ∀ n, s'.faultsTold n = s.faultsTold n)
    (listener : s'.listener = r.listener) (hears : s'.options = options) (free : ∀ j ∈ items, j.waits = false) :
    Told requests ⟨s', .pending p ::ₘ items, ended⟩ := by
  have same : (Item.pending p).number = (Item.asked r).number := number
  have members : ∀ j ∈ Item.pending p ::ₘ items, j = .pending p ∨ j ∈ items := fun j => Multiset.mem_cons.mp
  have here : Item.asked r ∈ Item.asked r ::ₘ items := Multiset.mem_cons_self _ _
  have rest : ∀ {j}, j ∈ items → j ∈ Item.asked r ::ₘ items := Multiset.mem_cons_of_mem
  refine ⟨?_, fun e there j member => ?_, fun j member => ?_, fun j member => ?_, fun e there => ?_⟩
  · have distinct : ((Item.asked r ::ₘ items).map Item.number).Nodup := h.distinct
    rw [Multiset.map_cons] at distinct ⊢
    exact same ▸ distinct
  · rcases members j member with rfl | old
    · exact same ▸ h.apart e there _ here
    · exact h.apart e there j (rest old)
  · refine (told _).trans ?_
    rcases members j member with rfl | old
    · exact same ▸ h.unheard _ here
    · exact h.unheard j (rest old)
  · rcases members j member with rfl | old
    · obtain ⟨r', asked, rfl⟩ := h.serves _ here
      refine ⟨r, asked, number.symm, ?_, ?_, ?_⟩
      · rw [named]
        rfl
      · exact (congrArg Listener.number listener).trans number.symm
      · show s'.options.heard.contains .error = _
        rw [hears, Request.hearsErrors, accepted]
    · obtain ⟨r', asked, serves⟩ := h.serves j (rest old)
      refine ⟨r', asked, serves.passes fun waits => ?_⟩
      rw [free j old] at waits
      cases waits
  · obtain ⟨r', asked, number, before⟩ := h.heard e there
    exact ⟨r', asked, number, (told _).trans before⟩

theorem posts {l l' : Ledger} (sound : l.Sound) (h : Told requests l) (post : l.Posts l') :
    Told requests l' := by
  have nothing : ∀ (n : Nat) (i : Item) (r : Request) (told : List RunFault),
      told ++ (if n = i.number then if r.hearsErrors then ([] : List RunFault) else [] else []) = told := by
    intro n i r told
    rw [ite_self, ite_self, List.append_nil]
  cases post with
  | drifted items ended drifts =>
      exact h.withheld (drifts _ Session.Withholds.visits fun _ _ _ => .same rfl rfl rfl)
  | handled items ended handled =>
      exact h.withheld (handled.reacts Session.Withholds.visits.toReacts fun _ _ => .same rfl rfl rfl)
  | declined items ended declined =>
      cases declined with
      | options f => exact h.close rfl (fun r _ n => (nothing n _ r _).symm) fun _ _ _ => ⟨rfl, rfl⟩
      | busy options f accepted busy =>
          rename_i s r
          have tells := s.tell_error options r.listener f
          refine h.close rfl (fun r' same n => ?_) fun _ _ _ => ⟨tells.listener, tells.options⟩
          cases same
          have reports : [f] = r.reports ⟨.failed f, Session.tell 2 s options r.listener (.error f), 0,
              r.listener.number⟩ := by
            rcases busy with rfl | rfl <;> rfl
          rw [tells.told, ← reports, Request.hearsErrors, accepted]
          rfl
      | bindings options f accepted idle named =>
          rename_i s r
          refine h.close rfl (fun r' same n => ?_) fun j member waits => ?_
          · cases same
            have reports : r.reports ⟨.failed (.value f), { s.cleared with options, listener := r.listener }, 0,
                r.listener.number⟩ = [] := by
              simp only [Request.reports, named]
              rfl
            rw [reports, nothing]
            rfl
          · rw [sound.unawaited idle (Multiset.mem_cons_of_mem member)] at waits
            cases waits
  | withdrawn s r items ended =>
      exact h.close rfl (fun r _ n => (nothing n _ r _).symm) fun _ _ _ => ⟨rfl, rfl⟩
  | admitted items ended accepted named idle number =>
      rename_i s r p options bindings
      have withholds := s.taken_withholds options r.listener bindings
      exact h.admitted accepted named number withholds.told withholds.listener withholds.options fun j member =>
        sound.unawaited idle (Multiset.mem_cons_of_mem member)
  | concluded items ended how told listener =>
      rename_i s s' p st e
      have tells := Session.concluded_tells how
      refine h.close listener (fun r serves n => ?_) fun _ _ _ => ⟨tells.listener, tells.options⟩
      obtain ⟨_, named, number, hears⟩ := serves
      have reports : r.reports e = e.outcome.fault?.toList := by
        unfold Request.reports
        cases e.outcome with
        | failed f =>
            simp only [named, Bool.or_true, if_true]
            rfl
        | _ => rfl
      rw [tells.told, reports, hears, number]
      rfl

end Told

theorem Posted.sound {l l' : Ledger} (posted : l.Posted l') (sound : l.Sound) : l'.Sound := by
  induction posted with
  | refl => exact sound
  | tail _ post ih => exact ih.posts post

theorem Posted.told {requests : Set Request} {l l' : Ledger} (posted : l.Posted l') (sound : l.Sound)
    (told : l.Told requests) : l'.Told requests := by
  induction posted with
  | refl => exact told
  | tail posted post ih => exact ih.posts (Posted.sound posted sound) post

variable {α : Type} (graph : Graph) (registry : Registry) (draws : List Double) (commands : List (Command α))

theorem mem_items {i : Item} (member : i ∈ Command.items commands) :
    ∃ r ∈ commands.filterMap Command.asked?, i = .asked r := by
  obtain ⟨r, asked, same⟩ := List.mem_map.mp (Multiset.mem_coe.mp member)
  exact ⟨r, asked, same.symm⟩

theorem waiting_items : Item.waiting (Command.items commands) = 0 := by
  refine Multiset.countP_eq_zero.mpr fun i member => ?_
  obtain ⟨r, _, rfl⟩ := mem_items commands member
  exact Bool.false_ne_true

theorem ofGraph_sound : Sound ⟨.ofGraph graph registry draws, Command.items commands, ∅⟩ where
  waiting := waiting_items commands
  underway := nofun
  rests _ := rfl
  settled _ := .inl rfl

theorem ofGraph_told (distinct : ((commands.filterMap Command.asked?).map (·.listener.number)).Nodup) :
    Told {r | r ∈ commands.filterMap Command.asked?}
      ⟨.ofGraph graph registry draws, Command.items commands, ∅⟩ where
  distinct := by
    show ((Command.items commands).map Item.number).Nodup
    rw [Command.items, Multiset.map_coe, Multiset.coe_nodup, List.map_map]
    exact distinct
  apart _ := nofun
  unheard _ _ := rfl
  serves i member := by
    obtain ⟨r, asked, rfl⟩ := mem_items commands member
    exact ⟨r, asked, rfl⟩
  heard _ := nofun

end Ledger

/-! ### Sessions at rest -/

/-- Whether a verdict may stand when no execution is under way: its counts go by its status. -/
structure Verdict.Final (v : Verdict) : Prop where
  status : v.status ∈ [.idle, .completed, .failed, .stopped]
  completed : v.status = .completed ↔ v.successCount = 1
  failed : v.status = .failed ↔ v.errorCount = 1
  error : v.errorCount = 1 ↔ v.error?.isSome = true
  successes : v.status ≠ .completed → v.successCount = 0
  failures : v.status ≠ .failed → v.errorCount = 0

theorem Outcome.Yields.final {o : Outcome} {v : Verdict} (h : o.Yields v) : v.Final := by
  cases h with
  | completed => constructor <;> decide
  | stopped => constructor <;> decide
  | cancelled => constructor <;> decide
  | failed f => constructor <;> simp [Verdict.failed]

/-- An execution that leaves a failure's text has failed with it. -/
theorem Outcome.Yields.error {o : Outcome} {v : Verdict} (h : o.Yields v) {text : String}
    (told : v.error? = some text) : ∃ f, o = .failed f ∧ text = f.message := by
  cases h with
  | failed f => exact ⟨f, rfl, (Option.some.inj told).symm⟩
  | _ => cases told

/-- A task that waits for no execution has none open that waits for its run. -/
theorem Work.waiting_items {α : Type} {x : Work α} (free : x.pending? = none) : Item.waiting x.items = 0 := by
  cases x with
  | caller k =>
      obtain ⟨commands, mode, started⟩ := k
      cases mode with
      | executing p => cases free
      | _ => exact Ledger.waiting_items commands
  | runner m =>
      cases m with
      | fresh r => exact Item.waiting_asked r 0
      | pending p => cases free
      | «over» e => rfl
  | walk k => rfl
  | attempt a => rfl

theorem World.waiting_ledger {α : Type} {w : World α} (free : ∀ i, w.pending? i = none) :
    Item.waiting w.ledger.items = 0 := by
  have none : ∀ i, Item.waiting (w.itemsAt i) = 0 := by
    intro i
    have free := free i
    unfold World.pending? at free
    unfold World.itemsAt
    cases here : w.work? i with
    | none => rfl
    | some x =>
        rw [here] at free
        exact Work.waiting_items free
  have sums : Item.waiting (∑ᶠ i, w.itemsAt i) = ∑ᶠ i, Item.waiting (w.itemsAt i) :=
    (Multiset.countPAddMonoidHom (Item.waits · = true)).map_finsum w.itemsAt_finite
  rw [World.ledger, sums]
  simp only [none, finsum_zero]

namespace World

/-- Whether no task of a world is found to wait for an execution. -/
def isFree (w : World Unit) : Bool := w.tasks.toList.all fun t => t.work.pending?.isNone

end World

end BlockGraph
