import BlockGraph.Proofs.Alone
import BlockGraph.Proofs.Recasts
/-!
Forms of logic are interchangeable. Where logic does nothing but hand over items, it makes no difference to a run
that is left to itself whether they are handed over one by one or all together, and whether they are waited for.
The recursion is followed call by call: each comes to a result in both sessions, or in neither.
-/
namespace BlockGraph

/-- Whether the logic of an element has answered with the same, and goes on alike. -/
inductive Pulled.Recasts : Pulled → Pulled → Prop
  | failed {s t : Session} (f : RunFault) : s.Recasts t → Recasts (.error f, s) (.error f, t)
  | ended {s t : Session} : s.Recasts t → Recasts (.ok none, s) (.ok none, t)
  | handed {s t : Session} {a b : Source} (v : Value) : a.Recasts b → s.Recasts t →
      Recasts (.ok (some (v, a)), s) (.ok (some (v, b)), t)

namespace Session.Recasts

variable {s t s' : Session}

/-! ### Logic -/

theorem resume {p q : Process} {pause : Pause} (resumed : p.resume s = (pause, q, s')) (h : s.Recasts t) :
    ∃ t', p.resume t = (pause, q, t') ∧ s'.Recasts t' := by
  have halts := likeness.resume h p
  rw [resumed] at halts
  exact halts.split

/-- Logic that is waited for comes to the same. -/
theorem await {p q : Process} {pause : Pause} (found : p.await s = some (pause, q, s')) (h : s.Recasts t) :
    ∃ t', p.await t = some (pause, q, t') ∧ s'.Recasts t' := by
  refine Process.await_induct (P := fun p s => ∀ t, s.Recasts t →
    ∃ t', p.await t = some (pause, q, t') ∧ s'.Recasts t') ?_ ?_ found t h
  · intro p s length insists p₁ s₁ resumed ih t h
    obtain ⟨t₁, resumed, h⟩ := resume resumed h
    rw [Process.await, resumed]
    exact ih t₁ h
  · intro p s resumed awake t h
    obtain ⟨t', resumed, h⟩ := resume resumed h
    refine ⟨t', ?_, h⟩
    rw [Process.await, resumed]
    cases pause with
    | sleep length insists => exact absurd rfl (awake length insists)
    | _ => rfl

/-- Logic that is run to its end comes to the same. -/
theorem gather {p : Process} {collected items : List Value} {how : Ending}
    (found : p.gather s collected = some (how, items, s')) (h : s.Recasts t) :
    ∃ t', p.gather t collected = some (how, items, t') ∧ s'.Recasts t' := by
  refine Process.gather_induct (P := fun p collected s => ∀ t, s.Recasts t →
    ∃ t', p.gather t collected = some (how, items, t') ∧ s'.Recasts t') ?_ ?_ ?_ found t h
  · intro p s collected length insists p₁ s₁ resumed ih t h
    obtain ⟨t₁, resumed, h⟩ := resume resumed h
    rw [Process.gather, resumed]
    exact ih t₁ h
  · intro p s collected v p₁ s₁ resumed ih t h
    obtain ⟨t₁, resumed, h⟩ := resume resumed h
    rw [Process.gather, resumed]
    exact ih t₁ h
  · intro p s collected q resumed same t h
    obtain ⟨t', resumed, h⟩ := resume resumed h
    refine ⟨t', ?_, h⟩
    rw [Process.gather, resumed, same]

theorem shutProcess {p : Process} (found : p.shut s = some s') (h : s.Recasts t) :
    ∃ t', p.shut t = some t' ∧ s'.Recasts t' := by
  have closes := likeness.close h p
  rw [Process.shut] at found ⊢
  generalize p.close s = r at closes found
  obtain ⟨pause, q, s₁⟩ := r
  obtain ⟨t₁, closed, h⟩ := closes.split
  rw [closed]
  cases pause with
  | sleep length insists =>
      obtain ⟨⟨pause, q', s₂⟩, waited, same⟩ := Option.map_eq_some_iff.mp found
      obtain ⟨t', waited, h⟩ := await waited h
      refine ⟨t', ?_, same ▸ h⟩
      simp only [waited, Option.map_some]
  | _ =>
      cases found
      exact ⟨t₁, rfl, h⟩

/-- Sources that are recast are closed alike. -/
theorem shut {a b : Source} (source : a.Recasts b) (found : a.shut s = some s') (h : s.Recasts t) :
    ∃ t', b.shut t = some t' ∧ s'.Recasts t' := by
  rcases source with rfl | ⟨items, lists, lists'⟩
  · cases b with
    | sequence p | stream p => exact shutProcess found h
    | _ =>
        cases found
        exact ⟨t, rfl, h⟩
  · cases (lists.shut s).symm.trans found
    exact ⟨t, lists'.shut t, h⟩

/-! ### Answers -/

theorem pulledItems (h : s.Recasts t) (items : List Value) :
    (s.pulledItems items).Recasts (t.pulledItems items) := by
  cases items with
  | nil => exact .ended h
  | cons v rest => exact .handed v (.inl rfl) h

theorem failed {r r' : RunFault × Session} (likens : Likens Recasts r r') :
    Pulled.Recasts (.error r.1, r.2) (.error r'.1, r'.2) := by
  rw [likens.result]
  exact .failed r.1 likens.session

theorem pulledEnd (h : s.Recasts t) (e : Element) (how : Ending) :
    (s.pulledEnd e how).Recasts (t.pulledEnd e how) := by
  cases how with
  | fault f =>
      unfold Session.pulledEnd
      simp only
      split
      · exact failed (likeness.blockTimedOut h e)
      · exact failed (likeness.blockFailed h e f)
  | _ => exact .ended h

theorem pulledPause (h : s.Recasts t) (e : Element) (source : Source) (pause : Pause) :
    (s.pulledPause e source pause).Recasts (t.pulledPause e source pause) := by
  cases pause with
  | item v => exact .handed v (.inl rfl) h
  | sleep length insists => exact .ended h
  | ended how => exact h.pulledEnd e how

theorem pulledAll (h : s.Recasts t) (e : Element) (items : List Value) (how : Ending) :
    (s.pulledAll e items how).Recasts (t.pulledAll e items how) := by
  cases how with
  | normal => exact h.pulledItems items
  | fault f => exact h.pulledEnd e (.fault f)
  | closed => exact h.pulledEnd e .closed
  | interrupted => exact h.pulledEnd e .interrupted

theorem pulledNow (h : s.Recasts t) (e : Element) (items : List Value) (how : Ending) :
    (s.pulledNow e items how).Recasts (t.pulledNow e items how) := by
  cases how with
  | fault f => exact failed (likeness.blockFailed h e f)
  | _ => exact h.pulledItems items

/-- Sources that are recast answer with the same. -/
theorem pull {a b : Source} {e : Element} {r : Pulled} (source : a.Recasts b) (found : s.pull e a = some r)
    (h : s.Recasts t) : ∃ r', t.pull e b = some r' ∧ r.Recasts r' := by
  rcases source with rfl | ⟨items, lists, lists'⟩
  · cases b with
    | items vs =>
        cases found
        exact ⟨_, rfl, h.pulledItems vs⟩
    | busy =>
        cases found
        exact ⟨_, rfl, .ended h⟩
    | sequence p | stream p =>
        obtain ⟨⟨pause, q, s₁⟩, waited, rfl⟩ := Option.map_eq_some_iff.mp found
        obtain ⟨t₁, waited, h⟩ := await waited h
        exact ⟨_, congrArg (Option.map _) waited, h.pulledPause e _ pause⟩
    | gathering p collected =>
        obtain ⟨⟨how, items, s₁⟩, gathered, rfl⟩ := Option.map_eq_some_iff.mp found
        obtain ⟨t₁, gathered, h⟩ := gather gathered h
        exact ⟨_, congrArg (Option.map _) gathered, h.pulledNow e items how⟩
    | deferred p =>
        obtain ⟨⟨how, items, s₁⟩, gathered, rfl⟩ := Option.map_eq_some_iff.mp found
        obtain ⟨t₁, gathered, h⟩ := gather gathered h
        exact ⟨_, congrArg (Option.map _) gathered, h.pulledAll e items how⟩
  · cases items with
    | nil =>
        cases (lists.pull_nil s e).symm.trans found
        exact ⟨_, lists'.pull_nil t e, .ended h⟩
    | cons v rest =>
        obtain ⟨next, pulled, left⟩ := lists.pull_cons s e
        obtain ⟨next', pulled', left'⟩ := lists'.pull_cons t e
        cases pulled.symm.trans found
        exact ⟨_, pulled', .handed v (.inr ⟨rest, left, left'⟩) h⟩

/-! ### Visits -/

/-- The logic of an element is started in the same context, and may be recast. -/
theorem start (h : s.Recasts t) (e : Element) {l l' : Logic} (recast : l.Recasts l') :
    (∃ f s' t', Traversal.start s e l = (.error f, s') ∧ Traversal.start t e l' = (.error f, t') ∧
        s'.Recasts t') ∨
      ∃ a b s' t', Traversal.start s e l = (.ok (some ⟨e, a, []⟩), s') ∧
        Traversal.start t e l' = (.ok (some ⟨e, b, []⟩), t') ∧ a.Recasts b ∧ s'.Recasts t' := by
  have turned := h.update (fun s => { s with processed := s.processed ++ [e.id] }) (fun _ _ => rfl) fun _ => rfl
  have told := (likeness.note (turned.say ("Executing element " ++ e.id ++ " (" ++ e.type ++ ")"))
    (.started e.id)).notify (.start e.id)
  have likens := likeness.contextOf told e
  unfold Traversal.start
  simp only
  generalize Session.contextOf _ e = r at likens ⊢
  obtain ⟨c?, s'⟩ := r
  obtain ⟨t', same, after⟩ := likens.split
  rw [same]
  cases c? with
  | error f => exact .inl ⟨_, _, _, rfl, rfl, after⟩
  | ok c => exact .inr ⟨_, _, _, _, rfl, rfl, Source.recasts_ofLogic recast c, after⟩

/-- The visit of an element, what is taken from it, and what is followed then come to the same. -/
theorem visits :
    (∀ s id r, Session.visit s id = some r → ∀ t, s.Recasts t →
      ∃ r', t.visit id = some r' ∧ Likens Recasts r r') ∧
    (∀ s e a r, Session.drive s e a = some r → ∀ t b, s.Recasts t → a.Recasts b →
      ∃ r', t.drive e b = some r' ∧ Likens Recasts r r') ∧
    (∀ s cs r, Session.follow s cs = some r → ∀ t, s.Recasts t →
      ∃ r', t.follow cs = some r' ∧ Likens Recasts r r') := by
  refine Session.visit.mutual_partial_correctness _ _ _ ?_ ?_ ?_
  · intro drive ih s id r found t h
    have counted := likeness.attempts h
    have steps : t.steps = s.steps := h.reads Session.steps fun _ _ => rfl
    have options : t.options = s.options := h.reads Session.options fun _ _ => rfl
    have processed : t.processed = s.processed := h.reads Session.processed fun _ _ => rfl
    have graph : t.graph = s.graph := h.reads Session.graph fun _ _ => rfl
    rw [Session.visit, likeness.active h, steps, options, processed, graph]
    cases on : s.active with
    | false =>
        rw [if_pos on] at found
        cases found
        exact ⟨_, rfl, rfl, counted⟩
    | true =>
        rw [if_neg fun off => by rw [on] at off; cases off] at found
        rw [if_neg fun off => by cases off]
        by_cases beyond : s.options.maxSteps < ((s.steps + 1 : Nat) : Int)
        · rw [if_pos beyond] at found ⊢
          cases found
          exact ⟨_, rfl, rfl, likeness.note counted _⟩
        rw [if_neg beyond] at found ⊢
        by_cases seen : id ∈ s.processed
        · rw [if_pos seen] at found ⊢
          cases found
          exact ⟨_, rfl, rfl, counted⟩
        rw [if_neg seen] at found ⊢
        cases element : s.graph.element? id with
        | none =>
            rw [element] at found
            cases found
            exact ⟨_, rfl, rfl, counted⟩
        | some e =>
            simp only [element] at found ⊢
            have known := h.registry.find? e.type
            generalize s.registry.find? e.type = d at known found
            generalize t.registry.find? e.type = d' at known
            cases known with
            | none =>
                cases found
                exact ⟨_, rfl, rfl, likeness.note counted _⟩
            | some recast =>
                simp only at found ⊢
                rcases start counted e recast.logic with
                  ⟨f, s₁, t₁, begun, begun', h⟩ | ⟨a, b, s₁, t₁, begun, begun', source, h⟩
                · rw [begun] at found
                  rw [begun']
                  cases found
                  exact ⟨_, rfl, rfl, likeness.note h _⟩
                · rw [begun] at found
                  rw [begun']
                  exact ih _ _ _ _ found _ _ h source
  · intro drive follow ihDrive ihFollow s e a r found t b h source
    obtain ⟨answer, pulled, found⟩ := Option.bind_eq_some_iff.mp found
    obtain ⟨answer', pulled', answers⟩ := pull source pulled h
    rw [Session.drive, pulled']
    cases answers with
    | failed f h =>
        cases found
        exact ⟨_, rfl, rfl, likeness.note h _⟩
    | ended h =>
        cases found
        exact ⟨_, rfl, rfl, likeness.completed h e.id⟩
    | @handed s₁ t₁ a b v source h =>
        simp only [Option.bind_eq_bind, Option.bind_some] at found ⊢
        cases made : Emission.ofItem v with
        | error f =>
            simp only [made] at found ⊢
            have fails := likeness.blockFailed h e f
            obtain ⟨s₂, closed, same⟩ := Option.bind_eq_some_iff.mp found
            cases same
            have noted := likeness.note fails.session (.failed (s₁.blockFailed e f).1)
            obtain ⟨t₂, closed, h⟩ := shut source closed noted
            rw [← fails.result] at closed
            rw [closed]
            exact ⟨_, rfl, congrArg some fails.result, h⟩
        | ok emission =>
            simp only [made] at found ⊢
            obtain ⟨⟨f?, s₂⟩, followed, found⟩ := Option.bind_eq_some_iff.mp found
            have recorded := likeness.record h e.id emission
            rw [likeness.fired h]
            obtain ⟨r₂, followed', likens⟩ := ihFollow _ _ _ followed _ recorded
            obtain ⟨t₂, rfl, h⟩ := likens.split
            rw [followed']
            cases f? with
            | none => exact ihDrive _ _ _ _ found _ _ h source
            | some f =>
                obtain ⟨s₃, closed, same⟩ := Option.bind_eq_some_iff.mp found
                cases same
                obtain ⟨t₃, closed, h⟩ := shut source closed h
                simp only [Option.bind_some, closed]
                exact ⟨_, rfl, rfl, h⟩
  · intro visit follow ihVisit ihFollow s cs r found t h
    cases cs with
    | nil =>
        cases found
        rw [Session.follow]
        exact ⟨_, rfl, rfl, h⟩
    | cons c rest =>
        simp only at found
        rw [Session.follow, likeness.active h]
        cases on : s.active with
        | false =>
            rw [on] at found
            cases found
            exact ⟨_, rfl, rfl, h⟩
        | true =>
            rw [if_pos on] at found
            obtain ⟨⟨f?, s₁⟩, visited, found⟩ := Option.bind_eq_some_iff.mp found
            have told := likeness.notified (.traverse c.id) (likeness.note h (.traversed c.id))
            obtain ⟨r₁, visited', likens⟩ := ihVisit _ _ _ visited _ told
            obtain ⟨t₁, rfl, h⟩ := likens.split
            simp only [if_true, Option.bind_eq_bind, visited', Option.bind_some]
            cases f? with
            | none => exact ihFollow _ _ _ found _ h
            | some f =>
                cases found
                exact ⟨_, rfl, rfl, h⟩

theorem visitAll {entries : List String} {r : Visit} (found : s.visitAll entries = some r) (h : s.Recasts t) :
    ∃ r', t.visitAll entries = some r' ∧ Likens Recasts r r' := by
  induction entries generalizing s t with
  | nil =>
      cases found
      exact ⟨_, rfl, rfl, h⟩
  | cons id rest ih =>
      rw [Session.visitAll] at found ⊢
      rw [likeness.active h]
      cases on : s.active with
      | false =>
          rw [on] at found
          cases found
          exact ⟨_, rfl, rfl, h⟩
      | true =>
          rw [if_pos on] at found
          obtain ⟨⟨f?, s₁⟩, visited, found⟩ := Option.bind_eq_some_iff.mp found
          obtain ⟨r₁, visited', likens⟩ := visits.1 _ _ _ visited _ (likeness.note h (.entered id))
          obtain ⟨t₁, rfl, h⟩ := likens.split
          simp only [if_true, Option.bind_eq_bind, visited', Option.bind_some]
          cases f? with
          | none => exact ih found h
          | some f =>
              cases found
              exact ⟨_, rfl, rfl, h⟩

/-- A traversal that comes to a result comes to the same after a recast. -/
theorem explore {r : Visit} (found : s.explore = some r) (h : s.Recasts t) :
    ∃ r', t.explore = some r' ∧ Likens Recasts r r' := by
  have opens := h.opening
  unfold Session.explore at found ⊢
  generalize s.opening = o at opens found
  obtain ⟨entries?, s₁⟩ := o
  obtain ⟨t₁, opened, h⟩ := opens.split
  rw [opened]
  cases entries? with
  | error f =>
      cases found
      exact ⟨_, rfl, rfl, h⟩
  | ok entries => exact visitAll found h

/-- A traversal comes to a result just when it does so after a recast, and to the same. -/
theorem explores (h : s.Recasts t) : Option.Rel (Likens Recasts) s.explore t.explore := by
  cases explored : s.explore with
  | some r =>
      obtain ⟨r', explored', likens⟩ := explore explored h
      rw [explored']
      exact .some likens
  | none =>
      cases explored' : t.explore with
      | some r' =>
          obtain ⟨r, found, _⟩ := explore explored' h.symm
          cases explored.symm.trans found
      | none => exact .none

end Session.Recasts

/-- Executions that come to the same end alike. -/
theorem Execution.Comes.likens {e e' : Execution} {v v' : Visit} (comes : e.Comes v) (comes' : e'.Comes v')
    (h : Likens Session.Recasts v v') : e'.outcome = e.outcome ∧ e.session.Recasts e'.session := by
  have like := Session.Recasts.likeness
  obtain ⟨f?, s⟩ := v
  obtain ⟨t, rfl, after⟩ := h.split
  cases f? with
  | none =>
      obtain ⟨outcome, session⟩ := comes
      obtain ⟨outcome', session'⟩ := comes'
      rw [outcome, outcome', session, session']
      exact ⟨rfl, like.closed (like.finished after)⟩
  | some f =>
      obtain ⟨outcome, session⟩ := comes
      obtain ⟨outcome', session'⟩ := comes'
      rw [outcome, outcome', session, session']
      exact ⟨rfl, like.closed (like.failedWith after f)⟩

/-- Forms of logic are interchangeable in a run that is left to itself. A session is idle, and so is one whose registry
differs from its own only in the forms in which some blocks hand over items, which is all that those do. Both are taken
for the same run. Then the traversal of the one comes to a result just when that of the other does; and if nothing
disturbs either, and no time has run out, their executions end in the same way, in sessions that differ in nothing but
the forms of those blocks. -/
theorem run_recast {α : Type} {s : Session} {registry : Registry} (stored : 0 < s.stores.size)
    (idle : s.running = false) (recast : s.registry.Recasts registry) {r : Request} {options : Options}
    {bindings : Entries} (accepted : r.options = .ok options) (valid : options.Valid)
    (named : r.bindings? = .ok bindings) :
    Option.Rel (Likens Session.Recasts) (s.taken options r.listener bindings).explore
      ((s.withRegistry registry).taken options r.listener bindings).explore ∧
    ∀ w w' : World α, (World.ofCommands s [.execute r]).LeadsCalmly w →
      (World.ofCommands (s.withRegistry registry) [.execute r]).LeadsCalmly w' →
      ∀ e e', w.Ended e → w'.Ended e' → (∀ ms, e.outcome ≠ .failed (.runTimeout ms)) →
        (∀ ms, e'.outcome ≠ .failed (.runTimeout ms)) →
        e'.outcome = e.outcome ∧
          ∃ left, e.session.registry.Recasts left ∧ e'.session = e.session.withRegistry left := by
  have taken := (Session.Recasts.mk recast).taken options r.listener bindings
  refine ⟨taken.explores, fun w w' steps steps' e e' ended ended' inTime inTime' => ?_⟩
  obtain ⟨c, _, solo, _⟩ := steps.solo accepted valid named idle stored
  obtain ⟨c', _, solo', _⟩ := steps'.solo (s := s.withRegistry registry) accepted valid named idle stored
  rcases solo.ended ended with ⟨ms, late⟩ | ⟨v, explored, comes⟩
  · exact absurd late (inTime ms)
  rcases solo'.ended ended' with ⟨ms, late⟩ | ⟨v', explored', comes'⟩
  · exact absurd late (inTime' ms)
  obtain ⟨v'', found, likens⟩ := Session.Recasts.explore explored taken
  cases explored'.symm.trans found
  obtain ⟨outcome, session⟩ := comes.likens comes' likens
  generalize e'.session = t at session
  cases session with
  | mk left => exact ⟨outcome, _, left, rfl⟩

/-! ### Two elements -/

/-- A registry that holds the block that hands on a number, in some form. -/
def Registry.onesIn (form : Form) : Registry :=
  ⟨[("one", { BlockDefinition.one with logic := .script form [.emit (.text "output") (.int 1)] [] })]⟩

/-- The number is all that the block hands on, so that its form may be any other. -/
theorem Registry.onesIn_recasts (form form' : Form) : (onesIn form).Recasts (onesIn form') := by
  have named : Text.isBlankText "output" = false := by decide +kernel
  have number : Emission.ofParts (.text "output") (.int 1) = .ok ⟨"output", .int 1⟩ := by
    simp only [Emission.ofParts, named, Bool.false_eq_true, if_false]
  exact .form (fun _ => .cons (Step.emit_handsOver number) .nil) form form' [] [] "one" .one

namespace World

/-- A world in which a caller is about to run the two elements with the block in some form. -/
def pairIn (form : Form) : World Unit :=
  ofCommands (Graph.pairSession.withRegistry (.onesIn form)) [.execute .plain]

/-- A world in which the caller does not wait for the run, but asks it to stop after it had three turns. -/
def hastyIn (form : Form) : World Unit :=
  ofCommands (Graph.pairSession.withRegistry (.onesIn form))
    [.start .plain, .wait (.ms 0), .wait (.ms 0), .wait (.ms 0), .act fun s => ((), s.stop), .join]

theorem pairIn_immediate_completes : (run 50 (pairIn .immediate)).tells (·.completes) = true := by decide +kernel

end World

/-- The block hands on its number one by one, or at once: the run of the two elements comes to the same. -/
theorem run_recast_pair : ∃ e e', (World.run 50 .pair).Ended e ∧ (World.run 50 (.pairIn .immediate)).Ended e' ∧
    e.outcome = .finished ∧ e'.outcome = e.outcome ∧ ∃ left, e'.session = e.session.withRegistry left := by
  obtain ⟨e, ended, completes⟩ := World.ended_of_tells World.pair_completes
  obtain ⟨e', ended', completes'⟩ := World.ended_of_tells World.pairIn_immediate_completes
  obtain ⟨finished, _⟩ := Execution.of_completes completes
  obtain ⟨finished', _⟩ := Execution.of_completes completes'
  have calm : World.pair.LeadsCalmly (World.run 50 .pair) := World.leadsCalmly_run (by decide +kernel)
  have calm' : (World.pairIn .immediate).LeadsCalmly (World.run 50 (.pairIn .immediate)) :=
    World.leadsCalmly_run (by decide +kernel)
  have accepted : Request.plain.options = .ok .default := rfl
  have named : Request.plain.bindings? = .ok [] := rfl
  obtain ⟨_, same⟩ := run_recast (α := Unit) (s := Graph.pairSession) (Nat.succ_pos 0) rfl
    (Registry.onesIn_recasts .stream .immediate) accepted Options.default_valid named
  obtain ⟨outcome, left, _, session⟩ := same _ _ calm calm' e e' ended ended'
    (fun ms late => by rw [finished] at late; cases late) (fun ms late => by rw [finished'] at late; cases late)
  exact ⟨e, e', ended, ended', finished, outcome, left, session⟩

/-- Left alone or not is what it hangs on: a caller that asks for a stop finds the run that waits for its blocks still
at the first element, and the run that does not at its end. -/
theorem run_recast_hasty : (Registry.onesIn .stream).Recasts (.onesIn .immediate) ∧
    ∃ e e', (World.run 100 (.hastyIn .stream)).Ended e ∧ (World.run 100 (.hastyIn .immediate)).Ended e' ∧
      e.session.processed = ["first"] ∧ e'.session.processed = ["first", "second"] := by
  have first : ((World.run 100 (.hastyIn .stream)).execution? 1).map (·.session.processed) = some ["first"] := by
    decide +kernel
  have second : ((World.run 100 (.hastyIn .immediate)).execution? 1).map (·.session.processed) =
      some ["first", "second"] := by decide +kernel
  obtain ⟨e, ended, order⟩ := Option.map_eq_some_iff.mp first
  obtain ⟨e', ended', order'⟩ := Option.map_eq_some_iff.mp second
  exact ⟨Registry.onesIn_recasts .stream .immediate, e, e', .inr ⟨1, ended⟩, .inr ⟨1, ended'⟩, order, order'⟩

end BlockGraph
