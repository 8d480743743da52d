import BlockGraph.Proofs.Impatience
/-!
Who is blamed. A run fails with a fault of block logic once that is raised, and with the impatience of a
limit only if the logic has raised a time-out of its own, or has really taken longer than it may.
-/
namespace BlockGraph
namespace World

variable {α : Type} {w w₀ w₁ w' : World α} {c : Course} {task i : Nat} {id : String} {limit : Double}

/-! ### Runs -/

theorem Puts.apart {b : Attempt} {s : Session} (put : Puts task (.attempt b) s w w') (other : i ≠ task) :
    w'.work? i = w.work? i := by
  rcases put.others i other with same | ⟨_, _, _, _, _, walk, _⟩
  · exact same
  · cases walk

/-- A step that is a turn of nothing in the run. -/
theorem Proceeds.beside (proceeds : w₀.Proceeds w c w') (beside : Beside w w')
    (own : ∀ i w₁, w.walk? = some i → w.Dequeues i w₁ → w' ≠ w₁.turn i) : w₀.Explained w' := by
  refine proceeds.aside own beside.walk? (fun i k _ => beside.inner i _ (.walk k)) ?_
  intro i t j frame outer a f _ _ attempt _ _
  exact .inl ((beside.inner j _ (.attempt a)).mp attempt)

/-- A turn of block logic: a time-out that it raises is what the run will lose patience with. -/
theorem Proceeds.attempt (proceeds : w₀.Proceeds w c w') (turn : w.TurnOf task w') {b : Attempt}
    (here : w.work? task = some (.attempt b))
    (own : ∀ i w₁, w.walk? = some i → w.Dequeues i w₁ → w' ≠ w₁.turn i) : w₀.Explained w' := by
  obtain ⟨w₁, quiet, shown, there, works⟩ := turn.works proceeds.shown proceeds.scheduled here
  have turned : w' = w₁.attemptTurn task b (w.called task) := works
  obtain ⟨_, b', _, _, put, _⟩ : Worked False task b w₁ (w₁.attemptTurn task b (w.called task)) c :=
    shown.attemptTurn there _ False.elim
  rw [← turned] at put
  have apart : ∀ i, i ≠ task → w'.work? i = w.work? i := fun i other =>
    (put.apart other).trans (quiet.work i)
  have walks : ∀ i k, w'.work? i = some (.walk k) ↔ w.work? i = some (.walk k) := by
    intro i k
    by_cases turns : i = task
    · subst turns
      rw [put.here, here]
      exact ⟨fun same => (by cases same), fun same => (by cases same)⟩
    · rw [apart i turns]
  refine proceeds.aside own (put.walk?.trans quiet.walk?) (fun i k _ => walks i k) ?_
  rintro i t j frame outer a f ⟨walk, awaits⟩ stack attempt raised kind
  by_cases turns : j = task
  · subst turns
    rw [turned] at attempt
    rcases attemptTurn_fault there attempt raised with still | ⟨r, goes, ends⟩
    · rw [still] at attempt
      exact .inl ((quiet.work j).symm.trans attempt)
    · have raises : w.Raises frame.element f w' (frame.element.blame w.session.options.blockTimeout f) :=
        .awaited turn ⟨walk, t, outer, awaits, stack⟩ rfl here (quiet.session ▸ goes) ends
      unfold Element.blame at raises
      rw [if_pos kind, proceeds.options] at raises
      exact .inr ⟨w, w', proceeds.before, .refl, .inl ⟨frame.element, f, rfl, kind, raises⟩⟩
  · exact .inl ((apart j turns).symm.trans attempt)

/-- Every step within a run is explained by what has come about in it. -/
theorem Proceeds.explained (proceeds : w₀.Proceeds w c w') : w₀.Explained w' := by
  have shown := proceeds.shown
  have on := proceeds.on
  by_cases own : ∃ i, w.walk? = some i ∧ w.TurnOf i w'
  · obtain ⟨i, walk, turn⟩ := own
    obtain ⟨k, here, _⟩ : ∃ k, w.work? i = some (.walk k) ∧ w.stageOf k = some c.stage := by
      have stage := shown.stage
      unfold AtStage at stage
      rwa [walk] at stage
    exact Turning.explained { proceeds with turn, walk, here }
  have own : ∀ i w₁, w.walk? = some i → w.Dequeues i w₁ → w' ≠ w₁.turn i := fun i w₁ walk leaves same =>
    own ⟨i, walk, on.step, w₁, leaves, same⟩
  rcases on.turns shown proceeds.scheduled with beside | ⟨task, w₁, x, leaves, here, inner, same, works⟩
  · exact proceeds.beside beside own
  cases inner with
  | attempt b => exact proceeds.attempt ⟨on.step, w₁, leaves, same⟩ here own
  | walk k =>
      -- the task of a traversal of an earlier run, which is over
      obtain ⟨t, mode⟩ := k
      obtain ⟨e, rfl⟩ : ∃ e, mode = .over e :=
        shown.walks task _ here (.inl fun walk => own task w₁ walk leaves same)
      have still : w' = w₁.atTurn task := same.trans works
      exact proceeds.beside (.quiet (still ▸ leaves.quiet.trans (w₁.atTurn_quiet task))) own

/-- An execution loses patience for the reason that its traversal has. -/
theorem EndsIn.explained {x : Execution} (ends : w.EndsIn x w') (why : w₀.Explained w)
    (lost : x.outcome = .failed (.blockTimeout id limit)) :
    limit = w₀.session.options.blockTimeout ∧ w₀.Traced w id := by
  obtain ⟨st, s, stage, how, _⟩ := ends.how
  rw [lost] at how
  obtain rfl : st = .over (.failed (.blockTimeout id limit)) := by
    generalize same : Outcome.failed (.blockTimeout id limit) = o at how
    cases how <;> cases same
    rfl
  unfold AtStage at stage
  split at stage
  · cases stage
  · rename_i i walk
    obtain ⟨⟨t, mode⟩, here, ended⟩ := stage
    have why := why i t mode walk here
    cases mode with
    | «over» e =>
        cases ended
        exact why id limit rfl
    | awaiting j | abandoning j =>
        obtain ⟨_, _, other⟩ := Option.map_eq_some_iff.mp ended
        cases other
    | _ => cases ended

section Run

variable {graph : Graph} {registry : Registry} {draws : List Double} {commands : List (Command α)}

theorem LeadsOn.explained (on : w.LeadsOn w')
    (steps : (ofCommands (Session.ofGraph graph registry draws) commands).Leads w)
    (proper : ∀ x ∈ commands, x.Proper) (running : w.session.running = true) (opening : w.AtStage .opening) :
    w.Explained w' := by
  have stored : 0 < (Session.ofGraph graph registry draws).stores.size := Nat.succ_pos 0
  induction on with
  | refl =>
      obtain ⟨i, t, walk, here⟩ := opening.opening
      exact explained_of_work walk here trivial
  | tail before step ih =>
      have steps₁ := steps.trans (LeadsOn.leads before)
      obtain ⟨c, shown, _⟩ := Leads.settled steps₁ proper step.running
      exact Proceeds.explained ⟨ih, before, (LeadsOn.beats before steps proper).options running, shown,
        Leads.scheduled steps₁ stored proper, step⟩

/-- A run that is about to fail goes on so until its execution ends. -/
theorem LeadsOn.doomed {g : RunFault} (on : w.LeadsOn w')
    (steps : (ofCommands (Session.ofGraph graph registry draws) commands).Leads w)
    (proper : ∀ x ∈ commands, x.Proper) (doomed : w.Doomed g) : w'.Doomed g := by
  have stored : 0 < (Session.ofGraph graph registry draws).stores.size := Nat.succ_pos 0
  induction on with
  | refl => exact doomed
  | tail before step ih =>
      have steps₁ := steps.trans (LeadsOn.leads before)
      obtain ⟨c, shown, settled⟩ := Leads.settled steps₁ proper step.running
      exact step.doomed shown (Leads.scheduled steps₁ stored proper) settled ih

end Run

end World

/-- Faults of block logic. When the logic of an element raises a fault in a run, whatever its form, the
execution ends with that fault, told of the element and its type, unless it is cancelled or runs out of its own
time before that is told; only a time-out that logic raises which goes on item by item, or is waited for, is
told as the impatience of the run. And a run loses patience with an element only when that has raised such a
time-out, or when what it was to hand over next was waited for longer than blocks may take. -/
theorem run_blames {α : Type} {graph : Graph} {registry : Registry} {draws : List Double}
    {commands : List (Command α)} (proper : ∀ x ∈ commands, x.Proper) {w w₁ : World α}
    (steps : (World.ofCommands (Session.ofGraph graph registry draws) commands).Leads w)
    (running : w.session.running = true) (opening : w.AtStage .opening) (on : w.LeadsOn w₁) :
    (∀ e f w₂ g, w₁.Raises e f w₂ g → (f.kind ≠ .timeout → g = .block e.id e.type f) ∧ w₁.StepsOn w₂ ∧
      ∀ w₃ w', w₂.LeadsOn w₃ → w₃.step = some w' → ¬w₃.StepsOn w' → ∃ x, w₃.EndsIn x w' ∧
        (x.outcome = .failed g ∨ x.outcome = .cancelled ∨ ∃ ms, x.outcome = .failed (.runTimeout ms))) ∧
    ∀ x w' id limit, w₁.EndsIn x w' → x.outcome = .failed (.blockTimeout id limit) →
      limit = w.session.options.blockTimeout ∧ w.Traced w₁ id := by
  have stored : 0 < (Session.ofGraph graph registry draws).stores.size := Nat.succ_pos 0
  have steps₁ := steps.trans (World.LeadsOn.leads on)
  have running₁ := World.LeadsOn.running on running
  refine ⟨fun e f w₂ g raises => ⟨fun ordinary => ?_, ?_⟩, fun x w' id limit ends lost =>
    ends.explained (World.LeadsOn.explained on steps proper running opening) lost⟩
  · cases raises with
    | gathered => rfl
    | sequenced => exact if_neg ordinary
    | awaited => exact if_neg ordinary
  · obtain ⟨c, shown, settled⟩ := World.Leads.settled steps₁ proper running₁
    have scheduled := World.Leads.scheduled steps₁ stored proper
    obtain ⟨stepsOn, doomed⟩ := raises.doomed shown scheduled settled running₁
    refine ⟨stepsOn, fun w₃ w' on' step leaves => ?_⟩
    have steps₂ := steps₁.tail stepsOn.step
    have running₃ := World.LeadsOn.running on' stepsOn.still
    obtain ⟨_, shown₃, _⟩ := World.Leads.settled (steps₂.trans (World.LeadsOn.leads on')) proper running₃
    obtain ⟨x, ends⟩ := shown₃.endsIn running₃ step leaves
    exact ⟨x, ends, (World.LeadsOn.doomed on' steps₂ proper doomed).outcome shown₃ ends⟩

/-! ### A run whose first element fails -/

/-- A block whose logic raises a fault at once. -/
def BlockDefinition.failing : BlockDefinition :=
  { BlockDefinition.one with logic := .script .sequence [.raise (.raised .type "no number")] [] }

namespace World

/-- A world in which a run of two such elements is about to begin. -/
def failing : World Unit := ofCommands (.ofGraph .pair ⟨[("one", .failing)]⟩ []) [.execute .plain]

/-- The element whose logic raises a fault next, of those whose logic goes on item by item. -/
def raises? (w : World Unit) : Option (Element × Fault) :=
  match w.busy? with
  | none => none
  | some i =>
    if w.walk? = some i ∧ w.called i = false then
      match w.work? i with
      | some (.walk ⟨⟨_, frame :: _⟩, .walking⟩) => match frame.pending, frame.source with
        | [], .sequence p => match (p.resume w.session).1 with
          | .ended (.fault f) => some (frame.element, f)
          | _ => none
        | _, _ => none
      | _ => none
    else none

theorem raises_of_raises? {w w' : World Unit} {e : Element} {f : Fault} (raised : w.raises? = some (e, f))
    (step : w.step = some w') : w.Raises e f w' (e.blame w.session.options.blockTimeout f) := by
  unfold raises? at raised
  split at raised
  · cases raised
  · rename_i i busy
    split at raised
    · rename_i own
      split at raised
      · rename_i here
        split at raised
        · rename_i pending source
          split at raised
          · rename_i ends
            cases raised
            rw [w.step_busy busy] at step
            exact .sequenced ⟨w.step_busy busy ▸ step, _, dequeues_busy busy, (Option.some.inj step).symm⟩ own.2
              ⟨own.1, _, _, here, rfl⟩ rfl pending source ends
          · cases raised
        · cases raised
      · cases raised
    · cases raised

/-- The logic of the first element raises its fault, and the run is over six steps later. -/
theorem failing_runs : (run 1 failing).isToOpen = true ∧ (run 1 failing).session.running = true ∧
    staysOn 3 (run 1 failing) = true ∧
    ((run 3 (run 1 failing)).raises?.map fun (e, f) => (e.id, e.type, f.kind)) = some ("first", "one", .type) ∧
    (run 3 (run 1 failing)).step.map (staysOn 5) = some true ∧
    ((run 3 (run 1 failing)).step.bind fun w => (run 5 w).step.map (·.session.running)) = some false := by
  decide +kernel

end World

/-- The fault of the first element is what its run fails with. -/
theorem run_blames_failing : ∃ e f w w' x, (World.run 3 (World.run 1 .failing)).Raises e f w
      (.block "first" "one" f) ∧ (World.run 5 w).EndsIn x w' ∧
    (x.outcome = .failed (.block "first" "one" f) ∨ x.outcome = .cancelled ∨
      ∃ ms, x.outcome = .failed (.runTimeout ms)) := by
  have steps : World.failing.Leads (World.run 1 .failing) := World.leads_run 1 _
  obtain ⟨toOpen, running, stays, raised, goes, ends⟩ := World.failing_runs
  generalize World.run 1 .failing = w₀ at steps toOpen running stays raised goes ends ⊢
  obtain ⟨w, step, stays'⟩ := Option.map_eq_some_iff.mp goes
  obtain ⟨⟨e, f⟩, raises, same⟩ := Option.map_eq_some_iff.mp raised
  obtain ⟨named, typed, kind⟩ : e.id = "first" ∧ e.type = "one" ∧ f.kind = .type := by
    simpa only [Prod.mk.injEq] using same
  rw [step, Option.bind_some] at ends
  obtain ⟨w', step', idle⟩ := Option.map_eq_some_iff.mp ends
  have blames := World.raises_of_raises? raises step
  obtain ⟨dooms, _⟩ := run_blames Request.plain_proper steps running (World.atStage_of_toOpen toOpen)
    (World.leadsOn_run stays)
  obtain ⟨told, _, fails⟩ := dooms e f w _ blames
  rw [told (by rw [kind]; exact nofun), named, typed] at blames fails
  obtain ⟨x, ended, outcome⟩ := fails _ w' (World.leadsOn_run stays') step' fun on => by
    rw [on.still] at idle
    cases idle
  exact ⟨e, f, w, w', x, blames, ended, outcome⟩

end BlockGraph
