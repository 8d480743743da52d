import BlockGraph.Proofs.Lone
import BlockGraph.Proofs.Patience
import BlockGraph.Proofs.Stops
/-!
The gate in the worlds that come of commands. A run of a barred graph ends with what bars it, unless it is
cancelled, and nothing of it happens; a run that has passed the gate finds its graph valid to its end.
-/
namespace BlockGraph

namespace World

variable {α : Type} {w w₁ w' : World α} {c : Course} {task : Nat} {f : RunFault} {p : Pending}

/-! ### How executions end -/

/-- What a task does that waits for an execution: that one is over. -/
theorem Shows.works_concludes (h : Shows none w c) {x : Work α} (here : w.work? task = some x)
    (waits : x.pending? = some p) (cancelled : Bool) :
    (w.works task x cancelled).Ended (w.conclude task p cancelled).1 ∧
      ∃ s, Concludes w.session c.stage (w.conclude task p cancelled).1.outcome s ∧
        (w.conclude task p cancelled).1.session = s.closed := by
  have pending : w.pending? task = some p := by
    rw [World.pending?, here]
    exact waits
  have turning : Shows (some task) w c := h.except fun y there inner => by
    cases Option.some.inj (here.symm.trans there)
    cases inner <;> cases waits
  obtain ⟨s, how, told, _⟩ := turning.concludes (h.waiting pending).2.1 cancelled
  refine ⟨?_, s, how, told⟩
  cases x with
  | walk k => cases waits
  | attempt a => cases waits
  | runner m =>
      cases m with
      | pending p' =>
          cases waits
          have there := (Shows.conclude_work w task p cancelled task).trans here
          have quiet := (w.conclude task p cancelled).2.runnerOver_quiet task (w.conclude task p cancelled).1
          refine .inr ⟨task, (execution?_eq _ task _).mpr ((quiet.work task).trans ?_)⟩
          rw [withWork_work, if_pos rfl, there]
          rfl
      | _ => cases waits
  | caller k =>
      obtain ⟨commands, mode, started⟩ := k
      cases mode with
      | executing p' =>
          cases waits
          exact .inl (command_replies commands _ task started (Array.mem_push.mpr (.inr rfl)))
      | _ => cases waits

/-- The turn of a task that waits for an execution ends that. -/
theorem Shows.endsIn_works (h : Shows none w c) {u : World α} (quiet : Quiet w u) {x : Work α}
    (here : u.work? task = some x) (waits : x.pending? = some p) (cancelled : Bool)
    (running : w.session.running = true) (step : w.step = some (u.works task x cancelled)) :
    w.EndsIn (u.conclude task p cancelled).1 (u.works task x cancelled) := by
  have shown := h.quiet quiet
  obtain ⟨ended, s, how, same⟩ := shown.works_concludes here waits cancelled
  refine ⟨running, step, fun on => ?_, ended, c.stage, s, h.stage, quiet.session ▸ how, same⟩
  have free := shown.unwaiting here cancelled (quiet.session ▸ running) on.still (quiet.session ▸ on.run)
  rw [waits] at free
  cases free

/-- Whether the traversal of a run has come to no element: it is to open, or is over. -/
def Shut (w : World α) (f : RunFault) : Prop := ∃ i t mode, w.walk? = some i ∧
  w.work? i = some (.walk ⟨t, mode⟩) ∧ (mode = .opening ∨ mode = .over (.failed f) ∨ mode = .over .cancelled)

theorem Beside.shut (beside : Beside w w') (shut : w.Shut f) : w'.Shut f := by
  obtain ⟨i, t, mode, walk, here, modes⟩ := shut
  exact ⟨i, t, mode, beside.walk?.trans walk, (beside.inner i _ (.walk _)).mpr here, modes⟩

/-- A turn of another task within the run. -/
theorem Puts.shut {x : Work α} {s : Session} (put : Puts task x s w w') (other : w.walk? ≠ some task)
    (shut : w.Shut f) : w'.Shut f := by
  obtain ⟨i, t, mode, walk, here, modes⟩ := shut
  exact ⟨i, t, mode, put.walk?.trans walk, put.still (fun same => other (same ▸ walk)) here, modes⟩

/-- The traversal of a barred graph is over at its first turn. -/
theorem walkTurn_shut {k : Walk} (here : w.work? task = some (.walk k)) (walk : w.walk? = some task)
    (barred : w.session.graph.Barred w.session.registry f) (shut : w.Shut f) (cancelled : Bool) :
    (w.walkTurn task k cancelled).Shut f ∧ Deeds w.session (w.walkTurn task k cancelled).session := by
  have ends : ∀ s e, (e = .failed f ∨ e = .cancelled) → Deeds w.session s →
      ((w.withSession s).walkOver task e).Shut f ∧ Deeds w.session ((w.withSession s).walkOver task e).session := by
    intro s e ends deeds
    have put := (withWork_puts here (.walk ⟨⟨[], []⟩, .over e⟩) s).finish fun k same => by
      cases same
      exact ⟨e, rfl⟩
    refine ⟨⟨task, _, _, put.walk?.trans walk, put.here, .inr ?_⟩, put.session.symm ▸ deeds⟩
    rcases ends with rfl | rfl
    · exact .inl rfl
    · exact .inr rfl
  obtain ⟨i, t, mode, walk', here', modes⟩ := shut
  cases Option.some.inj (walk.symm.trans walk')
  cases Option.some.inj (here.symm.trans here')
  rcases modes with rfl | rfl | rfl
  · cases cancelled with
    | true => exact ends w.session .cancelled (.inr rfl) .refl
    | false =>
        have refused := (w.session.opening_gate.2 f).mpr barred
        have deeds := w.session.opening_deeds.1
        unfold World.walkTurn
        simp only
        split <;> rename_i same <;> rw [same] at refused deeds
        · cases refused
        · cases refused
          exact ends _ _ (.inl rfl) deeds
  · exact ⟨⟨task, t, _, walk, here, .inr (.inl rfl)⟩, .refl⟩
  · exact ⟨⟨task, t, _, walk, here, .inr (.inr rfl)⟩, .refl⟩

/-- Within a run of a barred graph nothing happens. -/
theorem StepsOn.shut (on : w.StepsOn w') (h : Shows none w c) (calls : w.Calls Command.Spares)
    (barred : w.session.graph.Barred w.session.registry f) (shut : w.Shut f) (unrun : w.session.Unrun) :
    w'.Shut f ∧ Kept w.session w'.session ∧ w'.session.Unrun := by
  suffices goes : w'.Shut f ∧ Deeds w.session w'.session by
    have kept := goes.2.kept_of_running on.running
    refine ⟨goes.1, kept, unrun.kept kept (on.slots h calls unrun.processed fun i k walk here => ?_)⟩
    obtain ⟨i', t, mode, walk', here', modes⟩ := shut
    cases Option.some.inj (walk.symm.trans walk')
    cases Option.some.inj (here.symm.trans here')
    exact modes.imp id fun ends => ends.elim (⟨_, ·⟩) (⟨_, ·⟩)
  rcases on.works h with ⟨beside, deeds, _⟩ | ⟨w₁, task, x, cancelled, quiet, shown, _, here, inner, rfl⟩
  · exact ⟨beside.shut shut, deeds⟩
  have shut := (Beside.quiet quiet).shut shut
  rw [← quiet.session] at barred ⊢
  cases inner with
  | attempt a =>
      have other : w₁.walk? ≠ some task := fun walk => by
        obtain ⟨i, t, mode, walk', there, _⟩ := shut
        cases Option.some.inj (walk.symm.trans walk')
        cases Option.some.inj (here.symm.trans there)
      obtain ⟨_, _, _, _, put, _⟩ : Worked False task a w₁ (w₁.attemptTurn task a cancelled) c :=
        shown.attemptTurn here cancelled False.elim
      exact ⟨put.shut other shut, attemptTurn_deeds here (shown.session ▸ shown.known task a here) cancelled⟩
  | walk k =>
      by_cases walk : w₁.walk? = some task
      · exact walkTurn_shut here walk barred shut cancelled
      · obtain ⟨t, mode⟩ := k
        obtain ⟨e, rfl⟩ : ∃ e, mode = .over e := shown.walks task _ here (.inl walk)
        exact ⟨shut, .refl⟩

/-- How an execution is over whose traversal came to no element. -/
theorem Shut.outcome (shut : w.Shut f) (walk : w.walk? = some p.walk) {cancelled : Bool}
    (patient : w.Opening p.walk → cancelled = true) :
    (w.conclude task p cancelled).1.outcome = .failed f ∨ (w.conclude task p cancelled).1.outcome = .cancelled := by
  obtain ⟨i, t, mode, walk', here, modes⟩ := shut
  cases Option.some.inj (walk.symm.trans walk')
  cases cancelled with
  | true => exact .inr rfl
  | false =>
      have ends : ∀ e, mode = .over e → (w.unschedule task).walkEnd? p.walk = some e := by
        rintro e rfl
        exact (Shows.walkEnd?_eq _ _ _).mpr ⟨t, here⟩
      rcases modes with rfl | rfl | rfl
      · cases patient ⟨t, here⟩
      · left
        unfold World.conclude
        simp only [Bool.false_eq_true, if_false, ends _ rfl]
        rfl
      · right
        unfold World.conclude
        simp only [Bool.false_eq_true, if_false, ends _ rfl]
        rfl

/-! ### Runs behind the gate -/

/-- Behind the gate a step leaves the graph valid. -/
theorem StepsOn.valid (on : w.StepsOn w') (h : Shows none w c)
    (admits : ∀ e ∈ w.session.graph.elements, w.session.registry.Admits e) (valid : c.stage.Valid) :
    ∃ c', Shows none w' c' ∧ c'.stage.Valid := by
  obtain ⟨c', shown, ⟨same, _⟩ | passes⟩ := on.passes h
  · exact ⟨c', shown, same ▸ valid⟩
  · refine ⟨c', shown, ?_⟩
    rw [h.session] at admits
    cases passes with
    | rest => exact valid
    | next _ next => exact Stage.next_valid next valid admits
    | cut _ _ cut => exact cut.valid valid
    | aside => exact valid

/-- Any number of steps within a run in which no type is registered or taken away. -/
abbrev LeadsSteadily : World α → World α → Prop :=
  Relation.ReflTransGen fun w w' => w.StepsOn w' ∧ w'.session.registry = w.session.registry

theorem LeadsSteadily.leadsOn (steadily : w.LeadsSteadily w') : w.LeadsOn w' :=
  Relation.ReflTransGen.mono (fun _ _ step => step.1) _ _ steadily

theorem LeadsSteadily.registry (steadily : w.LeadsSteadily w') : w'.session.registry = w.session.registry := by
  induction steadily with
  | refl => rfl
  | tail _ step ih => exact step.2.trans ih

section Run

variable {graph : Graph} {registry : Registry} {draws : List Double} {commands : List (Command α)}

/-- The graph of a run is that of its session. -/
theorem Leads.graph_eq (steps : (ofCommands (Session.ofGraph graph registry draws) commands).Leads w)
    (proper : ∀ x ∈ commands, x.Proper) : w.session.graph = graph := by
  obtain ⟨c, shown, holds⟩ := World.Leads.shows (unstarted_law graph) proper steps
  rw [shown.session]
  exact holds.graph

theorem LeadsSteadily.shut (steadily : w.LeadsSteadily w')
    (steps : (ofCommands (Session.ofGraph graph registry draws) commands).Leads w)
    (proper : ∀ x ∈ commands, x.Proper) (spares : ∀ x ∈ commands, x.Spares)
    (barred : w.session.graph.Barred w.session.registry f) (shut : w.Shut f) (unrun : w.session.Unrun) :
    w'.Shut f ∧ Kept w.session w'.session ∧ w'.session.Unrun := by
  have stored : 0 < (Session.ofGraph graph registry draws).stores.size := Nat.succ_pos 0
  induction steadily with
  | refl => exact ⟨shut, .refl _, unrun⟩
  | tail steadily step ih =>
      obtain ⟨shut, kept, unrun⟩ := ih
      have steps := steps.trans (LeadsOn.leads (LeadsSteadily.leadsOn steadily))
      obtain ⟨_, _, shown⟩ := (ofCommands_shows stored proper).leads steps
      have barred := barred
      rw [← kept.graph, ← LeadsSteadily.registry steadily] at barred
      obtain ⟨shut, kept', unrun⟩ := step.1.shut shown (Leads.calls stored proper spares steps) barred shut unrun
      exact ⟨shut, kept.trans kept', unrun⟩

theorem LeadsSteadily.valid (steadily : w.LeadsSteadily w')
    (steps : (ofCommands (Session.ofGraph graph registry draws) commands).Leads w)
    (proper : ∀ x ∈ commands, x.Proper) (h : Shows none w c)
    (admits : ∀ e ∈ graph.elements, w.session.registry.Admits e) (valid : c.stage.Valid) :
    ∃ c', Shows none w' c' ∧ c'.stage.Valid := by
  induction steadily with
  | refl => exact ⟨c, h, valid⟩
  | tail steadily step ih =>
      obtain ⟨c', shown, valid⟩ := ih
      refine step.1.valid shown ?_ valid
      rw [Leads.graph_eq (steps.trans (LeadsOn.leads (LeadsSteadily.leadsOn steadily))) proper,
        LeadsSteadily.registry steadily]
      exact admits

/-- An execution does not find its graph invalid when its traversal is not about to. -/
theorem EndsIn.valid {e : Execution} (ends : w.EndsIn e w') (h : Shows none w c) (valid : c.stage.Valid)
    (failed : e.outcome = .failed f) : ¬f.Invalidates := by
  obtain ⟨st, s, stage, how, _⟩ := ends.how
  cases AtStage.unique stage h.stage
  rw [failed] at how
  generalize c.stage = st at how valid
  cases how with
  | failed f => exact valid f rfl
  | outOfTime => exact nofun

end Run

end World

namespace World

/-- A world in which two elements are about to be run whose type nobody has registered. -/
def unknown : World Unit := ofCommands (.ofGraph .pair ⟨[]⟩ []) [.execute .plain]

/-- Whether the traversal of a world is to open. -/
def isToOpen (w : World Unit) : Bool :=
  match w.walk?.bind w.work? with
  | some (.walk ⟨_, .opening⟩) => true
  | _ => false

theorem atStage_of_toOpen {w : World Unit} (h : w.isToOpen = true) : w.AtStage .opening := by
  unfold isToOpen at h
  split at h
  · rename_i t same
    obtain ⟨i, walk, here⟩ := Option.bind_eq_some_iff.mp same
    unfold AtStage
    rw [walk]
    exact ⟨_, here, rfl⟩
  · cases h

end World

/-- A block that complains about all properties, without a text. -/
def BlockDefinition.wordless : BlockDefinition :=
  { BlockDefinition.one with check := fun _ => .ok (.foreign ⟨"T", "m", none, true, 0, 0⟩) }

namespace World

/-- A world in which a run of elements of an unknown type is cancelled before it opens. -/
def withdrawn : World Unit :=
  ofCommands (.ofGraph .pair ⟨[]⟩ []) [.start .plain, .wait (.ms 0), .cancel, .join]

end World

end BlockGraph
