import BlockGraph.Proofs.Gated
import BlockGraph.Proofs.Ledger
import BlockGraph.Proofs.LikeWorlds
import BlockGraph.Proofs.Unheard
/-!
Observers: whoever listens to runs and at most raises changes nothing but what is told and reported. Worlds that
differ in who listens go on in lockstep, whether or not diagnostics are left out in one of them.
-/
namespace BlockGraph

/-- What is asked for when nobody listens. -/
def Request.unheard (off : Bool) (r : Request) : Request :=
  { r with options := r.options.map (Options.unheard off), listener := ⟨r.listener.number, fun _ => []⟩ }

/-- An execution apart from who listened to it. -/
def Execution.unheard (off : Bool) (e : Execution) : Execution := { e with session := e.session.unheard off }

def Command.unheard {α : Type} (off : Bool) : Command α → Command α
  | .execute r => .execute (r.unheard off)
  | .start r => .start (r.unheard off)
  | x => x

/-- What a caller is told of executions; what it has found out for itself is left out. -/
def Reply.unheard? {α : Type} (off : Bool) : Reply α → Option (Reply α)
  | .acted _ => none
  | .waited => some .waited
  | .executed e => some (.executed (e.unheard off))

theorem Reply.executed_unheard {α : Type} {off : Bool} {e e' : Execution} (same : e'.unheard false = e.unheard off) :
    (Reply.executed e' : Reply α).unheard? false = (Reply.executed e).unheard? off :=
  congrArg (fun e => some (Reply.executed e)) same

def Work.unheard {α : Type} (off : Bool) : Work α → Work α
  | .caller c => .caller { c with commands := c.commands.map (Command.unheard off) }
  | .runner (.fresh r) => .runner (.fresh (r.unheard off))
  | .runner (.over e) => .runner (.over (e.unheard off))
  | x => x

/-- Worlds apart from who listens in them. -/
def Lens.unheard {α : Type} (off : Bool) : Lens α :=
  ⟨Session.unheard off, Work.unheard off, fun replies => replies.filterMap (Reply.unheard? off)⟩

/-- A world apart from who listens in it. With `off`, logs do without what was found out about the graph. -/
def World.unheard {α : Type} (off : Bool) (w : World α) : World α := (Lens.unheard off).world w

/-- Worlds apart from who listens in them, and from their sessions. -/
def Lens.muted {α : Type} (off : Bool) : Lens α := { Lens.unheard off with session := fun _ => .ofGraph ⟨[], []⟩ ⟨[]⟩ [] }

/-- Whether a command is passive: those who listen to what it asks for may raise, but do nothing else, and what a
caller does to a session does not depend on who listens. -/
def Command.Passive {α : Type} : Command α → Prop
  | .act f => ∀ g off armed s t, Session.Echoes g off armed s t → (f s).2.Echoes g off armed (f t).2
  | .execute r | .start r => r.listener.Raises
  | _ => True

/-- Whether all that a task has left to do is passive. -/
def Work.Passive {α : Type} : Work α → Prop
  | .caller c => ∀ x ∈ c.commands, x.Passive
  | .runner (.fresh r) => r.listener.Raises
  | _ => True

section Commands

variable {α : Type} {off : Bool}

/-- To ask for a stop, to reset a session, and to look at it, depends on no listener. -/
theorem Command.stop_passive (look : Session → α) :
    (Command.act fun s => (look s, s.stop)).Passive :=
  fun g off armed _ _ h => (Session.Echoes.likeness g off armed).stop h

theorem Command.reset_passive (look : Session → α) : (Command.act fun s => (look s, s.reset?.getD s)).Passive :=
  fun _ _ _ _ _ h => h.reset

theorem Command.look_passive (look : Session → α) : (Command.act fun s => (look s, s)).Passive :=
  fun _ _ _ _ _ h => h

/-- Two commands that differ in who listens. -/
inductive Command.Twins (off : Bool) : Command α → Command α → Prop
  | act (f : Session → α × Session) : Twins off (.act f) (.act f)
  | wait (length : Span) : Twins off (.wait length) (.wait length)
  | execute {r r' : Request} : r'.unheard false = r.unheard off → Twins off (.execute r) (.execute r')
  | start {r r' : Request} : r'.unheard false = r.unheard off → Twins off (.start r) (.start r')
  | cancel : Twins off .cancel .cancel
  | join : Twins off .join .join

theorem Command.twins {x x' : Command α} (same : x'.unheard false = x.unheard off) : Command.Twins off x x' := by
  cases x with
  | act f =>
      cases x' with
      | act f' => exact Command.act.inj same ▸ .act f'
      | _ => cases same
  | wait length =>
      cases x' with
      | wait length' => exact Command.wait.inj same ▸ .wait length'
      | _ => cases same
  | execute r =>
      cases x' with
      | execute r' => exact .execute (Command.execute.inj same)
      | _ => cases same
  | start r =>
      cases x' with
      | start r' => exact .start (Command.start.inj same)
      | _ => cases same
  | cancel =>
      cases x' with
      | cancel => exact .cancel
      | _ => cases same
  | join =>
      cases x' with
      | join => exact .join
      | _ => cases same

end Commands

/-- What is at work in runs is the same whoever listens. -/
theorem Lens.muted_pair {α : Type} (off : Bool) : (Lens.muted (α := α) false).Pair (.muted off) where
  sessions _ _ := rfl
  inner _ inner := by cases inner <;> rfl
  only x x' same inner := by
    have apart : ∀ {y y' : Work α} {b b' : Bool}, y.Inner → y'.unheard b' = y.unheard b → y' = y := by
      intro y y' b b' inner same
      cases inner with
      | walk k =>
          cases y' with
          | walk k' => exact same
          | runner m => cases m <;> cases same
          | _ => cases same
      | attempt a =>
          cases y' with
          | attempt a' => exact same
          | runner m => cases m <;> cases same
          | _ => cases same
    rcases inner with inner | inner
    · exact apart inner same
    · exact (apart inner same.symm).symm

/-- Executions that ended alike are the same apart from who listened to them. -/
theorem Execution.Like.unheard {g : Graph} {off armed : Bool} {e e' : Execution}
    (h : e.Like (Session.Echoes g off armed) e') : e'.unheard false = e.unheard off := by
  obtain ⟨outcome, s, elapsed, listener⟩ := e
  obtain ⟨outcome', t, elapsed', listener'⟩ := e'
  obtain ⟨rfl, session, rfl, rfl⟩ := h
  unfold Execution.unheard
  simp only [session.same]

theorem Work.ended?_unheard {α : Type} (off : Bool) (x : Work α) :
    (x.unheard off).ended? = x.ended?.map (Execution.unheard off) := by
  cases x with
  | runner m => cases m <;> rfl
  | _ => rfl

namespace World

variable {α : Type} {g : Graph} {off : Bool} {w w' w₁ w₁' : World α}

theorem execution?_bind (w : World α) (i : Nat) : w.execution? i = (w.work? i).bind Work.ended? := by
  refine Option.ext fun e => ?_
  rw [execution?_eq, Option.bind_eq_some_iff]
  constructor
  · exact fun here => ⟨_, here, rfl⟩
  · rintro ⟨x, here, over_⟩
    cases x with
    | runner m =>
        cases m <;> cases over_
        exact here
    | _ => cases over_

theorem conclude_walk? (w : World α) (task : Nat) (p : Pending) (cancelled : Bool) :
    (w.conclude task p cancelled).2.walk? = w.walk? := by
  have leaving := (w.unschedule_quiet task).trans (cancel_quiet _ p.walk)
  unfold World.conclude
  simp only
  split
  · exact leaving.walk?
  · split
    · rfl
    · rfl
    · exact leaving.walk?
    · exact leaving.walk?

/-- Whether two worlds are the same apart from who listens, and everyone who does at most raises. -/
structure Echoes (g : Graph) (off : Bool) (w w' : World α) : Prop where
  like : World.Like (Session.Echoes g off w.walk?.isSome) (.muted false) (.muted off) w w'
  passive : ∀ i x, w.work? i = some x → x.Passive
  passive' : ∀ i x, w'.work? i = some x → x.Passive

/-- What is left of the beginning of an execution once its session is taken. -/
def opened (w : World α) (task : Nat) (s : Session) (maxTime : Double) (number : Nat) : Pending × World α :=
  let (ticket, w) := (w.withSession s).park task
  let (walk, w) := w.spawn (.walk ⟨⟨[], []⟩, .opening⟩) [.release task ticket]
  let w := { w with walk? := some walk }.schedule task ticket maxTime.span
  (⟨number, w.now, walk⟩, w)

namespace Echoes

/-- A world apart from who listens is the session apart from who listens, and all else. -/
theorem unheard (h : w.Echoes g off w') : w'.unheard false = w.unheard off := by
  have muted : ∀ (b : Bool) (w : World α),
      w.unheard b = ((Lens.muted b).world w).withSession (w.session.unheard b) := fun _ _ => rfl
  rw [muted, muted, h.like.same, h.like.session.same]

theorem walk? (h : w.Echoes g off w') : w'.walk? = w.walk? := (congrArg World.walk? h.like.same :)

theorem likeness (_ : w.Echoes g off w') : Likeness (Session.Echoes g off w.walk?.isSome) :=
  Session.Echoes.likeness g off _

/-! ### Moves -/

section Moves

variable (h : w.Echoes g off w') (task : Nat)
include h

/-- A move after which the same is at work. -/
theorem rest (like : World.Like (Session.Echoes g off w.walk?.isSome) (.muted false) (.muted off) w₁ w₁')
    (walk : w₁.walk? = w.walk?) (work : ∀ i, w₁.work? i = w.work? i) (work' : ∀ i, w₁'.work? i = w'.work? i) :
    w₁.Echoes g off w₁' where
  like := walk ▸ like
  passive i x here := h.passive i x ((work i).symm.trans here)
  passive' i x here := h.passive' i x ((work' i).symm.trans here)

theorem quiet (like : World.Like (Session.Echoes g off w.walk?.isSome) (.muted false) (.muted off) w₁ w₁')
    (q : Quiet w w₁) (q' : Quiet w' w₁') : w₁.Echoes g off w₁' :=
  h.rest like q.walk? q.work q'.work

theorem withSession {s t : Session} (like : s.Echoes g off w.walk?.isSome t) :
    (w.withSession s).Echoes g off (w'.withSession t) :=
  h.rest (h.like.withSession (Lens.muted_pair off) like) rfl (fun _ => rfl) fun _ => rfl

theorem reply {r r' : Reply α} (same : r'.unheard? false = r.unheard? off) : (w.reply r).Echoes g off (w'.reply r') := by
  have pushed : ∀ (b : Bool) (w : World α) (r : Reply α), (Lens.muted b).world (w.reply r) =
      { (Lens.muted b).world w with replies :=
          ((Lens.muted b).world w).replies ++ (r.unheard? b).toArray } := by
    intro b w r
    refine congrArg (fun replies => { (Lens.muted b).world w with replies }) ?_
    show (w.replies.push r).filterMap (Reply.unheard? b) = w.replies.filterMap (Reply.unheard? b) ++ _
    rw [Array.filterMap_push (Array.size_push r)]
    cases r.unheard? b <;> simp
  refine h.rest ⟨h.like.session, ?_⟩ rfl (fun _ => rfl) fun _ => rfl
  rw [pushed, pushed, h.like.same, same]

theorem put {x x' : Work α} (same : x'.unheard false = x.unheard off) (passive : x.Passive) (passive' : x'.Passive) :
    (w.withWork task x).Echoes g off (w'.withWork task x') := by
  have known : ∀ {w : World α} {x : Work α}, (∀ i y, w.work? i = some y → y.Passive) → x.Passive →
      ∀ i y, (w.withWork task x).work? i = some y → y.Passive := by
    intro w x all passive i y here
    rw [withWork_work] at here
    split at here
    · obtain ⟨_, _, rfl⟩ := Option.map_eq_some_iff.mp here
      exact passive
    · exact all i y here
  exact ⟨h.like.withWork task same, known h.passive passive, known h.passive' passive'⟩

theorem spawn {x x' : Work α} (same : x'.unheard false = x.unheard off) (passive : x.Passive) (passive' : x'.Passive)
    (watchers : List Watcher) : (w'.spawn x' watchers).1 = (w.spawn x watchers).1 ∧
      (w.spawn x watchers).2.Echoes g off (w'.spawn x' watchers).2 := by
  have known : ∀ {w : World α} {x : Work α}, (∀ i y, w.work? i = some y → y.Passive) → x.Passive →
      ∀ i y, (w.spawn x watchers).2.work? i = some y → y.Passive := by
    intro w x all passive i y here
    rcases spawn_old here with ⟨_, rfl⟩ | old
    · exact passive
    · exact all i y old
  obtain ⟨number, like⟩ := h.like.spawn same watchers
  exact ⟨number, like, known h.passive passive, known h.passive' passive'⟩

theorem cancel (i : Nat) : (w.cancel i).Echoes g off (w'.cancel i) :=
  h.quiet (h.like.cancel i) (w.cancel_quiet i) (w'.cancel_quiet i)

theorem sleep (length : Span) : (w.sleep task length).Echoes g off (w'.sleep task length) :=
  h.quiet (h.like.sleep task length) (w.sleep_quiet task length) (w'.sleep_quiet task length)

theorem schedule (ticket : Nat) (length : Span) :
    (w.schedule task ticket length).Echoes g off (w'.schedule task ticket length) :=
  h.quiet (h.like.schedule task ticket length) (w.schedule_quiet task ticket length)
    (w'.schedule_quiet task ticket length)

theorem park : (w'.park task).1 = (w.park task).1 ∧ (w.park task).2.Echoes g off (w'.park task).2 := by
  obtain ⟨ticket, like⟩ := h.like.park task
  exact ⟨ticket, h.quiet like (w.park_quiet task) (w'.park_quiet task)⟩

theorem watch (i : Nat) (watchers : List Watcher) : (w.watch i watchers).Echoes g off (w'.watch i watchers) :=
  h.quiet (h.like.watch i watchers) (w.watch_quiet i watchers) (w'.watch_quiet i watchers)

/-- A run begins: from now on it shows in the sessions whether diagnostics are left out. -/
theorem awaits (armed : w.session.Echoes g off true w'.session) (walk : Nat) :
    Echoes g off { w with walk? := some walk } { w' with walk? := some walk } :=
  ⟨⟨armed, (h.like.awaits (some walk)).same⟩, h.passive, h.passive'⟩

theorem execution? (i : Nat) :
    (w'.execution? i).map (Execution.unheard false) = (w.execution? i).map (Execution.unheard off) := by
  have work : (w'.work? i).map (Work.unheard false) = (w.work? i).map (Work.unheard off) := h.like.work? i
  have ended : ∀ (b : Bool) (w : World α),
      (w.execution? i).map (Execution.unheard b) = ((w.work? i).map (Work.unheard b)).bind Work.ended? := by
    intro b w
    rw [execution?_bind]
    cases w.work? i with
    | none => rfl
    | some x => exact (x.ended?_unheard b).symm
  rw [ended, ended, work]

end Moves

/-! ### Executions -/

section Executions

variable (h : w.Echoes g off w') (task : Nat)
include h

/-- What two executions that are asked for come to at once. -/
theorem tellRefused (r r' : Request) (o o' : Options) (raises : r.listener.Raises) (raises' : r'.listener.Raises)
    (number : r'.listener.number = r.listener.number) (f : RunFault) :
    (w'.refuse r' o' f).1.unheard false = (w.refuse r o f).1.unheard off ∧
      (w.refuse r o f).2.Echoes g off (w'.refuse r' o' f).2 := by
  have told := h.like.session.tell 2 o o' raises raises' (.error f)
  refine ⟨?_, h.withSession told⟩
  unfold refuse Execution.unheard
  simp only [told.same, number]

theorem isFree : (w'.walk?.any fun i => !w'.isOver i) = w.walk?.any fun i => !w.isOver i := by
  rw [h.walk?]
  simp only [h.like.isOver]

omit h in
/-- A session that is taken opens a traversal. -/
theorem opened (h : w.Echoes g off w') {s t : Session} (taken : s.Echoes g off true t) (maxTime : Double)
    (number : Nat) : (opened w task s maxTime number).2.Echoes g off (opened w' task t maxTime number).2 ∧
      (opened w' task t maxTime number).1 = (opened w task s maxTime number).1 := by
  have parks := (h.withSession taken.disarm).park task
  have session : ((w.withSession s).park task).2.session = s := ((w.withSession s).park_quiet task).session
  have session' : ((w'.withSession t).park task).2.session = t := ((w'.withSession t).park_quiet task).session
  unfold World.opened
  simp only
  generalize (w.withSession s).park task = r at parks session
  generalize (w'.withSession t).park task = r' at parks session'
  obtain ⟨ticket, w⟩ := r
  obtain ⟨ticket', w'⟩ := r'
  obtain ⟨same, parked⟩ := parks
  cases same
  cases session
  cases session'
  have opening : (.walk ⟨⟨[], []⟩, .opening⟩ : Work α).Passive := trivial
  obtain ⟨walk, spawned⟩ := parked.spawn rfl opening opening [.release task ticket]
  have begun := (spawned.awaits taken w.tasks.size).schedule task ticket maxTime.span
  rw [walk]
  exact ⟨begun, congrArg (Pending.mk number · _) (congrArg World.now begun.like.same :)⟩

/-- Executions that are asked for are declined alike, or begin alike. -/
theorem begin {r r' : Request} (twins : r'.unheard false = r.unheard off) (raises : r.listener.Raises)
    (raises' : r'.listener.Raises) : (w.begin task r).2.Echoes g off (w'.begin task r').2 ∧
      ((∃ e e', (w.begin task r).1 = .inl e ∧ (w'.begin task r').1 = .inl e' ∧
        e'.unheard false = e.unheard off) ∨ ∃ p, (w.begin task r).1 = .inr p ∧ (w'.begin task r').1 = .inr p) := by
  obtain ⟨options, bindings, listener⟩ := r
  obtain ⟨options', bindings', listener'⟩ := r'
  have asked : options'.map (Options.unheard false) = options.map (Options.unheard off) :=
    (congrArg Request.options twins :)
  obtain rfl : bindings' = bindings := (congrArg Request.bindings twins :)
  have number : listener'.number = listener.number := (congrArg (·.listener.number) twins :)
  have session := h.like.session
  unfold World.begin
  cases options with
  | error f =>
      cases options' with
      | ok o' => cases asked
      | error f' =>
          cases asked
          refine ⟨h, .inl ⟨_, _, rfl, rfl, ?_⟩⟩
          unfold Execution.unheard
          simp only [session.same, number]
  | ok o =>
      cases options' with
      | error f' => cases asked
      | ok o' =>
          have twins : o'.unheard false = o.unheard off := Except.ok.inj asked
          have refused := fun f => h.tellRefused ⟨.ok o, bindings', listener⟩ ⟨.ok o', bindings', listener'⟩ o o'
            raises raises' number f
          simp only [h.likeness.running session, h.isFree]
          split
          · exact ⟨(refused _).2, .inl ⟨_, _, rfl, rfl, (refused _).1⟩⟩
          · split
            · exact ⟨(refused _).2, .inl ⟨_, _, rfl, rfl, (refused _).1⟩⟩
            · split
              · have spoiled := session.spoiled twins raises raises'
                refine ⟨h.withSession spoiled.disarm, .inl ⟨_, _, rfl, rfl, ?_⟩⟩
                unfold Execution.unheard
                simp only [spoiled.same, number]
              · rename_i bound _
                have taken := session.taken twins raises raises' bound
                obtain ⟨begun, same⟩ := h.opened task taken o.maxTime listener.number
                rw [show o'.maxTime = o.maxTime from (congrArg Options.maxTime twins :), number]
                exact ⟨begun, .inr ⟨_, rfl, congrArg Sum.inr same⟩⟩

/-- The wait of an execution is over. -/
theorem conclude (p : Pending) (cancelled : Bool) :
    (w'.conclude task p cancelled).1.unheard false = (w.conclude task p cancelled).1.unheard off ∧
      (w.conclude task p cancelled).2.Echoes g off (w'.conclude task p cancelled).2 := by
  obtain ⟨ended, like⟩ := h.like.conclude h.likeness (Lens.muted_pair off) task p cancelled
  refine ⟨ended.unheard, h.rest like (w.conclude_walk? task p cancelled) (Shows.conclude_work w task p cancelled)
    (Shows.conclude_work w' task p cancelled)⟩

theorem runnerOver {e e' : Execution} (same : e'.unheard false = e.unheard off) :
    (World.runnerOver task (e, w)).Echoes g off (World.runnerOver task (e', w')) := by
  have over_ : (Work.runner (.over e') : Work α).unheard false = (Work.runner (.over e)).unheard off :=
    congrArg (fun e => Work.runner (.over e)) same
  have put := h.put task over_ trivial trivial
  exact put.quiet (put.like.finish task) (w.runnerOver_quiet task e) (w'.runnerOver_quiet task e')

/-- An execution that runs beside its caller has its turn. -/
theorem runnerTurn {m m' : RunnerMode} (same : (Work.runner m' : Work α).unheard false = (Work.runner m).unheard off)
    (passive : (Work.runner m : Work α).Passive) (passive' : (Work.runner m' : Work α).Passive) (cancelled : Bool) :
    (w.runnerTurn task m cancelled).Echoes g off (w'.runnerTurn task m' cancelled) := by
  cases m with
  | «over» e =>
      cases m' with
      | «over» e' => exact h
      | _ => cases same
  | pending p =>
      cases m' with
      | pending p' =>
          obtain rfl : p' = p := RunnerMode.pending.inj (Work.runner.inj same)
          obtain ⟨ended, concluded⟩ := h.conclude task p' cancelled
          exact concluded.runnerOver task ended
      | _ => cases same
  | fresh r =>
      cases m' with
      | fresh r' =>
          have twins : r'.unheard false = r.unheard off := RunnerMode.fresh.inj (Work.runner.inj same)
          cases cancelled with
          | true =>
              refine h.runnerOver task ?_
              unfold Execution.unheard
              simp only [h.like.session.same, show r'.listener.number = r.listener.number from
                (congrArg (·.listener.number) twins :)]
          | false =>
              obtain ⟨begun, ⟨e, e', over_, over', ended⟩ | ⟨p, pending, pending'⟩⟩ :=
                h.begin task twins passive passive'
              · unfold World.runnerTurn
                simp only
                generalize w.begin task r = x at begun over_
                generalize w'.begin task r' = x' at begun over'
                obtain ⟨_, w⟩ := x
                obtain ⟨_, w'⟩ := x'
                cases over_
                cases over'
                exact begun.runnerOver task ended
              · unfold World.runnerTurn
                simp only
                generalize w.begin task r = x at begun pending
                generalize w'.begin task r' = x' at begun pending'
                obtain ⟨_, w⟩ := x
                obtain ⟨_, w'⟩ := x'
                cases pending
                cases pending'
                exact begun.put task rfl trivial trivial
      | _ => cases same

end Executions

/-! ### Callers -/

section Callers

variable (task : Nat)

/-- A caller comes to wait, with commands left that differ in who listens. -/
theorem putCaller (h : w.Echoes g off w') {rest rest' : List (Command α)}
    (same : rest'.map (Command.unheard false) = rest.map (Command.unheard off)) (passive : ∀ x ∈ rest, x.Passive)
    (passive' : ∀ x ∈ rest', x.Passive) (mode : CallerMode) (started : List Nat) :
    (w.withWork task (.caller ⟨rest, mode, started⟩)).Echoes g off
      (w'.withWork task (.caller ⟨rest', mode, started⟩)) :=
  h.put task (congrArg (fun commands => (Work.caller ⟨commands, mode, started⟩ : Work α)) same) passive passive'

/-- Commands that differ in who listens are carried out alike. -/
theorem command (commands commands' : List (Command α)) (h : w.Echoes g off w')
    (same : commands'.map (Command.unheard false) = commands.map (Command.unheard off))
    (passive : ∀ x ∈ commands, x.Passive) (passive' : ∀ x ∈ commands', x.Passive) (started : List Nat) :
    (w.command task started commands).Echoes g off (w'.command task started commands') := by
  induction commands generalizing commands' w w' started with
  | nil =>
      obtain rfl : commands' = [] := List.map_eq_nil_iff.mp same
      have put := h.putCaller task same passive passive' .over started
      exact put.quiet (put.like.finish task) (w.commandNil_quiet task started) (w'.commandNil_quiet task started)
  | cons x rest ih =>
      obtain ⟨x', rest', rfl, first, others⟩ := List.map_eq_cons_iff.mp same
      have raises := passive x List.mem_cons_self
      have raises' := passive' x' List.mem_cons_self
      have left : ∀ x ∈ rest, x.Passive := fun x member => passive x (List.mem_cons_of_mem _ member)
      have left' : ∀ x ∈ rest', x.Passive := fun x member => passive' x (List.mem_cons_of_mem _ member)
      have ih : ∀ {w w' : World α} (started : List Nat), w.Echoes g off w' →
          (w.command task started rest).Echoes g off (w'.command task started rest') :=
        fun started h => ih rest' h others left left' started
      cases Command.twins first with
      | act f =>
          have acted := h.withSession (raises _ _ _ _ _ h.like.session)
          exact ih started (acted.reply rfl)
      | wait length => exact (h.putCaller task others left left' .waiting started).sleep task length
      | @execute r r' twins =>
          obtain ⟨begun, ⟨e, e', over_, over', ended⟩ | ⟨p, pending, pending'⟩⟩ :=
            h.begin task twins raises raises'
          · unfold World.command
            generalize w.begin task r = y at begun over_
            generalize w'.begin task r' = y' at begun over'
            obtain ⟨_, w⟩ := y
            obtain ⟨_, w'⟩ := y'
            cases over_
            cases over'
            exact ih started (begun.reply (Reply.executed_unheard ended))
          · unfold World.command
            generalize w.begin task r = y at begun pending
            generalize w'.begin task r' = y' at begun pending'
            obtain ⟨_, w⟩ := y
            obtain ⟨_, w'⟩ := y'
            cases pending
            cases pending'
            exact begun.putCaller task others left left' _ started
      | @start r r' twins =>
          have fresh : (Work.runner (.fresh r') : Work α).unheard false = (Work.runner (.fresh r)).unheard off :=
            congrArg (fun r => Work.runner (.fresh r)) twins
          obtain ⟨number, spawned⟩ := h.spawn fresh raises raises' []
          unfold World.command
          simp only [number]
          exact ih _ spawned
      | cancel =>
          cases started with
          | nil => exact ih [] h
          | cons runner older => exact ih (runner :: older) (h.cancel runner)
      | join =>
          cases started with
          | nil => exact ih [] h
          | cons runner older =>
              have ended := h.execution? runner
              unfold World.command
              cases over_ : w.execution? runner with
              | some e =>
                  rw [over_] at ended
                  obtain ⟨e', over', ended⟩ := Option.map_eq_some_iff.mp ended
                  simp only [over_, over']
                  exact ih older (h.reply (Reply.executed_unheard ended))
              | none =>
                  rw [over_] at ended
                  simp only [over_, Option.map_eq_none_iff.mp ended]
                  have parked := (h.park task).2.watch runner [.wake task]
                  exact parked.putCaller task others left left' (.joining runner) older

/-- A caller has its turn. -/
theorem callerTurn (h : w.Echoes g off w') {k k' : Caller α}
    (same : (Work.caller k').unheard false = (Work.caller k).unheard off) (passive : ∀ x ∈ k.commands, x.Passive)
    (passive' : ∀ x ∈ k'.commands, x.Passive) (cancelled : Bool) :
    (w.callerTurn task k cancelled).Echoes g off (w'.callerTurn task k' cancelled) := by
  obtain ⟨commands, mode, started⟩ := k
  obtain ⟨commands', mode', started'⟩ := k'
  obtain ⟨same, rfl, rfl⟩ := Caller.mk.inj (Work.caller.inj same)
  have does : ∀ {w w' : World α}, w.Echoes g off w' →
      (w.command task started' commands).Echoes g off (w'.command task started' commands') := fun h =>
    command task commands commands' h same passive passive' started'
  cases mode' with
  | «over» => exact h
  | ready => exact does h
  | waiting => exact does (h.reply rfl)
  | executing p =>
      obtain ⟨ended, concluded⟩ := h.conclude task p cancelled
      exact does (concluded.reply (Reply.executed_unheard ended))
  | joining runner =>
      have ended := h.execution? runner
      unfold World.callerTurn
      simp only
      cases over_ : w.execution? runner with
      | some e =>
          rw [over_] at ended
          obtain ⟨e', over', ended⟩ := Option.map_eq_some_iff.mp ended
          simp only [over']
          exact does (h.reply (Reply.executed_unheard ended))
      | none =>
          rw [over_] at ended
          simp only [Option.map_eq_none_iff.mp ended]
          exact does h

end Callers

/-! ### Steps -/

section Steps

variable {c c' : Course} {task : Nat} {x x' : Work α}

theorem passive_puts {y : Work α} {s : Session} (all : ∀ i z, w.work? i = some z → z.Passive) (inner : y.Inner)
    (put : Puts task y s w w₁) : ∀ i z, w₁.work? i = some z → z.Passive := by
  intro i z here
  rcases put.outer inner here with within | old
  · cases within <;> trivial
  · exact all i z old

/-- A traversal or block logic has its turn. -/
theorem inner (h : w.Echoes g off w') (shown : Shows none w c) (shown' : Shows none w' c') (inner : x.Inner)
    (graph : w.session.graph = g) (here : w.work? task = some x) (here' : w'.work? task = some x) (cancelled : Bool) :
    (w.works task x cancelled).Echoes g off (w'.works task x cancelled) := by
  obtain ⟨y, s, inner₁, put⟩ := shown.inner_puts here inner cancelled
  obtain ⟨y', s', inner₁', put'⟩ := shown'.inner_puts here' inner cancelled
  refine ⟨put.walk? ▸ ?_, passive_puts h.passive inner₁ put, passive_puts h.passive' inner₁' put'⟩
  have session := h.like.session
  cases inner with
  | attempt a => exact h.like.attemptTurn h.likeness (Lens.muted_pair off) task a cancelled
  | walk k =>
      refine h.like.walkTurn h.likeness (Lens.muted_pair off) task k cancelled (fun opens _ => ?_) fun _ _ => ?_
      · have begun : w.walk?.isSome = true := by
          by_contra none
          have other : w.walk? ≠ some task := fun same => none (same ▸ rfl)
          obtain ⟨e, over_⟩ := shown.walks task k here (.inl other)
          rw [opens] at over_
          cases over_
        have likeness := h.likeness
        rw [begun] at session likeness ⊢
        exact likeness.opening (session.diagnosed graph)
      · exact h.likeness.step Session.Echoes.registry session session.roomy
          (fun _ => Session.Echoes.roomy (h.likeness.notified _ (h.likeness.note session _))) k.traversal

theorem works (h : w.Echoes g off w') (shown : Shows none w c) (shown' : Shows none w' c')
    (graph : w.session.graph = g) (here : w.work? task = some x) (here' : w'.work? task = some x') (same : x'.unheard false = x.unheard off)
    (cancelled : Bool) : (w.works task x cancelled).Echoes g off (w'.works task x' cancelled) := by
  have passive := h.passive task x here
  have passive' := h.passive' task x' here'
  have within : x.Inner → (w.works task x cancelled).Echoes g off (w'.works task x' cancelled) := by
    intro inner
    obtain rfl := (Lens.muted_pair off).only x x' same (.inl inner)
    exact h.inner shown shown' inner graph here here' cancelled
  cases x with
  | walk k => exact within (.walk k)
  | attempt a => exact within (.attempt a)
  | caller k =>
      cases x' with
      | caller k' => exact h.callerTurn task same passive passive' cancelled
      | runner m => cases m <;> cases same
      | _ => cases same
  | runner m =>
      cases x' with
      | runner m' => exact h.runnerTurn task same passive passive' cancelled
      | _ => cases m <;> cases same

/-- Worlds that differ in who listens go on in lockstep. -/
theorem step (h : w.Echoes g off w') (shown : Shows none w c) (shown' : Shows none w' c')
    (graph : w.session.graph = g) (step : w.step = some w₁) :
    ∃ w₁', w'.step = some w₁' ∧ w₁.Echoes g off w₁' := by
  rcases h.like.step step with
    ⟨w₁', step', q, q', like⟩ | ⟨u, u', task, x, x', cancelled, q, q', like, here, here', same, rfl, step'⟩
  · exact ⟨w₁', step', h.quiet like q q'⟩
  · have graph : u.session.graph = g := q.session ▸ graph
    have turns := (h.quiet like q q').works (shown.quiet q) (shown'.quiet q') graph here here' same cancelled
    exact ⟨_, step', turns⟩

end Steps

/-! ### Runs -/

section Run

variable {registry : Registry} {draws : List Double} {commands commands' : List (Command α)}

theorem ofCommands (same : commands'.map (Command.unheard false) = commands.map (Command.unheard off))
    (passive : ∀ x ∈ commands, x.Passive) (passive' : ∀ x ∈ commands', x.Passive) :
    (World.ofCommands (Session.ofGraph g registry draws) commands).Echoes g off
      (World.ofCommands (Session.ofGraph g registry draws) commands') := by
  have known : ∀ {commands : List (Command α)}, (∀ x ∈ commands, x.Passive) → ∀ i x,
      (World.ofCommands (Session.ofGraph g registry draws) commands).work? i = some x → x.Passive := by
    intro commands passive i x here
    cases i with
    | zero =>
        cases here
        exact passive
    | succ i => cases here
  have session : (Session.ofGraph g registry draws).Echoes g off false (Session.ofGraph g registry draws) := by
    refine ⟨?_, Listener.silent_raises, Listener.silent_raises, fun _ member => absurd member (Array.not_mem_empty _),
      nofun⟩
    cases off <;> rfl
  refine ⟨⟨session, ?_⟩, known passive, known passive'⟩
  have tasks : ∀ b (commands : List (Command α)),
      (Lens.muted b).world (World.ofCommands (Session.ofGraph g registry draws) commands) =
        World.ofCommands (.ofGraph ⟨[], []⟩ ⟨[]⟩ []) (commands.map (Command.unheard b)) := by
    simp [Lens.muted, Lens.unheard, Lens.world, Lens.task, Work.unheard, World.ofCommands]
  rw [tasks, tasks, same]

/-- Runs that differ in who listens go on in lockstep. -/
theorem run (h : w.Echoes g off w')
    (steps : (World.ofCommands (Session.ofGraph g registry draws) commands).Leads w)
    (steps' : (World.ofCommands (Session.ofGraph g registry draws) commands').Leads w')
    (proper : ∀ x ∈ commands, x.Proper) (proper' : ∀ x ∈ commands', x.Proper) (n : Nat) :
    (World.run n w).Echoes g off (World.run n w') := by
  have stored : 0 < (Session.ofGraph g registry draws).stores.size := Nat.succ_pos 0
  induction n generalizing w w' with
  | zero => exact h
  | succ n ih =>
      unfold World.run
      cases step : w.step with
      | none =>
          rw [h.like.step_none step]
          exact h
      | some w₁ =>
          obtain ⟨c, _, shown⟩ := (ofCommands_shows stored proper).leads steps
          obtain ⟨c', _, shown'⟩ := (ofCommands_shows stored proper').leads steps'
          obtain ⟨w₁', step', after⟩ := h.step shown shown' (steps.graph_eq proper) step
          rw [step']
          exact ih after (steps.tail step) (steps'.tail step')

end Run

end Echoes

end World

/-- Observers are passive. Callers ask for the same in two worlds, but for other listeners and, with `off`, for runs
without diagnostics in the second; whatever listeners do when they are told something, they do no more than raise. At
any time the two worlds are the same apart from who listens: the same is at work in them at the same time, and their
sessions, like those of executions that have ended, agree in status, error, execution order, stored values, steps and
counters. Their logs agree as well, but that with `off` the second does without diagnostics, and these are no more
than what was found out about the graph. -/
theorem run_unheard {α : Type} {graph : Graph} {registry : Registry} {draws : List Double}
    {commands commands' : List (Command α)} {off : Bool} (proper : ∀ x ∈ commands, x.Proper)
    (proper' : ∀ x ∈ commands', x.Proper) (passive : ∀ x ∈ commands, x.Passive) (passive' : ∀ x ∈ commands', x.Passive)
    (same : commands'.map (Command.unheard false) = commands.map (Command.unheard off)) (n : Nat) :
    let w := World.run n (.ofCommands (.ofGraph graph registry draws) commands)
    let w' := World.run n (.ofCommands (.ofGraph graph registry draws) commands')
    w'.unheard false = w.unheard off ∧
      ∀ line ∈ w.session.log, isDiagnosis line = true → line ∈ Session.findings graph := by
  have begins : World.Echoes graph off (.ofCommands (.ofGraph graph registry draws) commands)
      (.ofCommands (.ofGraph graph registry draws) commands') := .ofCommands same passive passive'
  have echoes := begins.run .refl .refl proper proper' n
  exact ⟨echoes.unheard, echoes.like.session.found⟩


/-! ### A cycle, and an element that stands alone -/

/-- Two elements of which the second also leads to itself, and one that stands alone. -/
def Graph.tangled : Graph :=
  { Graph.pair with
    elements := Graph.pair.elements ++ [⟨"third", "one", .int 0, .int 0, []⟩]
    connections := Graph.pair.connections ++ [⟨"back", "second", "second", none, none⟩] }

namespace World

/-- The request of a run with or without diagnostics, and with a listener that does the same whatever it is told. -/
def watching (detectCycles : Bool) (reactions : List Reaction) : List (Command Unit) :=
  [.execute ⟨.ok (.watched detectCycles), .null, ⟨1, fun _ => reactions⟩⟩]

def tangled (detectCycles : Bool) (reactions : List Reaction) : World Unit :=
  ofCommands (.ofGraph .tangled ⟨[("one", .one)]⟩ []) (watching detectCycles reactions)

theorem watching_proper (detectCycles : Bool) (reactions : List Reaction) :
    ∀ x ∈ watching detectCycles reactions, x.Proper := by
  intro x member
  rw [List.mem_singleton.mp member]
  intro options accepted
  rw [← Except.ok.inj accepted]
  exact Options.watched_valid detectCycles

theorem watching_passive (detectCycles : Bool) {reactions : List Reaction}
    (raises : ∀ x ∈ reactions, ∃ f, x = .raise f) : ∀ x ∈ watching detectCycles reactions, x.Passive := by
  intro x member
  rw [List.mem_singleton.mp member]
  exact fun _ => raises

/-- A listener that raises has been reported each time, and three lines of the log are due to diagnostics. -/
theorem tangled_runs : (run 60 (tangled true [.raise (.raised .type "not now")])).session.journal.size = 14 ∧
    (run 60 (tangled true [.raise (.raised .type "not now")])).session.log.size = 12 ∧
    (run 60 (tangled false [])).session.journal.size = 2 ∧
    (run 60 (tangled false [])).session.log.size = 9 ∧
    (run 60 (tangled false [])).session.status = .completed ∧
    (run 60 (tangled false [])).session.processed = ["first", "second", "third"] := by decide +kernel

end World

/-- A run that logs what is wrong with its graph to a listener that raises comes to the same as one that does not. -/
theorem run_unheard_tangled :
    (World.run 60 (.tangled true [.raise (.raised .type "not now")])).session.status = .completed ∧
      (World.run 60 (.tangled true [.raise (.raised .type "not now")])).session.processed =
        ["first", "second", "third"] ∧
      (World.run 60 (.tangled false [])).session.log =
        (World.run 60 (.tangled true [.raise (.raised .type "not now")])).session.log.filter (!isDiagnosis ·) ∧
      (World.run 60 (.tangled false [])).session.log ≠
        (World.run 60 (.tangled true [.raise (.raised .type "not now")])).session.log := by
  obtain ⟨_, size, _, size', status, order⟩ := World.tangled_runs
  have raises : ∀ x ∈ [Reaction.raise (.raised .type "not now")], ∃ f, x = .raise f := by
    intro x member
    exact ⟨_, List.mem_singleton.mp member⟩
  have same : (World.watching false []).map (Command.unheard false) =
      (World.watching true [.raise (.raised .type "not now")]).map (Command.unheard true) := rfl
  have echoes : (World.run 60 (.tangled false [])).unheard false =
      (World.run 60 (.tangled true [.raise (.raised .type "not now")])).unheard true :=
    (run_unheard (World.watching_proper _ _) (World.watching_proper _ _) (World.watching_passive _ raises)
      (World.watching_passive _ fun _ member => absurd member List.not_mem_nil) same 60).1
  generalize World.run 60 (.tangled false []) = w' at *
  generalize World.run 60 (.tangled true [.raise (.raised .type "not now")]) = w at *
  have session : w'.session.unheard false = w.session.unheard true := (congrArg World.session echoes :)
  have same_status : w'.session.status = w.session.status := (congrArg Session.status session :)
  have same_order : w'.session.processed = w.session.processed := (congrArg Session.processed session :)
  refine ⟨same_status ▸ status, same_order ▸ order, (congrArg Session.log session :), fun same => ?_⟩
  rw [same, size] at size'
  cases size'

end BlockGraph
