import BlockGraph.Proofs.Ownership
import BlockGraph.Proofs.Plans
import BlockGraph.Proofs.Termination
import Mathlib.Algebra.Order.BigOperators.Group.List
import Mathlib.Algebra.Order.Group.Nat
/-!
Endless runs of standard blocks. Each move of a traversal starts an element, or lets the innermost logic go
on, or gives logic up; so with the ration of all logic at work there is one more thing that each move leaves
less of. A traversal of standard blocks can go on forever only if one of them was invoked with inputs that
make it hand over items without end.
-/
namespace BlockGraph

/-! ### The logic at work -/

namespace Traversal

/-- The logic that elements under way draw on, innermost first. -/
def processes (t : Traversal) : List Process := t.stack.filterMap (·.source.process?)

/-- The same, but for the innermost element. -/
def behind (t : Traversal) : List Process := t.stack.tail.filterMap (·.source.process?)

end Traversal

/-- The logic that is at work after a move. -/
def Move.processes : Move → List Process
  | .go t | .delay _ t | .fail _ t => t.processes
  | .wait p t => p :: t.processes
  | .finished => []

/-- The logic at work in a stage, innermost first. -/
def Stage.processes (st : Stage) : List Process := st.process?.toList ++ st.traversal.processes

theorem Stage.settle_processes (r : Move × Session) : (settle r).1.processes = r.1.processes := by
  obtain ⟨m, s⟩ := r
  cases m <;> rfl

namespace Traversal

variable {s : Session} {t : Traversal}

theorem behind_sublist (t : Traversal) : t.behind.Sublist t.processes :=
  (List.tail_sublist t.stack).filterMap _

theorem processes_cons {frame : Frame} {outer : List Frame} (stack : t.stack = frame :: outer) :
    t.processes = frame.source.process?.toList ++ t.behind := by
  unfold processes behind
  rw [stack, List.tail_cons, List.filterMap_cons]
  cases frame.source.process? <;> rfl

theorem withSource_processes (t : Traversal) (source : Source) :
    (t.withSource source).processes.Sublist (source.process?.toList ++ t.behind) := by
  obtain ⟨entries, stack⟩ := t
  cases stack with
  | nil => exact List.nil_sublist _
  | cons frame outer =>
      rw [processes_cons (t := withSource ⟨entries, frame :: outer⟩ source) rfl]
      exact .refl _

theorem accept_processes (t : Traversal) (s : Session) (item : Value) :
    (t.accept s item).1.processes.Sublist t.processes := by
  unfold accept
  split
  · exact List.nil_sublist _
  · rename_i frame outer stack
    split
    · exact .refl _
    · show (processes { t with stack := _ :: outer }).Sublist _
      rw [processes_cons stack, processes_cons (t := { t with stack := _ :: outer }) rfl, behind, behind, stack]
      exact .refl _

theorem complete_processes (t : Traversal) (s : Session) (id : String) :
    (t.complete s id).1.processes = t.processes := by
  unfold complete
  split <;> rfl

theorem endWith_processes (t : Traversal) (s : Session) (e : Ending) :
    (t.endWith s e).1.processes.Sublist t.processes := by
  unfold endWith
  split
  · exact List.nil_sublist _
  · rename_i frame outer stack
    split
    · dsimp only
      split <;> exact .refl _
    · rw [complete_processes]
      have fewer := t.behind_sublist
      rwa [behind, stack] at fewer

theorem answer_processes (t : Traversal) (s : Session) (pause : Pause) (source : Source) :
    (t.answer s pause source).1.processes.Sublist (source.process?.toList ++ t.behind) := by
  have there := t.withSource_processes source
  unfold answer
  cases pause with
  | item v => exact (accept_processes _ s v).trans there
  | ended e => exact (endWith_processes _ s e).trans there
  | sleep length insists => exact there

theorem gather_processes (t : Traversal) (s : Session) (frame : Frame) (p : Process) (collected : List Value) :
    (t.gather s frame p collected).1.processes.Sublist ((p.resume s).2.1 :: t.behind) := by
  have given : t.behind.Sublist ((p.resume s).2.1 :: t.behind) := List.sublist_cons_self _ _
  unfold gather
  split <;> rename_i same <;> rw [same] at given ⊢
  · exact t.withSource_processes (.gathering _ _)
  · show (processes { t with stack := t.stack.drop 1 }).Sublist _
    rw [List.drop_one]
    exact given
  · exact (t.withSource_processes (.items _)).trans given
  · exact t.withSource_processes (.gathering _ _)

end Traversal

/-- What a move makes of the logic at work: an element is started, the innermost logic goes on or is closed,
and any of it may be given up. -/
inductive Shifts (s s' : Session) (works? : Option (String × Process)) (ps ps' : List Process) : Prop
  | started {e : Element} {d : BlockDefinition} {c : Context} : e ∈ s.graph.elements →
      s.registry.find? e.type = some d → s'.processed ≠ s.processed → works? = none →
      ps' = ⟨c, .fresh d.logic⟩ :: ps → Shifts s s' works? ps ps'
  | kept : works? = none → ps'.Sublist ps → Shifts s s' works? ps ps'
  | resumed {p : Process} {rest : List Process} : (∀ id q, works? = some (id, q) → q = p) → ps = p :: rest →
      ps'.Sublist ((p.resume s).2.1 :: rest) → Shifts s s' works? ps ps'
  | closed {p : Process} {rest : List Process} : works? = none → ps = p :: rest →
      ps'.Sublist ((p.close s).2.1 :: rest) → Shifts s s' works? ps ps'

namespace Traversal

variable {s s' : Session} {t : Traversal}

/-- An element that is started draws on the logic that its type has in the registry. -/
theorem begin_shifts {id : String} {frame : Frame} (made : begin s id = (.ok (some frame), s')) :
    ∃ e ∈ s.graph.elements, ∃ d c, s.registry.find? e.type = some d ∧
      frame.source.process? = some ⟨c, .fresh d.logic⟩ := by
  unfold begin at made
  simp only at made
  split at made
  · cases made
  · split at made
    · cases made
    · split at made
      · cases made
      · split at made
        · cases made
        · rename_i e found
          split at made
          · cases made
          · rename_i d known
            unfold start at made
            simp only at made
            split at made
            · cases made
            · rename_i c _ context
              cases made
              exact ⟨e, (Graph.element?_some found).1, d, c, known, Source.ofLogic_process c _⟩

/-- A visit starts an element, or brings no logic to work. -/
theorem visit_shifts {s₁ : Session} (stored : 0 < s₁.stores.size) (graph : s₁.graph = s.graph)
    (registry : s₁.registry = s.registry) (processed : s₁.processed = s.processed) (t : Traversal)
    (id : String) : Shifts s (t.visit s₁ id).2 none t.processes (t.visit s₁ id).1.processes := by
  have visited := t.visit_visited stored id
  unfold visit at visited ⊢
  split
  · exact .kept rfl (.refl _)
  · exact .kept rfl (.refl _)
  · rename_i frame s' begun
    rw [begun] at visited
    obtain ⟨e, member, d, c, known, drawn⟩ := begin_shifts begun
    refine .started (c := c) (graph ▸ member) (registry ▸ known) (fun same => ?_) rfl ?_
    · rcases visited.still (same.trans processed.symm) with same | ⟨f, same⟩
      · have grown : frame :: t.stack = t.stack := congrArg Traversal.stack (Move.go.inj same)
        exact absurd (congrArg List.length grown) (Nat.succ_ne_self _)
      · cases same
    · show (processes { t with stack := frame :: t.stack }) = _
      rw [processes_cons (t := { t with stack := frame :: t.stack }) rfl, drawn]
      rfl

/-- The innermost element goes on. -/
theorem advance_shifts {frame : Frame} {outer : List Frame} (stack : t.stack = frame :: outer)
    (rest : frame.pending = []) :
    Shifts s s' (Stage.walking t).works? t.processes (t.advance s frame).1.processes := by
  have all := processes_cons stack
  obtain ⟨entries, _⟩ := t
  cases stack
  obtain ⟨e, source, pending⟩ := frame
  cases rest
  unfold advance
  cases source with
  | gathering p collected => exact .resumed (fun id q same => by cases same; rfl) all (gather_processes _ s _ p _)
  | items vs =>
      cases vs with
      | nil => exact .kept rfl (endWith_processes _ s _)
      | cons v rest =>
          refine .kept rfl ((accept_processes _ s v).trans ?_)
          exact (withSource_processes _ _).trans (behind_sublist _)
  | sequence p =>
      refine .resumed (fun id q same => by cases same; rfl) all ?_
      dsimp only
      split <;> rename_i same <;> rw [same]
      · exact withSource_processes _ _
      · exact answer_processes _ _ _ (.sequence _)
  | stream p =>
      refine .kept rfl ?_
      rw [all]
      exact (withSource_processes _ .busy).cons_cons p
  | deferred p =>
      refine .kept rfl ?_
      rw [all]
      exact (withSource_processes _ .busy).cons_cons p
  | busy => exact .kept rfl (endWith_processes _ s _)

/-- One step. -/
theorem step_shifts (stored : 0 < s.stores.size) (t : Traversal) :
    Shifts s (t.step s).2 (Stage.walking t).works? t.processes (t.step s).1.processes := by
  unfold step
  split
  · rename_i stack
    have idle : (Stage.walking t).works? = none := by
      obtain ⟨entries, _⟩ := t
      cases stack
      rfl
    rw [idle]
    split
    · exact .kept rfl (List.nil_sublist _)
    · rename_i id _ _
      split
      · have stored : 0 < (s.note (.entered id)).stores.size := stored
        exact visit_shifts (s := s) stored rfl rfl rfl { t with entries := _ } _
      · exact .kept rfl (List.nil_sublist _)
  · rename_i frame outer stack
    split
    · exact advance_shifts stack ‹_›
    · rename_i c rest fires
      have idle : (Stage.walking t).works? = none := by
        obtain ⟨entries, _⟩ := t
        cases stack
        obtain ⟨e, source, pending⟩ := frame
        cases fires
        cases source <;> rfl
      have same : ∀ pending, processes { t with stack := { frame with pending } :: outer } = t.processes := by
        intro pending
        rw [processes_cons stack, processes_cons (t := { t with stack := _ :: outer }) rfl, behind, behind, stack]
        rfl
      rw [idle]
      split
      · rename_i on
        have running : (s.traversing c).running = true := by
          simp only [Session.active, Bool.and_eq_true] at on
          exact (Session.traversing_runsOn c).running.trans on.1
        have kept := (Session.notify_deeds (s.note (.traversed c.id)) (.traverse c.id)).kept_of_running running
        have registry : ((s.note (.traversed c.id)).notify (.traverse c.id)).registry = s.registry :=
          Session.tell_registry _ _ _ _ _
        have stored : 0 < ((s.note (.traversed c.id)).notify (.traverse c.id)).stores.size := by
          rw [kept.size, Session.hears_size]
          exact stored
        have visited := visit_shifts stored (kept.graph.trans (Session.traversing_runsOn c).graph) registry
          (kept.processed.trans (Session.hears_processed _)) { t with stack := { frame with pending := rest } :: outer }
          c.target
        rwa [same] at visited
      · exact .kept rfl (same _ ▸ .refl _)

end Traversal

namespace Stage

variable {s s' : Session} {st st' : Stage} {t : Traversal}

theorem closed_processes (t : Traversal) (e : WalkEnd) (r : Pause × Process × Session) :
    (closed t e r).1.processes.Sublist (r.2.1 :: t.processes) := by
  unfold closed
  split
  · exact .refl _
  · exact List.nil_sublist _
  · exact List.sublist_cons_self _ _

theorem sourceOf_process (a : Attempt) : (World.sourceOf a).process?.toList.Sublist [a.process] := by
  unfold World.sourceOf
  split
  · exact List.nil_sublist _
  · exact .refl _

theorem took_processes (t : Traversal) (a : Attempt) (outOfTime : Bool) (y : Yield) (s : Session) :
    (took t a outOfTime y s).1.processes.Sublist (a.process :: t.behind) := by
  have drawn := (sourceOf_process a).append_right t.behind
  have there := (t.withSource_processes (World.sourceOf a)).trans drawn
  unfold took
  simp only
  split
  · exact there
  · split
    · exact there
    · exact there
  · rw [settle_processes, t.answer_withSource]
    exact (t.answer_processes s _ _).trans drawn

/-- Each move of a traversal starts an element, lets the innermost logic go on, or gives logic up. -/
theorem next_shifts (stored : 0 < s.stores.size) (next : st.next s = some (st', s')) :
    Shifts s s' st.works? st.processes st'.processes := by
  cases st with
  | opening =>
      simp only [Stage.next] at next
      split at next <;> cases next <;> exact .kept rfl (.refl _)
  | walking t =>
      have shifts := t.step_shifts stored
      have came := settle_processes (t.step s)
      have told := settle_processed (t.step s)
      rw [show settle (t.step s) = (st', s') from Option.some.inj next] at came told
      rw [came]
      cases shifts with
      | started member known grown idle same =>
          exact .started member known (told ▸ grown) idle same
      | kept idle fewer => exact .kept idle fewer
      | resumed works same fewer => exact .resumed works same fewer
      | closed idle same fewer => exact .closed idle same fewer
  | awaiting t a given? =>
      simp only [Stage.next] at next
      split at next
      · rename_i y ceased
        have idle : (awaiting t a given?).works? = none := by
          obtain ⟨entries, stack⟩ := t
          cases stack with
          | nil => rfl
          | cons frame outer => simp only [works?, ceased]
        have took := took_processes t a (given? == some true) y s
        rw [Option.some.inj next] at took
        exact .kept idle (took.trans (t.behind_sublist.cons_cons _))
      · rename_i alive
        cases next
        refine @Shifts.resumed _ _ _ _ _ a.process t.processes (fun id q works => ?_) rfl ?_
        · obtain ⟨entries, stack⟩ := t
          cases stack with
          | nil => cases works
          | cons frame outer =>
              cases (works?_awaiting alive given?).symm.trans works
              rfl
        · show ((a.paused _ _).process :: t.processes).Sublist _
          rw [Attempt.paused_process]
  | delaying t id =>
      cases next
      exact .kept rfl (.refl _)
  | unwinding t e =>
      simp only [Stage.next] at next
      split at next
      · cases next
        exact .kept rfl (List.nil_sublist _)
      · rename_i frame outer stack
        have all := Traversal.processes_cons stack
        have outside : Traversal.processes { t with stack := outer } = t.behind := by
          rw [Traversal.behind, stack]
          rfl
        have closes : ∀ p, frame.source.process? = some p →
            closed { t with stack := outer } e (p.close s) = (st', s') →
            Shifts s s' (unwinding t e).works? (unwinding t e).processes st'.processes := by
          intro p drawn same
          rw [drawn] at all
          have fewer := closed_processes { t with stack := outer } e (p.close s)
          rw [same, outside] at fewer
          exact .closed rfl all fewer
        split at next
        · rename_i p source
          exact closes p (by rw [source]; rfl) (Option.some.inj next)
        · rename_i p source
          exact closes p (by rw [source]; rfl) (Option.some.inj next)
        · cases next
          refine .kept rfl ?_
          show (Traversal.processes { t with stack := outer }).Sublist t.processes
          rw [outside]
          exact t.behind_sublist
  | closing t p insists? e =>
      have fewer := closed_processes t e (p.resume s)
      rw [show closed t e (p.resume s) = (st', s') from Option.some.inj next] at fewer
      exact .resumed (fun id q works => by cases works) rfl fewer
  | «over» e => cases next

end Stage

/-! ### What each move leaves -/

/-- How much of some logic has not started. -/
def newsOf (ps : List Process) : Nat := (ps.map Process.news).sum

/-- How much some logic may still hand over. -/
def rationOf (ps : List Process) : Nat := (ps.map Process.ration).sum

section Sums

variable {ps ps' : List Process}

@[simp] theorem newsOf_cons (p : Process) (ps : List Process) : newsOf (p :: ps) = p.news + newsOf ps := rfl

@[simp] theorem rationOf_cons (p : Process) (ps : List Process) : rationOf (p :: ps) = p.ration + rationOf ps :=
  rfl

theorem newsOf_le (fewer : ps'.Sublist ps) : newsOf ps' ≤ newsOf ps :=
  (fewer.map Process.news).sum_le_sum fun _ _ => Nat.zero_le _

theorem rationOf_le (fewer : ps'.Sublist ps) : rationOf ps' ≤ rationOf ps :=
  (fewer.map Process.ration).sum_le_sum fun _ _ => Nat.zero_le _

end Sums

theorem Traversal.newsOf_processes (t : Traversal) : newsOf t.processes = t.news := by
  obtain ⟨entries, stack⟩ := t
  induction stack with
  | nil => rfl
  | cons frame outer ih =>
      rw [processes_cons (t := ⟨entries, frame :: outer⟩) rfl, news_cons, ← ih]
      unfold Source.news behind
      cases frame.source.process? with
      | none => exact (Nat.zero_add _).symm
      | some p => rfl

theorem Stage.newsOf_processes (st : Stage) : newsOf st.processes = st.news := by
  cases st with
  | awaiting t a given? => exact (congrArg _ t.newsOf_processes).trans (Nat.add_comm _ _)
  | closing t p insists? e => exact (congrArg _ t.newsOf_processes).trans (Nat.add_comm _ _)
  | opening | «over» => rfl
  | _ => exact Traversal.newsOf_processes _

/-- What a move comes to that starts no element, when all logic at work comes to its end: less is new, or the
ration is no more, and less once an item is handed over. -/
theorem Shifts.spends {s s' : Session} {works? : Option (String × Process)} {ps ps' : List Process}
    (h : Shifts s s' works? ps ps') (ends : ∀ p ∈ ps, p.Ends) (still : s'.processed = s.processed) :
    newsOf ps' < newsOf ps ∨ newsOf ps' ≤ newsOf ps ∧ rationOf ps' ≤ rationOf ps ∧
      ∀ id p v, works? = some (id, p) → (p.resume s).1 = .item v → rationOf ps' < rationOf ps := by
  have paused : ∀ {p : Process} {rest : List Process} {r : Pause × Process × Session}, p.Spends r →
      ps = p :: rest → ps'.Sublist (r.2.1 :: rest) → newsOf ps' < newsOf ps ∨ newsOf ps' ≤ newsOf ps ∧
        rationOf ps' ≤ rationOf ps ∧ ∀ v, r.1 = .item v → rationOf ps' < rationOf ps := by
    rintro p rest r ⟨_, spends⟩ rfl fewer
    have news := newsOf_le fewer
    have ration := rationOf_le fewer
    rw [newsOf_cons] at news
    rw [rationOf_cons] at ration
    rw [newsOf_cons, rationOf_cons]
    rcases spends with older | ⟨old, spends⟩
    · exact .inl (by omega)
    · refine .inr ⟨by omega, ?_, fun v item => ?_⟩
      · have less := spends.le
        omega
      · rw [item] at spends
        have less : r.2.1.ration < p.ration := spends
        omega
  cases h with
  | started _ _ grown _ _ => exact (grown still).elim
  | kept idle fewer =>
      refine .inr ⟨newsOf_le fewer, rationOf_le fewer, fun id p v works => ?_⟩
      cases idle.symm.trans works
  | @resumed p rest works same fewer =>
      have here := ends p (same ▸ List.mem_cons_self)
      refine (paused (Process.resume_spends here s) same fewer).imp_right fun ⟨news, ration, item⟩ => ?_
      exact ⟨news, ration, fun id q v same hands => item v (works id q same ▸ hands)⟩
  | @closed p rest idle same fewer =>
      have here := ends p (same ▸ List.mem_cons_self)
      refine (paused (Process.close_spends here s) same fewer).imp_right fun ⟨news, ration, _⟩ => ?_
      refine ⟨news, ration, fun id p v works => ?_⟩
      cases idle.symm.trans works

/-! ### Traversals of standard blocks -/

/-- Whether every element of a graph whose type is known has the logic of a standard block. -/
def Session.OnlyStandard (s : Session) : Prop :=
  ∀ e ∈ s.graph.elements, ∀ d, s.registry.find? e.type = some d → ∃ b ∈ standardBlocks, d.logic = b.logic

namespace Stage

/-- Whether a standard block is at work that was invoked with inputs that make it endless. -/
def Unending (st : Stage) : Prop :=
  ∃ b ∈ standardBlocks, ∃ c, b.Unending c.inputs ∧ b.invoked c ∈ st.processes

variable {g : Graph} {r r' : Stage × Session}

/-- What there is left to do, with the rations of the logic at work. -/
def toSpend (r : Stage × Session) : ℕ ×ₗ ℕ ×ₗ ℕ ×ₗ ℕ :=
  toLex (r.2.unstarted, toLex (r.1.news, toLex (rationOf r.1.processes, r.1.weight r.2.graph)))

/-- When all logic at work comes to its end, each move leaves less to do, also when an item is handed over. -/
theorem UnderWay.spends (h : UnderWay g r) (goes : Onward r r') (ends : ∀ p ∈ r.1.processes, p.Ends) :
    toSpend r' < toSpend r := by
  obtain ⟨s, next, deeds⟩ := goes
  have kept := deeds.kept_of_running (h.next next).running
  obtain ⟨stored, sound⟩ := h.holds.sound
  have went := next_goes stored sound next
  have after : toSpend r' = toSpend (r'.1, s) := by
    rw [toSpend, toSpend]
    dsimp only
    rw [Session.unstarted_congr kept.graph kept.processed, kept.graph]
  have lessens := h.lessens (show Onward r (r'.1, s) from ⟨s, next, .refl⟩)
  rw [after]
  simp only [toDo, toSpend, Prod.Lex.toLex_lt_toLex] at lessens ⊢
  rcases went.startsOn h.running with same | fewer
  · have unstarted := Session.unstarted_congr went.runsOn.graph same
    refine .inr ⟨unstarted, ?_⟩
    have spends := (next_shifts stored next).spends ends same
    rw [newsOf_processes, newsOf_processes] at spends
    rcases spends with older | ⟨old, ration, item⟩
    · exact .inl older
    · rcases Nat.lt_or_eq_of_le old with older | even
      · exact .inl older
      · refine .inr ⟨even, ?_⟩
        by_cases hands : ∃ id, r.1.Hands r.2 id
        · obtain ⟨id, p, v, works, handed⟩ := hands
          exact .inl (item id p v works handed)
        · rcases lessens (not_exists.mp hands) with fewer | ⟨_, older | ⟨_, lighter⟩⟩
          · exact absurd unstarted (Nat.ne_of_lt fewer)
          · exact absurd even (Nat.ne_of_lt older)
          · rcases Nat.lt_or_eq_of_le ration with less | unspent
            · exact .inl less
            · exact .inr ⟨unspent, lighter⟩
  · exact .inl fewer

/-- A move among standard blocks brings no logic to work that never ends, unless a block was invoked with
inputs that make it endless. -/
theorem Onward.ends {st : Stage} {s : Session} (stored : 0 < s.stores.size) (standard : s.OnlyStandard)
    (ends : ∀ p ∈ st.processes, p.Ends) (goes : Onward (st, s) r') (finite : ¬r'.1.Unending) :
    ∀ p ∈ r'.1.processes, p.Ends := by
  obtain ⟨s', next, _⟩ := goes
  intro p member
  cases next_shifts stored next with
  | @started e d c here known _ _ same =>
      obtain ⟨b, block, logic⟩ := standard e here d known
      rw [same] at member
      rcases List.mem_cons.mp member with rfl | old
      · have invoked : b.invoked c = ⟨c, .fresh d.logic⟩ := by rw [StandardBlock.invoked, logic]
        rw [← invoked]
        refine StandardBlock.invoked_ends block fun endless => finite ⟨b, block, c, endless, ?_⟩
        rw [same, invoked]
        exact List.mem_cons_self
      · exact ends p old
  | kept _ fewer => exact ends p (fewer.subset member)
  | resumed _ same fewer =>
      obtain ⟨here, others⟩ := List.forall_mem_cons.mp (same ▸ ends)
      rcases List.mem_cons.mp (fewer.subset member) with rfl | old
      · exact (Process.resume_spends here s).1
      · exact others p old
  | closed _ same fewer =>
      obtain ⟨here, others⟩ := List.forall_mem_cons.mp (same ▸ ends)
      rcases List.mem_cons.mp (fewer.subset member) with rfl | old
      · exact (Process.close_spends here s).1
      · exact others p old

/-- A traversal of standard blocks that goes on forever has invoked one of them with inputs that make it
endless. -/
theorem UnderWay.unending {f : Nat → Stage × Session} (h : UnderWay g (f 0)) (opens : (f 0).1 = .opening)
    (goes : ∀ n, Onward (f n) (f (n + 1))) (standard : ∀ n, (f n).2.OnlyStandard) : ∃ n, (f n).1.Unending := by
  by_contra finite
  have under : ∀ n, UnderWay g (f n) := by
    intro n
    induction n with
    | zero => exact h
    | succ n ih => exact ih.onward (goes n)
  have ends : ∀ n, ∀ p ∈ (f n).1.processes, p.Ends := by
    intro n
    induction n with
    | zero =>
        rw [opens]
        exact fun _ member => (List.not_mem_nil member).elim
    | succ n ih =>
        exact Onward.ends (under n).holds.sound.1 (standard n) ih (goes n) fun never => finite ⟨n + 1, never⟩
  obtain ⟨n, stays⟩ := WellFounded.not_rel_apply_succ (r := (· < ·)) fun n => toSpend (f n)
  exact stays ((under n).spends (goes n) (ends n))

end Stage

/-- One invocation of a standard block comes to its end, and so hands over finitely many items, whatever its
inputs are and whatever becomes of the session meanwhile, unless it is a loop that counts to infinity or a
conditional loop that holds and knows no limit: those hand over an item whenever they go on. So a traversal of
standard blocks, whatever its budgets are and whatever is done beside it, goes on forever only when a block
was invoked in it with such inputs. -/
theorem invocations_exhaust {b : StandardBlock} (standard : b ∈ standardBlocks) (c : Context)
    (sessions : Nat → Session) :
    ((¬b.Unending c.inputs → ∃ last, ∀ n, last ≤ n → ∃ e, (b.invoked c).pause sessions n = .ended e) ∧
        (b.Unending c.inputs → ∀ n, ∃ v, (b.invoked c).pause sessions n = .item v)) ∧
      ∀ (s s' : Session) (options : Options) (listener : Listener) (bindings : Entries),
        0 < options.maxSteps → Deeds (s.taken options listener bindings) s' →
        ∀ f : Nat → Stage × Session, f 0 = (.opening, s') → (∀ n, Stage.Onward (f n) (f (n + 1))) →
          (∀ n, (f n).2.OnlyStandard) → ∃ n, (f n).1.Unending := by
  refine ⟨⟨fun finite => ?_, fun endless n => ?_⟩, ?_⟩
  · exact (StandardBlock.invoked_ends standard finite).pauses (b.invoked_intact c) sessions
  · exact StandardBlock.invoked_unending standard endless sessions n
  · intro s s' options listener bindings budget deeds f start goes only
    have under := (Stage.UnderWay.taken s listener bindings budget).aside deeds
    exact Stage.UnderWay.unending (start ▸ under) (congrArg Prod.fst start) goes only

/-! ### A loop that counts to infinity -/

/-- Logic that is waited for item by item, and is about to hand over the numbers from some number up, without
end. -/
structure Process.Counts (p : Process) (n : Nat) : Prop where
  resumes : ∀ s, p.resume s = p.put (Cursor.resume p.context ⟨[.count n .infinity], [], none⟩ s)
  waited : Attempt.ofProcess p = ⟨p, none, .fresh⟩

/-- The emission of the n-th number. -/
def counted (n : Nat) : Emission := ⟨"item", .int n⟩

theorem ofItem_counted (n : Nat) : Emission.ofItem (counted n).toItem = .ok (counted n) := by
  have spoken : Text.isBlankText "item" = false := by decide
  simp only [counted, Emission.toItem, Emission.ofItem, Emission.ofParts, spoken]
  rfl

/-- The session of a run under way whose graph has no connections and that made so many visits. -/
structure Session.Lone (s : Session) (registry : Registry) (elements : List Element) (attempts : Nat) : Prop where
  running : s.running = true
  registry : s.registry = registry
  graph : s.graph = ⟨elements, []⟩
  history : s.history.countP Happening.isAttempt = attempts

namespace Session.Lone

variable {s : Session} {registry : Registry} {elements : List Element} {attempts : Nat}

theorem say (h : s.Lone registry elements attempts) (line : String) :
    (s.say line).Lone registry elements attempts := by
  have kept := (s.say_deeds line).kept_of_running h.running
  exact ⟨kept.running.trans h.running, (s.say_registry line).trans h.registry, kept.graph.trans h.graph,
    kept.history ▸ h.history⟩

/-- What is emitted fires nothing. -/
theorem record (h : s.Lone registry elements attempts) (id : String) (e : Emission) :
    (s.record id e).Lone registry elements attempts ∧ s.fired id e = [] := by
  refine ⟨⟨h.running, h.registry, h.graph, h.history⟩, ?_⟩
  unfold Session.fired Graph.outgoing
  rw [h.graph]
  rfl

end Session.Lone

namespace Process.Counts

variable {p : Process} {n : Nat} {s : Session} {registry : Registry} {elements : List Element} {attempts : Nat}

theorem resume (h : p.Counts n) (lone : s.Lone registry elements attempts) :
    ∃ q s', p.resume s = (.item (counted n).toItem, q, s') ∧ q.Counts (n + 1) ∧
      s'.Lone registry elements attempts := by
  refine ⟨_, _, (h.resumes s).trans rfl, ⟨fun s => rfl, rfl⟩, lone.say _⟩

end Process.Counts

/-- A loop that counts to infinity on its own, in each of the stages between two numbers. -/
inductive Spins : Stage → Prop
  | rests {entries : List String} {e : Element} {p : Process} {n : Nat} : p.Counts n →
      Spins (.walking ⟨entries, [⟨e, .stream p, []⟩]⟩)
  | asked {entries : List String} {e : Element} {p : Process} {n : Nat} : p.Counts n →
      Spins (.awaiting ⟨entries, [⟨e, .busy, []⟩]⟩ ⟨p, none, .fresh⟩ none)
  | handed {entries : List String} {e : Element} {p : Process} {n : Nat} : p.Counts (n + 1) →
      Spins (.awaiting ⟨entries, [⟨e, .busy, []⟩]⟩ ⟨p, none, .over (.pause (.item (counted n).toItem))⟩ none)

namespace Spins

variable {st : Stage} {s : Session} {registry : Registry} {elements : List Element} {attempts : Nat}

theorem next (h : Spins st) (lone : s.Lone registry elements attempts) :
    ∃ st' s', st.next s = some (st', s') ∧ Spins st' ∧ s'.Lone registry elements attempts := by
  cases h with
  | @rests entries e p n counts =>
      refine ⟨.awaiting ⟨entries, [⟨e, .busy, []⟩]⟩ ⟨p, none, .fresh⟩ none, s, ?_, .asked counts, lone⟩
      rw [← counts.waited]
      rfl
  | @asked entries e p n counts =>
      obtain ⟨q, s', resumed, goesOn, lone⟩ := counts.resume lone
      refine ⟨_, s', ?_, @Spins.handed entries e _ n goesOn, lone⟩
      simp only [Stage.next, resumed]
      rfl
  | @handed entries e p n counts =>
      obtain ⟨lone, nothing⟩ := lone.record e.id (counted n)
      refine ⟨.walking ⟨entries, [⟨e, .stream p, s.fired e.id (counted n)⟩]⟩, s.record e.id (counted n), ?_, ?_,
        lone⟩
      · show some (Stage.settle (Traversal.accept ⟨entries, [⟨e, .stream p, []⟩]⟩ s (counted n).toItem)) = _
        simp only [Traversal.accept, ofItem_counted]
        rfl
      · rw [nothing]
        exact .rests counts

/-- It goes on forever. -/
theorem forever (h : Spins st) (lone : s.Lone registry elements attempts) :
    ∃ f : Nat → Stage × Session, f 0 = (st, s) ∧ (∀ n, (f n).1.next (f n).2 = some (f (n + 1))) ∧
      ∀ n, (f n).2.Lone registry elements attempts := by
  let Spinning := { r : Stage × Session // Spins r.1 ∧ r.2.Lone registry elements attempts }
  have goes : ∀ r : Spinning, ∃ r' : Spinning, r.1.1.next r.1.2 = some r'.1 := by
    rintro ⟨r, spins, lone⟩
    obtain ⟨st', s', next, still⟩ := spins.next lone
    exact ⟨⟨(st', s'), still⟩, next⟩
  choose after next using goes
  let f : Nat → Spinning := fun n => Nat.rec ⟨(st, s), h, lone⟩ (fun _ => after) n
  exact ⟨fun n => (f n).1, rfl, fun n => next (f n), fun n => (f n).2.2⟩

end Spins

/-! ### A run that never ends -/

/-- A loop without connections whose count is written as infinity. -/
def Graph.spinner : Graph := ⟨[⟨"a", "loop", .int 0, .int 0, [(.text "count", .text "inf")]⟩], []⟩

/-- A session in which it has been taken for a run, with the standard blocks and default options. -/
def Session.spinner : Session := (Session.ofGraph .spinner .standard []).taken .default .silent []

/-- Its run goes on forever after a single visit. -/
theorem spinner_forever : ∃ f : Nat → Stage × Session, f 0 = (.opening, Session.spinner) ∧
    (∀ n, (f n).1.next (f n).2 = some (f (n + 1))) ∧
      ∀ n, (f n).2.registry = .standard ∧ (f n).2.graph = .spinner ∧
        (f n).2.history.countP Happening.isAttempt ≤ 1 := by
  obtain ⟨p, s₁, s₂, opens, starts, counts, waiting, lone⟩ : ∃ p s₁ s₂,
      Stage.opening.next .spinner = some (.walking ⟨["a"], []⟩, s₁) ∧
        (Stage.walking ⟨["a"], []⟩).next s₁ =
          some (.walking ⟨[], [⟨⟨"a", "loop", .int 0, .int 0, [(.text "count", .text "inf")]⟩, .stream p, []⟩]⟩, s₂) ∧
        p.Counts 0 ∧ s₁.Lone .standard Graph.spinner.elements 0 ∧ s₂.Lone .standard Graph.spinner.elements 1 :=
    ⟨_, _, _, rfl, rfl, ⟨fun _ => rfl, rfl⟩, ⟨rfl, rfl, rfl, rfl⟩, ⟨rfl, rfl, rfl, rfl⟩⟩
  obtain ⟨f, begins, goes, stays⟩ := (Spins.rests counts).forever lone
  have at_most : ∀ {s : Session} {n : Nat}, s.Lone .standard Graph.spinner.elements n → n ≤ 1 →
      s.registry = .standard ∧ s.graph = .spinner ∧ s.history.countP Happening.isAttempt ≤ 1 :=
    fun lone few => ⟨lone.registry, lone.graph, lone.history ▸ few⟩
  refine ⟨fun | 0 => (.opening, .spinner) | 1 => (.walking ⟨["a"], []⟩, s₁) | n + 2 => f n, rfl, ?_, ?_⟩
  · rintro (_ | _ | n)
    · exact opens
    · exact starts.trans (congrArg some begins.symm)
    · exact goes n
  · rintro (_ | _ | n)
    · exact at_most (n := 0) ⟨rfl, rfl, rfl, rfl⟩ (Nat.zero_le _)
    · exact at_most waiting (Nat.zero_le _)
    · exact at_most (stays n) (Nat.le_refl 1)

theorem Session.onlyStandard_of {s : Session} (registry : s.registry = .standard) : s.OnlyStandard := by
  intro e _ d known
  rw [registry] at known
  obtain ⟨b, block, same⟩ := List.mem_map.mp (Registry.mem_of_find? known)
  obtain rfl : b.definition = d := congrArg Prod.snd same
  exact ⟨b, block, rfl⟩

theorem Standard.loop_mem : Standard.loop ∈ standardBlocks := by
  simp only [standardBlocks, Standard.controlBlocks, List.mem_append, List.mem_cons, true_or, or_true]

/-- The run of the loop goes on forever, and so the loop was invoked with inputs that make it endless. -/
theorem invocations_exhaust_spinner : Standard.loop ∈ standardBlocks ∧ ∃ f : Nat → Stage × Session,
    f 0 = (.opening, (Session.ofGraph .spinner .standard []).taken .default .silent []) ∧
      (∀ n, Stage.Onward (f n) (f (n + 1))) ∧ (∀ n, (f n).2.OnlyStandard) ∧ ∃ n, (f n).1.Unending := by
  obtain ⟨f, begins, goes, stays⟩ := spinner_forever
  have onward : ∀ n, Stage.Onward (f n) (f (n + 1)) := fun n => ⟨_, goes n, .refl⟩
  have standard : ∀ n, (f n).2.OnlyStandard := fun n => Session.onlyStandard_of (stays n).1
  have exhausts := invocations_exhaust Standard.loop_mem ⟨"a", "loop", [], [], [], 0⟩ fun _ => .spinner
  exact ⟨Standard.loop_mem, f, begins, onward, standard,
    exhausts.2 _ _ .default .silent [] (by decide) .refl f begins onward standard⟩

/-- Given infinity as its count, a loop never ceases to hand over items, and a run in which it stands alone
goes on forever after a single attempt at a visit. -/
theorem spinner_outlasts :
    (Standard.loop ∈ standardBlocks ∧ ¬∃ last, ∀ n, last ≤ n → ∀ v,
        (Standard.loop.invoked ⟨"a", "loop", [(.text "count", .text "inf")], [], [], 0⟩).pause
          (fun _ => .spinner) n ≠ .item v) ∧
      ∃ f : Nat → Stage × Session,
        f 0 = (.opening, (Session.ofGraph .spinner .standard []).taken .default .silent []) ∧
          (∀ n, (f n).1.next (f n).2 = some (f (n + 1))) ∧ (∀ n, (f n).2.OnlyStandard) ∧
            ∀ n, (f n).2.history.countP Happening.isAttempt ≤ 1 := by
  refine ⟨⟨Standard.loop_mem, ?_⟩, ?_⟩
  · rintro ⟨last, ceases⟩
    obtain ⟨v, item⟩ := StandardBlock.loop_unending (c := ⟨"a", "loop", [(.text "count", .text "inf")], [], [], 0⟩)
      (fun items same => by cases same) rfl (fun _ => .spinner) last
    exact ceases last (Nat.le_refl _) v item
  · obtain ⟨f, begins, goes, stays⟩ := spinner_forever
    exact ⟨f, begins, goes, fun n => Session.onlyStandard_of (stays n).1, fun n => (stays n).2.2⟩

end BlockGraph
