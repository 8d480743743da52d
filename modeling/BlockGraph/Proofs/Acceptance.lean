import BlockGraph.Proofs.Verdicts
/-!
Accepted stops: a session logs each stop that it accepts. A run that completes has accepted none by then; the line of
its completion is logged while it still runs, so that a stop asked for when that line is told is accepted behind it.
-/
namespace BlockGraph

namespace Session

/-- The line that a completion is logged with. -/
def completion (summary : String) : String := "Execution completed successfully. Processed " ++ summary

theorem completion_apart (summary : String) : completion summary ≠ stopWords := by
  unfold completion
  simp

/-- Whether a log tells of a stop right behind a completion at the soonest, and then of no other one. -/
def Belated (log : List String) : Prop :=
  ∃ before summary after, log = before ++ completion summary :: after ∧ stopWords ∉ before ∧
    (stopWords ∈ after → ∃ rest, after = stopWords :: rest ∧ stopWords ∉ rest)

theorem Belated.snoc {log : List String} {line : String} (h : Belated log) (other : line ≠ stopWords) :
    Belated (log ++ [line]) := by
  obtain ⟨before, summary, after, rfl, none, next⟩ := h
  refine ⟨before, summary, after ++ [line], by simp, none, fun member => ?_⟩
  rcases List.mem_append.mp member with told | last
  · obtain ⟨rest, rfl, once⟩ := next told
    refine ⟨rest ++ [line], rfl, fun again => ?_⟩
    rcases List.mem_append.mp again with old | last
    · exact once old
    · exact other (List.mem_singleton.mp last).symm
  · exact absurd (List.mem_singleton.mp last).symm other

/-- A session whose log tells of all stops: while none is asked for in a run, none is logged in it, and when a run
has completed, none was before. -/
structure Heeds (s : Session) : Prop where
  underway : s.running = true → s.stopRequested = false → stopWords ∉ s.log.toList
  completed : s.running = false → s.status = .completed → Belated s.log.toList

namespace Heeds

variable {s s' : Session}

theorem idle (rests : s.running = false) (other : s.status ≠ .completed) : s.Heeds := by
  refine ⟨fun on => ?_, fun _ done => absurd done other⟩
  rw [rests] at on
  cases on

theorem visits : Visits fun s s' => s.Heeds → s'.Heeds where
  refl _ h := h
  trans h h' := h' ∘ h
  reported _ _ h := { h with }
  stopped s line active _ := by
    refine ⟨fun _ unasked => ?_, fun idle => ?_⟩
    · cases unasked
    · have on : s.running = true := running_of_active active
      cases on.symm.trans idle
  told _ _ _ h := { h with }
  reset s idle _ := .idle idle nofun
  logged s line other h := by
    refine ⟨fun on unasked => ?_, fun idle done => ?_⟩
    · rw [Array.toList_push]
      refine List.not_mem_append (h.underway on unasked) fun last => ?_
      exact other (List.mem_singleton.mp last).symm
    · rw [Array.toList_push]
      exact (h.completed idle done).snoc other
  heard _ _ _ _ h := { h with }
  noted _ _ h := { h with }
  altered _ _ _ h := { h with }
  counted _ _ h := { h with }
  joined _ _ _ h := { h with }
  opened _ _ h := { h with }

theorem taken (s : Session) (options : Options) (listener : Listener) (bindings : Entries) :
    (s.taken options listener bindings).Heeds := by
  let free := { s.cleared with options, listener, bindings, running := true, status := .running, started := true }
  have fresh : free.Heeds := ⟨fun _ _ => List.not_mem_nil, nofun⟩
  exact visits.say _ _ (by simp) (visits.reported free _ fresh)

end Heeds

/-- What is told at the end of a run, when it has logged its last line: at most one stop is accepted there. -/
structure Closing (log : List String) (s : Session) : Prop where
  running : s.running = true
  status : s.status = .completed
  accepts : s.stopRequested = false ∧ s.log.toList = log ∨
    s.stopRequested = true ∧ ∃ line, s.log.toList = log ++ [line]

theorem Closing.reacts (log : List String) : Reacts fun s s' => s.Closing log → s'.Closing log where
  refl _ h := h
  trans h h' := h' ∘ h
  reported _ _ h := { h with }
  stopped s line active h := by
    have unasked : s.stopRequested = false := by
      have both := Bool.and_eq_true_iff.mp active
      simpa using both.2
    refine ⟨h.running, h.status, .inr ⟨rfl, line, ?_⟩⟩
    rcases h.accepts with ⟨-, same⟩ | ⟨asked, -⟩
    · rw [Array.toList_push, same]
    · cases unasked.symm.trans asked
  told _ _ _ h := { h with }
  reset s idle h := by cases h.running.symm.trans idle

/-- A run that completes has accepted no stop, and accepts one at most when its completion is told. -/
theorem finished_belated {s : Session} (on : s.running = true) (unasked : s.stopRequested = false)
    (none : stopWords ∉ s.log.toList) : s.finished.status = .completed ∧ Belated s.finished.log.toList := by
  let line := completion s.summary
  let done := { s with status := .completed, successCount := s.successCount + 1, log := s.log.push line }
  have ends : done.Closing (s.log.toList ++ [line]) := ⟨on, rfl, .inl ⟨unasked, Array.toList_push⟩⟩
  have same : s.finished = tell 2 done s.options s.listener (.log line) := if_neg (Bool.eq_false_iff.mp unasked)
  have reacts := Closing.reacts (s.log.toList ++ [line])
  obtain ⟨-, status, accepts⟩ := reacts.tell 2 done s.options s.listener _ (reacts.told done _ line) ends
  rw [same]
  refine ⟨status, s.log.toList, s.summary, ?_⟩
  rcases accepts with ⟨-, log⟩ | ⟨-, last, log⟩
  · exact ⟨[], log, none, fun told => absurd told List.not_mem_nil⟩
  · refine ⟨[last], by rw [log, List.append_assoc]; rfl, none, fun told => ⟨[], ?_, List.not_mem_nil⟩⟩
    rw [List.mem_singleton.mp told]

/-- When a run is over, its session has heeded the stops. -/
theorem concluded_heeds {s s' : Session} {st : Stage} {o : Outcome} (how : Concludes s st o s')
    (on : s.running = true) (h : s.Heeds) : s'.closed.Heeds := by
  by_cases done : s'.status = .completed
  · obtain ⟨-, rfl, unasked⟩ := how.completed on done
    cases how
    have belated := (finished_belated on unasked (h.underway on unasked)).2
    exact ⟨fun closed => (by cases closed), fun _ _ => belated⟩
  · exact .idle rfl done

end Session

namespace Ledger

variable {l l' : Ledger}

/-- Whatever is posted, the session of a ledger goes on to heed the stops. -/
theorem Posts.heeds (post : l.Posts l') (sound : l.Sound) (h : l.session.Heeds) : l'.session.Heeds := by
  have visits := Session.Heeds.visits
  cases post with
  | drifted items ended drifts => exact drifts _ visits (fun _ _ _ h => { h with }) h
  | handled items ended handled => exact handled.reacts visits.toReacts (fun _ _ h => { h with }) h
  | declined items ended declined =>
      cases declined with
      | options f => exact h
      | busy options f => exact visits.tell 2 _ _ _ _ (fun h => { h with }) h
      | bindings options f _ idle _ => exact .idle idle nofun
  | withdrawn s r items ended => exact h
  | admitted items ended accepted named idle listener => exact .taken _ _ _ _
  | concluded items ended how told listener =>
      exact Session.concluded_heeds how sound.running h

theorem Posted.heeds (posted : l.Posted l') (sound : l.Sound) (h : l.session.Heeds) : l'.session.Heeds := by
  induction posted with
  | refl => exact h
  | tail before post ih => exact post.heeds (Posted.sound before sound) ih

end Ledger

/-- A stop is accepted in a run that completes only when the line of the completion is told, right behind that line
and once, whatever callers, listeners and block logic ask for. -/
theorem run_heeds {α : Type} {graph : Graph} {registry : Registry} {draws : List Double}
    {commands : List (Command α)} (handles : ∀ x ∈ commands, x.Handles) {w : World α}
    (steps : (World.ofCommands (Session.ofGraph graph registry draws) commands).Leads w)
    (completed : w.session.status = .completed) (accepted : Session.stopWords ∈ w.session.log) :
    ∃ before summary after, w.session.log.toList =
        before ++ Session.completion summary :: Session.stopWords :: after ∧
      Session.stopWords ∉ before ∧ Session.stopWords ∉ after := by
  have posted := World.Leads.posted handles steps
  have started := Ledger.ofGraph_sound graph registry draws commands
  have heeds : w.session.Heeds := posted.heeds started (.idle rfl nofun)
  have sound := posted.sound started
  have idle : w.session.running = false := by
    cases on : w.session.running with
    | false => rfl
    | true =>
        have running : w.session.status = .running := congrArg Verdict.status (sound.underway on)
        cases running.symm.trans completed
  obtain ⟨before, summary, after, log, none, next⟩ := heeds.completed idle completed
  have behind : Session.stopWords ∈ after := by
    have there : Session.stopWords ∈ before ++ Session.completion summary :: after :=
      log ▸ Array.mem_toList_iff.mpr accepted
    rcases List.mem_append.mp there with early | late
    · exact absurd early none
    · rcases List.mem_cons.mp late with same | behind
      · exact absurd same.symm (Session.completion_apart summary)
      · exact behind
  obtain ⟨rest, rfl, once⟩ := next behind
  exact ⟨before, summary, rest, log, none, once⟩

/-! ### A stop that is asked for too late -/

/-- An execution whose listener asks for a stop when the completion is told. -/
def Request.tardy : Request :=
  ⟨.ok (.watched true), .null, ⟨1, fun
    | .log line => if "Execution completed".toList.isPrefixOf line.toList then [.stop] else []
    | _ => []⟩⟩

namespace World

def tardy : World Unit := ofCommands (.ofGraph .pair ⟨[("one", .one)]⟩ []) [.execute .tardy]

theorem tardy_handles : ∀ x ∈ [Command.execute (α := Unit) .tardy], x.Handles := by
  intro x member
  rw [List.mem_singleton.mp member]
  intro options accepted
  rw [← Except.ok.inj accepted]
  exact Options.watched_valid true

theorem tardy_runs : (run 40 tardy).session.status = .completed ∧ (run 40 tardy).session.successCount = 1 ∧
    Session.stopWords ∈ (run 40 tardy).session.log := by
  decide +kernel

end World

/-- The stop is logged right behind the completion. -/
theorem run_heeds_tardy : ∃ before summary after, (World.run 40 .tardy).session.log.toList =
      before ++ Session.completion summary :: Session.stopWords :: after ∧
    Session.stopWords ∉ before ∧ Session.stopWords ∉ after := by
  obtain ⟨completed, _, accepted⟩ := World.tardy_runs
  exact run_heeds World.tardy_handles (World.leads_run 40 World.tardy) completed accepted

/-- A run completes though a stop was accepted in it. -/
theorem completes_stopped : ∃ w : World Unit, World.tardy.Leads w ∧ w.session.status = .completed ∧
    w.session.successCount = 1 ∧ Session.stopWords ∈ w.session.log :=
  ⟨World.run 40 .tardy, World.leads_run 40 World.tardy, World.tardy_runs⟩

end BlockGraph
