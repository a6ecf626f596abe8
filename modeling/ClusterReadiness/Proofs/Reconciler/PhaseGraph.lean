import ClusterReadiness.Proofs.Reconciler.Announcements
import ClusterReadiness.Proofs.Reconciler.PhaseOrder

/-!
# The graph of phases

Whatever fails and wherever, the changes of phase that are announced lead from the idle phase to the
one in which the reconciler is, over this call and all later ones. They keep to the graph of phases
but for one step: a run that is interrupted while its ready phase is announced leaves that phase
again.
-/

namespace ClusterReadiness

namespace Reconciler

variable {reconciler : Reconciler} {start stop next : Phase} {body : Work Unit}
  {trace first rest : List Exchange} {result : Result Unit} {others : List (Phase × Work Unit)}

section Graph

/-- Changes each of which begins where the one before it ended. -/
inductive Leads : Phase → List (Phase × Phase) → Phase → Prop where
  | here {phase : Phase} : Leads phase [] phase
  | step {start next stop : Phase} {steps : List (Phase × Phase)} (more : Leads next steps stop) :
      Leads start ((start, next) :: steps) stop

theorem Leads.trans {middle : Phase} {steps more : List (Phase × Phase)}
    (leads : Leads start steps middle) (onward : Leads middle more stop) :
    Leads start (steps ++ more) stop := by
  induction leads with
  | here => exact onward
  | step _ ih => exact .step (ih onward)

/-- The changes that a run may make. Nothing leads out of the ready and the failed phase. -/
inductive Permitted (reconciler : Reconciler) : Phase → Phase → Prop where
  | creating (declared : reconciler.topics ≠ []) : Permitted reconciler .idle .creatingTopics
  | verifying : Permitted reconciler .creatingTopics .verifyingTopics
  | probing : Permitted reconciler .verifyingTopics .verifyingRegistry
  | undeclared (none : reconciler.topics = []) : Permitted reconciler .idle .verifyingRegistry
  | ready : Permitted reconciler .verifyingRegistry .ready
  | failed {phase : Phase} (unready : phase ≠ .ready) (unfailed : phase ≠ .failed) :
      Permitted reconciler phase .failed

theorem Permitted.left (permitted : Permitted reconciler start next) :
    start ≠ .ready ∧ start ≠ .failed := by
  cases permitted with
  | failed unready unfailed => exact ⟨unready, unfailed⟩
  | _ => exact ⟨by decide, by decide⟩

/-- The announcement of the ready phase fails. -/
def ReadyInterrupted (trace : List Exchange) : Prop :=
  ∃ previous failure,
    (⟨.announce .ready (.stateChanged previous .ready), .error failure⟩ : Exchange) ∈ trace

theorem readyInterrupted_append :
    ReadyInterrupted (first ++ rest) ↔ ReadyInterrupted first ∨ ReadyInterrupted rest := by
  simp only [ReadyInterrupted, List.mem_append, exists_or]

theorem Unready.not_readyInterrupted (unready : Unready trace) : ¬ ReadyInterrupted trace := by
  rintro ⟨previous, failure, mem⟩
  exact unready _ mem _ rfl

theorem not_readyInterrupted_of_silent (silent : announcements trace = []) :
    ¬ ReadyInterrupted trace := by
  rintro ⟨previous, failure, mem⟩
  have told := mem_announcements.mpr ⟨_, _, mem⟩
  rw [silent] at told
  cases told

/-- A way through the graph, which a failed announcement of the ready phase, and nothing else, ends
in the ready phase without success. -/
structure Way (reconciler : Reconciler) (start : Phase) (trace : List Exchange)
    (result : Result Unit) (stop : Phase) : Prop where
  leads : Leads start (changes (announcements trace)) stop
  permitted : ∀ step ∈ changes (announcements trace), Permitted reconciler step.1 step.2
  unfailed : stop ≠ .failed
  interrupted : ReadyInterrupted trace ↔ stop = .ready ∧ result ≠ .ok ()
  ready : result = .ok () → stop = .ready

end Graph

section Stages

variable (mem : (next, body) ∈ reconciler.topicStages ++ reconciler.lastStages)
include mem

/-- Only entering a phase is announced as a change. -/
theorem stage_unchanged (goes : Goes body next trace result stop) :
    changes (announcements trace) = [] := by
  have unchanged : ∀ {log rest : List Happening}, changes (log ++ rest) = [] →
      changes log = [] := by
    intro log rest none
    rw [changes_append] at none
    exact (List.append_eq_nil_iff.mp none).1
  rcases eq_of_mem_stages mem with ⟨rfl, rfl⟩ | ⟨rfl, rfl⟩ | ⟨rfl, rfl⟩ | ⟨rfl, rfl⟩
  · obtain ⟨log, kept, -⟩ := createTopics_keeps_log goes
    exact unchanged (by rw [kept]; rfl)
  · obtain ⟨log, kept, -⟩ := verifyTopics_keeps_log goes
    exact unchanged kept.unchanged
  · exact (verifyRegistry_keeps_log goes).unchanged
  · obtain ⟨rfl, -, -⟩ := goes_pure_iff.mp goes
    rfl

theorem stage_leads (stage : Stage next body start trace result stop) :
    (changes (announcements trace) = [] ∧ stop = start ∧ result ≠ .ok ()) ∨
      changes (announcements trace) = [(start, next)] ∧ stop = next := by
  cases stage with
  | refused => exact .inl ⟨rfl, rfl, fun h => by cases h⟩
  | untold => exact .inr ⟨rfl, rfl⟩
  | @worked work _ _ goes =>
    refine .inr ⟨?_, stage_keeps mem goes⟩
    rw [announcements_append, changes_append, stage_unchanged mem goes, List.append_nil]
    rfl

/-- A stage ahead of the ready phase is a step of the way. -/
theorem Stages.way (run : Stages ((next, body) :: others) start trace result stop)
    (edge : Permitted reconciler start next) (unready : next ≠ .ready) (unfailed : next ≠ .failed)
    (onward : ∀ more outcome last, Stages others next more outcome last →
      Way reconciler next more outcome last) : Way reconciler start trace result stop := by
  cases run with
  | broken stage =>
    have quiet := (stage_unready mem stage unready).not_readyInterrupted
    rcases stage_leads mem stage with ⟨same, rfl, -⟩ | ⟨change, rfl⟩
    · refine ⟨by rw [same]; exact .here, by simp [same], edge.left.2, ?_, fun h => by cases h⟩
      exact ⟨fun h => absurd h quiet, fun h => absurd h.1 edge.left.1⟩
    · refine ⟨by rw [change]; exact .step .here, ?_, unfailed, ?_, fun h => by cases h⟩
      · rw [change]
        exact List.forall_mem_singleton.mpr edge
      · exact ⟨fun h => absurd h quiet, fun h => absurd h.1 unready⟩
  | @more _ _ middle _ _ _ done rest _ stage others =>
    have quiet := (stage_unready mem stage unready).not_readyInterrupted
    rcases stage_leads mem stage with ⟨-, -, failed⟩ | ⟨change, rfl⟩
    · exact absurd rfl failed
    · have way := onward _ _ _ others
      have all : changes (announcements (done ++ rest)) =
          (start, middle) :: changes (announcements rest) := by
        rw [announcements_append, changes_append, change]
        rfl
      refine ⟨?_, ?_, way.unfailed, ?_, way.ready⟩
      · rw [all]
        exact .step way.leads
      · rw [all]
        exact List.forall_mem_cons.mpr ⟨edge, way.permitted⟩
      · rw [readyInterrupted_append, ← way.interrupted]
        exact ⟨fun h => h.resolve_left quiet, .inr⟩

end Stages

section Runs

/-- The ready phase is the end of the way. -/
theorem readyStage_way {previous : Phase}
    (run : Stages [(.ready, pure ())] previous trace result stop)
    (edge : Permitted reconciler previous .ready) : Way reconciler previous trace result stop := by
  cases run with
  | broken stage =>
    cases stage with
    | refused =>
      refine ⟨.here, by simp [announcements], edge.left.2, ?_, fun h => by cases h⟩
      exact ⟨fun h => absurd h (not_readyInterrupted_of_silent rfl),
        fun h => absurd h.1 edge.left.1⟩
    | untold =>
      refine ⟨.step .here, List.forall_mem_singleton.mpr edge, by decide, ?_, fun h => by cases h⟩
      refine ⟨fun _ => ⟨rfl, fun h => by cases h⟩, fun _ => ?_⟩
      exact ⟨previous, _, .tail _ (.tail _ (.head _))⟩
    | worked goes => cases (goes_pure_iff.mp goes).2.1
  | more stage done =>
    cases done
    cases stage with
    | worked goes =>
      obtain ⟨rfl, -, rfl⟩ := goes_pure_iff.mp goes
      refine ⟨.step .here, List.forall_mem_singleton.mpr edge, by decide, ?_, fun _ => rfl⟩
      refine ⟨?_, fun h => absurd rfl h.2⟩
      rintro ⟨other, failure, mem⟩
      simp only [changing, logged, List.append_nil, List.mem_cons, List.not_mem_nil,
        or_false] at mem
      rcases mem with h | h | h <;> cases h

theorem lastStages_way (run : Stages reconciler.lastStages start trace result stop)
    (edge : Permitted reconciler start .verifyingRegistry) :
    Way reconciler start trace result stop := by
  refine run.way (List.mem_append_right _ (.head _)) edge (by decide) (by decide) ?_
  exact fun _ _ _ last => readyStage_way last .ready

/-- The work of a run goes its way through the graph. -/
theorem workPhases_way (goes : Goes reconciler.workPhases .idle trace result stop) :
    Way reconciler .idle trace result stop := by
  rcases goes_workPhases goes with ⟨none, message, rest, rfl, stages⟩ | ⟨declared, stages⟩
  · obtain ⟨leads, permitted, unfailed, interrupted, ready⟩ :=
      lastStages_way stages (.undeclared none)
    refine ⟨leads, permitted, unfailed, ?_, ready⟩
    have line : ¬ ReadyInterrupted [logged .info message] := not_readyInterrupted_of_silent rfl
    rw [← List.singleton_append, readyInterrupted_append, ← interrupted]
    exact ⟨fun h => h.resolve_left line, .inr⟩
  · refine stages.way (.head _) (.creating declared) (by decide) (by decide) ?_
    intro _ _ _ verifying
    refine verifying.way (.tail _ (.head _)) .verifying (by decide) (by decide) ?_
    exact fun _ _ _ last => lastStages_way last .probing

/-- A failing run moves to the failed phase, once. -/
theorem fail_changes {failure : Failure} (goes : Goes (fail failure) start trace result stop) :
    changes (announcements trace) = [(start, .failed)] ∧ stop = .failed := by
  obtain ⟨rfl, message, ⟨cut, rfl, -⟩ | rfl⟩ := goes_fail goes
  · exact ⟨rfl, rfl⟩
  · exact ⟨rfl, rfl⟩

/-- A run ends ready or failed, and what it announces leads there. Out of the graph it goes only
from the ready phase, and only if the announcement of that phase failed. -/
theorem ensureReady_leads (goes : Goes reconciler.ensureReady .idle trace result stop) :
    Leads .idle (changes (announcements trace)) stop ∧ (stop = .ready ∨ stop = .failed) ∧
    (∀ step ∈ changes (announcements trace),
      Permitted reconciler step.1 step.2 ∨ step = (.ready, .failed)) ∧
    ((.ready, .failed) ∈ changes (announcements trace) ↔ ReadyInterrupted trace) := by
  have outside : ∀ {work : List Exchange} {outcome : Result Unit} {phase : Phase},
      Way reconciler .idle work outcome phase → (.ready, .failed) ∉ changes (announcements work) :=
    fun way mem => (way.permitted _ mem).left.1 rfl
  cases goes_ensureReady goes with
  | @failed started work closing failure phase stop told worked fails =>
    have way := workPhases_way worked
    obtain ⟨closed, rfl⟩ := fail_changes fails
    have quiet := (fail_checks fails).2.not_readyInterrupted
    have all : changes (announcements (⟨.clock, started⟩ :: work ++ closing)) =
        changes (announcements work) ++ [(phase, .failed)] := by
      rw [announcements_append, changes_append, closed]
      rfl
    have entered : ReadyInterrupted (⟨.clock, started⟩ :: work ++ closing) ↔ phase = .ready := by
      have clock : ¬ ReadyInterrupted [⟨.clock, started⟩] := not_readyInterrupted_of_silent rfl
      rw [readyInterrupted_append, ← List.singleton_append, readyInterrupted_append,
        way.interrupted]
      simp [clock, quiet]
    rw [all, entered]
    refine ⟨way.leads.trans (.step .here), .inr rfl, ?_, ?_⟩
    · refine List.forall_mem_append.mpr ⟨fun step mem => .inl (way.permitted step mem), ?_⟩
      refine List.forall_mem_singleton.mpr ?_
      by_cases ready : phase = .ready
      · exact .inr (by rw [ready])
      · exact .inl (.failed ready way.unfailed)
    · simp [outside way, eq_comm]
  | @ready started ended work message stop told worked =>
    have way := workPhases_way worked
    have ready := way.ready rfl
    have all : changes (announcements (⟨.clock, started⟩ :: work ++ [⟨.clock, ended⟩,
        logged .info message, ⟨.announce stop (.ready reconciler.topicNames (ended - started)),
          result⟩])) = changes (announcements work) := by
      rw [announcements_append, changes_append]
      exact List.append_nil _
    have quiet : ¬ ReadyInterrupted (⟨.clock, started⟩ :: work ++ [⟨.clock, ended⟩,
        logged .info message, ⟨.announce stop (.ready reconciler.topicNames (ended - started)),
          result⟩]) := by
      rintro ⟨previous, failure, mem⟩
      have inWork : (⟨.announce .ready (.stateChanged previous .ready), .error failure⟩ :
          Exchange) ∈ work := by
        simp only [List.cons_append, List.mem_cons, List.mem_append, List.not_mem_nil,
          or_false] at mem
        rcases mem with h | h | h | h | h
        · cases h
        · exact h
        · cases h
        · cases h
        · cases h
      exact (way.interrupted.mp ⟨previous, failure, inWork⟩).2 rfl
    rw [all]
    refine ⟨way.leads, .inl ready, fun step mem => .inl (way.permitted step mem), ?_⟩
    exact ⟨fun h => absurd h (outside way), fun h => absurd h quiet⟩

end Runs

section Calls

/-- Calls one after the other, each in the phase that the one before it ended in. -/
inductive Called (reconciler : Reconciler) : Phase → List Exchange → Phase → Prop where
  | none {phase : Phase} : Called reconciler phase [] phase
  | call {start middle stop : Phase} {first rest : List Exchange} {result : Result Unit}
      (goes : Goes reconciler.ensureReady start first result middle)
      (more : Called reconciler middle rest stop) : Called reconciler start (first ++ rest) stop

/-- A call after the first says that all is done, or refuses. -/
theorem goes_ensureReady_again (begun : start ≠ .idle)
    (goes : Goes reconciler.ensureReady start trace result stop) :
    stop = start ∧ ((start = .ready ∧ trace = [logged .info alreadyReadyText] ∧ result = .ok ()) ∨
      start ≠ .ready ∧ trace = [] ∧ result = .error (cannotRunFrom start)) := by
  have goes := goes_get_bind goes
  simp only [begun, if_false, callAgain] at goes
  by_cases ready : start = .ready
  · rw [if_pos ready] at goes
    obtain ⟨rfl, rfl, rfl⟩ := goes_note_iff.mp goes
    exact ⟨rfl, .inl ⟨ready, rfl, rfl⟩⟩
  · rw [if_neg ready] at goes
    obtain ⟨rfl, rfl, rfl⟩ := goes_throw_iff.mp goes
    exact ⟨rfl, .inr ⟨ready, rfl, rfl⟩⟩

/-- Later calls announce nothing and stay where they are. -/
theorem Called.again (called : Called reconciler start trace stop) (begun : start ≠ .idle) :
    announcements trace = [] ∧ stop = start := by
  induction called with
  | none => exact ⟨rfl, rfl⟩
  | call goes _ ih =>
    obtain ⟨rfl, again⟩ := goes_ensureReady_again begun goes
    obtain ⟨silent, rfl⟩ := ih begun
    refine ⟨?_, rfl⟩
    rw [announcements_append, silent, List.append_nil]
    rcases again with ⟨-, rfl, -⟩ | ⟨-, rfl, -⟩
    · rfl
    · rfl

/-- Over any number of calls the changes of phase lead from the idle phase to the last one. Each is
a permitted one, except that the ready phase may be left for the failed one; and all of them are
permitted if and only if no announcement of the ready phase was interrupted. -/
theorem changes_permitted_iff (called : Called reconciler .idle trace stop) :
    let steps := changes (announcements trace)
    Leads .idle steps stop ∧
    (∀ step ∈ steps, Permitted reconciler step.1 step.2 ∨ step = (.ready, .failed)) ∧
    ((∀ step ∈ steps, Permitted reconciler step.1 step.2) ↔ ¬ ReadyInterrupted trace) := by
  intro steps
  cases called with
  | none =>
    have quiet : ¬ ReadyInterrupted [] := not_readyInterrupted_of_silent rfl
    have none : ∀ step ∈ steps, Permitted reconciler step.1 step.2 := by
      simp [steps, announcements]
    exact ⟨.here, fun step mem => .inl (none step mem), fun _ => quiet, fun _ => none⟩
  | @call _ middle _ first rest _ goes more =>
    obtain ⟨leads, ended, each, interrupted⟩ := ensureReady_leads goes
    have begun : middle ≠ .idle := by
      rintro rfl
      rcases ended with h | h <;> cases h
    obtain ⟨silent, rfl⟩ := more.again begun
    have same : steps = changes (announcements first) := by
      show changes (announcements (first ++ rest)) = _
      rw [announcements_append, silent, List.append_nil]
    have told : ReadyInterrupted (first ++ rest) ↔ ReadyInterrupted first := by
      rw [readyInterrupted_append, or_iff_left (not_readyInterrupted_of_silent silent)]
    rw [same, told, ← interrupted]
    refine ⟨leads, each, fun permitted left => (permitted _ left).left.1 rfl,
      fun kept step mem => ?_⟩
    refine (each step mem).resolve_right fun out => kept ?_
    rwa [← out]

/-- An interrupted probe fails the run, and a second call is refused. -/
theorem changes_permitted_iff_refused :
    let router : Router Unit :=
      ⟨[⟨"latch", "ReadinessLatch", [Latch.rule], .latch .fresh⟩], ["latch"], []⟩
    let answer := fun _ => among router (.error (.of (.userInterrupt "")))
    let run := Program.follow answer (ordersOnly.ensureReady.run.run .idle) []
    let again := Program.follow answer (ordersOnly.ensureReady.run.run run.2.2) []
    Called ordersOnly .idle (run.1 ++ (again.1 ++ [])) again.2.2 ∧
    again.2.1 = .error (cannotRunFrom .failed) ∧
    ∀ step ∈ changes (announcements (run.1 ++ (again.1 ++ []))),
      Permitted ordersOnly step.1 step.2 := by
  intro router answer run again
  have goes := goes_follow answer ordersOnly.ensureReady .idle []
  have refused := goes_follow answer ordersOnly.ensureReady run.2.2 []
  have called : Called ordersOnly .idle (run.1 ++ (again.1 ++ [])) again.2.2 :=
    .call goes (.call refused .none)
  obtain ⟨-, each, -⟩ := changes_permitted_iff called
  have inside : (.ready, .failed) ∉ changes (announcements (run.1 ++ (again.1 ++ []))) := by
    decide +kernel
  have ended : again.2.1 = .error (cannotRunFrom .failed) := by decide +kernel
  refine ⟨called, ended, fun step mem => ?_⟩
  refine (each step mem).resolve_right fun out => inside ?_
  rwa [← out]

/-- A user interrupt that arrives in a callback told that the ready phase is entered makes the run
leave that phase. -/
theorem changes_leave_ready :
    let router : Router Unit :=
      ⟨[⟨"pager", "Scripted", [⟨some [.stateChanged], some [.ready], none⟩],
        .scripted [[.perform ()]]⟩], ["pager"], []⟩
    let run := Program.follow (fun _ => among router (.ok true))
      (ordersOnly.ensureReady.run.run .idle) []
    Called ordersOnly .idle (run.1 ++ []) run.2.2 ∧ Heard struck Router.unlogged run.1 ∧
    run.1.countP Exchange.interrupts = 1 ∧ run.2.2 = .failed ∧
    (.verifyingRegistry, .ready) ∈ changes (announcements run.1) ∧
    (.ready, .failed) ∈ changes (announcements run.1) ∧ ¬ Permitted ordersOnly .ready .failed := by
  intro router run
  have goes : Goes ordersOnly.ensureReady .idle run.1 run.2.1 run.2.2 := runs_follow _ _ _
  exact ⟨.call goes .none, heard_among, by decide +kernel, by decide +kernel, by decide +kernel,
    by decide +kernel, fun permitted => permitted.left.1 rfl⟩

end Calls

end Reconciler

end ClusterReadiness
