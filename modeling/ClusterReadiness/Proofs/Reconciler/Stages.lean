import ClusterReadiness.Proofs.Reconciler.Waits

/-!
# Runs of a whole bootstrap

A bootstrap is a list of stages: a phase is entered, then its work is done. `Stages` tells a run of
such a list up to the first failure, and `Bootstraps` a run from the start, with the way in which it
is brought to an end.
-/

namespace ClusterReadiness

namespace Reconciler

variable {reconciler : Reconciler} {start stop : Phase} {trace : List Exchange}

section Stages

/-- Entering a phase and doing its work. -/
inductive Stage (next : Phase) (body : Work Unit) (start : Phase) :
    List Exchange → Result Unit → Phase → Prop where
  | refused : Stage next body start [⟨.isInterrupted, true⟩] (.error (shutdownBefore next)) start
  | untold {failure : Failure} :
      Stage next body start (⟨.isInterrupted, false⟩ :: changing start next (.error failure))
        (.error failure) next
  | worked {trace : List Exchange} {result : Result Unit} {stop : Phase}
      (goes : Goes body next trace result stop) :
      Stage next body start (⟨.isInterrupted, false⟩ :: changing start next (.ok ()) ++ trace)
        result stop

/-- One stage after the other, up to the first that fails. -/
inductive Stages : List (Phase × Work Unit) → Phase → List Exchange → Result Unit → Phase → Prop
    where
  | done {start : Phase} : Stages [] start [] (.ok ()) start
  | broken {next start stop : Phase} {body : Work Unit} {others : List (Phase × Work Unit)}
      {trace : List Exchange} {failure : Failure}
      (stage : Stage next body start trace (.error failure) stop) :
      Stages ((next, body) :: others) start trace (.error failure) stop
  | more {next start middle stop : Phase} {body : Work Unit} {others : List (Phase × Work Unit)}
      {trace rest : List Exchange} {result : Result Unit}
      (stage : Stage next body start trace (.ok ()) middle)
      (stages : Stages others middle rest result stop) :
      Stages ((next, body) :: others) start (trace ++ rest) result stop

theorem goes_stage {next : Phase} {body : Work Unit} {others : List (Phase × Work Unit)}
    {rest : Unit → Work Unit} {result : Result Unit} (ahead : next ≠ .failed)
    (goes : Goes (transition next >>= fun _ => body >>= rest) start trace result stop)
    (others_of_rest : ∀ middle last, Goes (rest ()) middle last result stop →
      Stages others middle last result stop) :
    Stages ((next, body) :: others) start trace result stop := by
  rcases goes_bind_iff.mp goes with
    ⟨failure, hmove, rfl⟩ | ⟨first, _, middle, last, hmove, hlast, rfl⟩
  · rcases goes_transition ahead hmove with ⟨rfl, h, rfl⟩ | ⟨rfl, rfl⟩
    · cases h
      exact .broken .refused
    · exact .broken .untold
  · rcases goes_transition ahead hmove with ⟨_, h, _⟩ | ⟨rfl, rfl⟩
    · cases h
    · rcases goes_bind_iff.mp hlast with
        ⟨failure, hbody, rfl⟩ | ⟨done, _, after, more, hbody, hmore, rfl⟩
      · exact .broken (.worked hbody)
      · rw [← List.append_assoc]
        exact .more (.worked hbody) (others_of_rest after more hmore)

/-- What is done for declared topics. -/
def topicStages (reconciler : Reconciler) : List (Phase × Work Unit) :=
  [(.creatingTopics, reconciler.createTopics),
    (.verifyingTopics, reconciler.fresh reconciler.verifyTopics)]

/-- What is done in any case. -/
def lastStages (reconciler : Reconciler) : List (Phase × Work Unit) :=
  [(.verifyingRegistry, reconciler.fresh reconciler.verifyRegistry), (.ready, pure ())]

theorem eq_of_mem_stages {next : Phase} {body : Work Unit}
    (mem : (next, body) ∈ reconciler.topicStages ++ reconciler.lastStages) :
    (next = .creatingTopics ∧ body = reconciler.createTopics) ∨
      (next = .verifyingTopics ∧ body = reconciler.fresh reconciler.verifyTopics) ∨
      (next = .verifyingRegistry ∧ body = reconciler.fresh reconciler.verifyRegistry) ∨
      next = .ready ∧ body = pure () := by
  simpa [topicStages, lastStages] using mem

theorem goes_lastStages {result : Result Unit} (goes : Goes (do
      transition .verifyingRegistry
      reconciler.fresh reconciler.verifyRegistry
      transition .ready) start trace result stop) :
    Stages reconciler.lastStages start trace result stop := by
  refine goes_stage (by decide) goes fun middle last hlast => ?_
  rcases goes_transition (by decide) hlast with ⟨rfl, rfl, rfl⟩ | ⟨rfl, rfl⟩
  · exact .broken .refused
  · cases result with
    | error failure => exact .broken .untold
    | ok _ =>
      have stage : Stage .ready (pure ()) middle _ (.ok ()) .ready :=
        .worked (goes_pure_iff.mpr ⟨rfl, rfl, rfl⟩)
      simpa using Stages.more stage .done

/-- Without declared topics a run says so and goes on to the registry. -/
theorem goes_workPhases {result : Result Unit}
    (goes : Goes reconciler.workPhases start trace result stop) :
    (reconciler.topics = [] ∧ ∃ message rest, trace = logged .info message :: rest ∧
      Stages reconciler.lastStages start rest result stop) ∨
    reconciler.topics ≠ [] ∧
      Stages (reconciler.topicStages ++ reconciler.lastStages) start trace result stop := by
  unfold workPhases at goes
  by_cases empty : reconciler.topics = []
  · simp only [empty, List.isEmpty_nil, if_true] at goes
    obtain ⟨rest, rfl, hrest⟩ := goes_note_bind goes
    exact .inl ⟨empty, _, rest, rfl, goes_lastStages hrest⟩
  · have declared : reconciler.topics.isEmpty = false := by simpa using empty
    simp only [declared, Bool.false_eq_true, if_false] at goes
    refine .inr ⟨empty, goes_stage (by decide) goes fun _ _ verifying => ?_⟩
    exact goes_stage (by decide) verifying fun _ _ last => goes_lastStages last

/-- What holds of the exchanges of every stage holds of all. -/
theorem Stages.forall_mem {P : Exchange → Prop} {stages : List (Phase × Work Unit)}
    {result : Result Unit} (run : Stages stages start trace result stop)
    (each : ∀ next body, (next, body) ∈ stages → ∀ s t r p, Stage next body s t r p →
      ∀ e ∈ t, P e) : ∀ e ∈ trace, P e := by
  induction run with
  | done => simp
  | broken stage => exact each _ _ (.head _) _ _ _ _ stage
  | more stage _ ih =>
    refine List.forall_mem_append.mpr ⟨each _ _ (.head _) _ _ _ _ stage, ih ?_⟩
    intro next body mem
    exact each next body (.tail _ mem)

end Stages

/-- A run from the start: the work of its phases, and the end that it is brought to. -/
inductive Bootstraps (reconciler : Reconciler) : List Exchange → Result Unit → Phase → Prop where
  | failed {started : Float} {work closing : List Exchange} {failure : Failure}
      {phase stop : Phase} {told : Result Unit}
      (goes : Goes reconciler.workPhases .idle work (.error failure) phase)
      (fails : Goes (fail (raisedAs phase failure)) phase closing told stop) :
      Bootstraps reconciler (⟨.clock, started⟩ :: work ++ closing)
        (told.bind fun _ => .error (raisedAs phase failure)) stop
  | ready {started ended : Float} {work : List Exchange} {message : String} {stop : Phase}
      {told : Result Unit} (goes : Goes reconciler.workPhases .idle work (.ok ()) stop) :
      Bootstraps reconciler (⟨.clock, started⟩ :: work ++ [⟨.clock, ended⟩, logged .info message,
        ⟨.announce stop (.ready reconciler.topicNames (ended - started)), told⟩]) told stop

theorem goes_ensureReady {result : Result Unit}
    (goes : Goes reconciler.ensureReady .idle trace result stop) :
    Bootstraps reconciler trace result stop := by
  have goes := goes_get_bind goes
  simp only [if_true] at goes
  rcases goes_bind_iff.mp goes with
    ⟨_, hclock, _⟩ | ⟨_, started, _, rest, hclock, hrest, rfl⟩
  · obtain ⟨_, _, h, _⟩ := goes_clock_iff.mp hclock
    cases h
  obtain ⟨_, rfl, h, rfl⟩ := goes_clock_iff.mp hclock
  cases h
  rcases goes_bind_iff.mp hrest with
    ⟨_, hwork, _⟩ | ⟨work, outcome, phase, closing, hwork, hclosing, rfl⟩
  · obtain ⟨_, _, h⟩ := goes_lift_iff.mp hwork
    cases h
  obtain ⟨_, hwork, h⟩ := goes_lift_iff.mp hwork
  cases h
  cases outcome with
  | error failure =>
    rcases goes_bind_iff.mp (goes_get_bind hclosing) with
      ⟨cut, hfail, rfl⟩ | ⟨told, _, _, last, hfail, hthrow, rfl⟩
    · exact .failed hwork hfail
    · obtain ⟨rfl, rfl, rfl⟩ := goes_throw_iff.mp hthrow
      rw [List.append_nil]
      exact .failed hwork hfail
  | ok _ =>
    rcases goes_bind_iff.mp hclosing with
      ⟨_, hclock, _⟩ | ⟨_, ended, _, last, hclock, hlast, rfl⟩
    · obtain ⟨_, _, h, _⟩ := goes_clock_iff.mp hclock
      cases h
    · obtain ⟨_, rfl, h, rfl⟩ := goes_clock_iff.mp hclock
      cases h
      obtain ⟨_, rfl, hannounce⟩ := goes_note_bind hlast
      obtain ⟨rfl, rfl⟩ := goes_announce_iff.mp hannounce
      exact .ready hwork

section Surroundings

/-- Surroundings in which everything goes well, with these topics listed. -/
def obliging (listing : Listing) : (r : Request) → r.Answer
  | .createTopics _ => Except.ok ()
  | .listTopics => Except.ok listing
  | .probe => Except.ok true
  | .sleep _ => Except.ok ()
  | .isInterrupted => false
  | .clock => (0 : Float)
  | .announce _ _ => Except.ok ()
  | .record _ _ => ()

def payments : TopicSpec := ⟨"payments", 1, 1, by decide, by decide, by decide⟩

/-- One declared topic, and the default policies. -/
def ordersOnly : Reconciler :=
  ⟨[⟨"orders", 1, 1, by decide, by decide, by decide⟩], .default, .default⟩

end Surroundings

end Reconciler

end ClusterReadiness
