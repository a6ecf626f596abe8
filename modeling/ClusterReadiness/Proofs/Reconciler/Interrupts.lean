import ClusterReadiness.Proofs.Reconciler.PortCalls

/-!
# Interrupts of the work

A failure that is never retried, wherever in the work it arises, is what the work comes to.
-/

namespace ClusterReadiness

/-- The failure that an exchange answered with, if it did. -/
def Exchange.failure? : Exchange → Option Failure
  | ⟨.createTopics _, .error failure⟩ | ⟨.listTopics, .error failure⟩ | ⟨.probe, .error failure⟩
  | ⟨.sleep _, .error failure⟩ | ⟨.announce _ _, .error failure⟩ => some failure
  | _ => none

section Failing

variable {failure : Failure}

@[simp] theorem failure?_record {level : Level} {message : String} :
    Exchange.failure? ⟨.record level message, ()⟩ = none := rfl

@[simp] theorem failure?_isInterrupted {interrupted : Bool} :
    Exchange.failure? ⟨.isInterrupted, interrupted⟩ = none := rfl

@[simp] theorem failure?_sleep_ok {delay : Number} :
    Exchange.failure? ⟨.sleep delay, .ok ()⟩ = none := rfl

@[simp] theorem failure?_sleep_error {delay : Number} :
    Exchange.failure? ⟨.sleep delay, .error failure⟩ = some failure := rfl

@[simp] theorem failure?_probe_ok {healthy : Bool} :
    Exchange.failure? ⟨.probe, .ok healthy⟩ = none := rfl

@[simp] theorem failure?_probe_error : Exchange.failure? ⟨.probe, .error failure⟩ = some failure :=
  rfl

@[simp] theorem failure?_announce_ok {phase : Phase} {happening : Happening} :
    Exchange.failure? ⟨.announce phase happening, .ok ()⟩ = none := rfl

end Failing

namespace Reconciler

variable {reconciler : Reconciler} {α : Type} {start stop phase : Phase} {trace : List Exchange}
  {poll after : PollState}

/-- Every failure that is not retried is the result. -/
def Surfaces (trace : List Exchange) (result : Result α) : Prop :=
  ∀ e ∈ trace, ∀ failure, e.failure? = some failure → failure.isRetryable = false →
    result = .error failure

section Seams

variable {β : Type} {result : Result α} {first rest : List Exchange}

theorem Surfaces.nil : Surfaces [] result := by
  simp [Surfaces]

theorem Surfaces.append (before : Surfaces first result) (next : Surfaces rest result) :
    Surfaces (first ++ rest) result :=
  List.forall_mem_append.mpr ⟨before, next⟩

/-- Work that succeeds has met no such failure, so nothing surfaces from it. -/
theorem Surfaces.of_ok {value : β} (before : Surfaces first (.ok value : Result β)) :
    Surfaces first result := by
  intro e he failure failed final
  cases before e he failure failed final

theorem Surfaces.of_error {failure : Failure}
    (before : Surfaces first (.error failure : Result β)) :
    Surfaces first (.error failure : Result α) := by
  intro e he other failed final
  have same := before e he other failed final
  cases same
  rfl

theorem surfaces_logged {level : Level} {message : String} :
    Surfaces [logged level message] result := by
  simp [Surfaces, logged]

/-- An announcement decides how the work it ends comes out. -/
theorem surfaces_announced {happening : Happening} {answer : Result Unit} :
    Surfaces [⟨.announce phase happening, answer⟩] answer := by
  intro e he failure failed _
  rw [List.mem_singleton.mp he] at failed
  cases answer with
  | ok _ => cases failed
  | error cut =>
    cases failed
    rfl

end Seams

section Calls

/-- The failure that a result is, if it is one. -/
def failing : Result α → Option Failure
  | .ok _ => none
  | .error failure => some failure

/-- A call is one call of the broker or the registry, and comes to what that answers. -/
def Honest (asks : Program (Result α)) : Prop :=
  ∀ t result, Runs asks t result → ∃ e : Exchange, t = [e] ∧ e.request.IsPortCall ∧
    e.failure? = failing result

theorem honest_createTopics {specs : List TopicSpec} :
    Honest (Program.request (.createTopics specs)) := by
  intro t result run
  refine ⟨_, runs_request_iff.mp run, trivial, ?_⟩
  cases result <;> rfl

theorem honest_listTopics : Honest (Program.request .listTopics) := by
  intro t result run
  refine ⟨_, runs_request_iff.mp run, trivial, ?_⟩
  cases result <;> rfl

/-- Such a call fails with the failure of its exchange. -/
theorem Honest.fails {asks : Program (Result α)} {t : List Exchange} {result : Result α}
    {failure : Failure} {e : Exchange} (honest : Honest asks) (run : Runs asks t result)
    (mem : e ∈ t) (failed : e.failure? = some failure) : result = .error failure := by
  obtain ⟨call, rfl, -, answered⟩ := honest t result run
  rw [List.mem_singleton.mp mem, answered] at failed
  cases result with
  | ok _ => cases failed
  | error other =>
    cases failed
    rfl

variable {policy : RetryPolicy} {call : Program (Result α)} {number : Int} {left : Nat}
  {outcome : Result α}

theorem Attempts.surfaces (attempts : Attempts policy call number left trace outcome)
    (honest : Honest call) : Surfaces trace outcome := by
  -- a call that is made again failed with a retried failure, which is none of those that surface
  have retried : ∀ {t : List Exchange} {failure : Failure} {result : Result α},
      Runs call t (.error failure) → failure.isRetryable = true → Surfaces t result := by
    intro t failure result called retryable e he other failed final
    cases honest.fails called he failed
    rw [retryable] at final
    cases final
  induction attempts with
  | returned called | refused called =>
    exact fun e he failure failed _ => honest.fails called he failed
  | exhausted called retryable => exact (retried called retryable).append surfaces_logged
  | undelayed called retryable => exact retried called retryable
  | cutShort called retryable =>
    refine (retried called retryable).append ?_
    simp [Surfaces, logged]
  | again called retryable _ _ ih =>
    refine ((retried called retryable).append ?_).append ih
    simp [Surfaces, logged]

/-- What exhausted retries are raised as is no failure that surfaces. -/
theorem Surfaces.surfacing {giveUp : Fault} (surfaces : Surfaces trace outcome) :
    Surfaces trace (surfacing giveUp outcome) := by
  intro e he failure failed final
  rw [surfaces e he failure failed final]
  unfold Reconciler.surfacing
  cases cause : failure.fault with
  | retryExhausted attempts last =>
    rw [Failure.isRetryable, cause] at final
    cases final
  | _ => simp only [cause]

end Calls

section Work

theorem createTopics_surfaces {result : Result Unit}
    (goes : Goes reconciler.createTopics start trace result stop) : Surfaces trace result := by
  obtain ⟨-, message, attempts, ⟨failure, tried, rfl, rfl⟩ | ⟨accepted, tried, rfl⟩⟩ :=
    goes_createTopics goes
  · exact surfaces_logged.append (tried.surfaces honest_createTopics).surfacing
  · refine (surfaces_logged.append (tried.surfaces honest_createTopics).of_ok).append ?_
    exact surfaces_logged.append surfaces_announced

theorem listTopics_surfaces {result : Result Listing}
    (goes : Goes reconciler.listTopics start trace result stop) : Surfaces trace result := by
  obtain ⟨-, ⟨failure, tried, rfl⟩ | ⟨attempts, listing, message, tried, rfl, rfl⟩⟩ :=
    goes_listTopics goes
  · exact (tried.surfaces honest_listTopics).surfacing
  · exact (tried.surfaces honest_listTopics).append surfaces_logged

theorem Waits.surfaces {policy : WaitPolicy} {waiting : Phase} {topic : Option String}
    {spent : Int → Fault} {result : Result Unit}
    (waits : Waits policy phase waiting topic spent poll trace result after) :
    Surfaces trace result := by
  cases waits with
  | spent => exact surfaces_logged
  | cutShort | overgrown => simp [Surfaces, logged]
  | told =>
    have silent : ∀ message note, Surfaces [logged .warning message, logged .debug note,
        ⟨.sleep poll.interval, .ok ()⟩] result := by
      simp [Surfaces, logged]
    exact (silent _ _).append surfaces_announced

theorem AwaitsTopic.surfaces {name : String} {listing : Listing} {result : Result Listing}
    (awaits : AwaitsTopic reconciler phase name poll listing trace result after) :
    Surfaces trace result := by
  induction awaits with
  | present => exact .nil
  | stopped missing waits => exact waits.surfaces.of_error
  | unlisted missing waits goes => exact waits.surfaces.of_ok.append (listTopics_surfaces goes)
  | again missing waits goes more ih =>
    exact (waits.surfaces.of_ok.append (listTopics_surfaces goes).of_ok).append ih

theorem AwaitsTopics.surfaces {specs : List TopicSpec} {listing : Listing} {result : Result Unit}
    (awaits : AwaitsTopics reconciler phase specs poll listing trace result after) :
    Surfaces trace result := by
  induction awaits with
  | done => exact .nil
  | stopped awaits => exact awaits.surfaces.of_error
  | untold awaits => exact awaits.surfaces.of_ok.append (surfaces_logged.append surfaces_announced)
  | seen awaits others ih =>
    refine (awaits.surfaces.of_ok.append ?_).append ih
    exact (surfaces_logged.append surfaces_announced).of_ok

theorem verifyTopics_surfaces {result : Result Unit}
    (goes : Goes (reconciler.fresh reconciler.verifyTopics) start trace result stop) :
    Surfaces trace result := by
  obtain ⟨after, polls⟩ := goes_fresh_iff.mp goes
  obtain ⟨-, ⟨failure, asks, rfl, -⟩ | ⟨asked, listing, rest, asks, awaits, rfl⟩⟩ :=
    polls_verifyTopics polls
  · exact (listTopics_surfaces asks).of_error
  · exact (listTopics_surfaces asks).of_ok.append awaits.surfaces

theorem AwaitsRegistry.surfaces {result : Result Unit}
    (awaits : AwaitsRegistry reconciler phase poll trace result after) :
    Surfaces trace result := by
  induction awaits with
  | raised | healthy => simp [Surfaces]
  | stopped waits =>
    refine List.forall_mem_cons.mpr ⟨fun failure failed _ => ?_, waits.surfaces⟩
    cases failed
  | again waits more ih =>
    refine List.forall_mem_cons.mpr ⟨fun failure failed _ => ?_, waits.surfaces.of_ok.append ih⟩
    cases failed

theorem verifyRegistry_surfaces {result : Result Unit}
    (goes : Goes (reconciler.fresh reconciler.verifyRegistry) start trace result stop) :
    Surfaces trace result := by
  obtain ⟨after, polls⟩ := goes_fresh_iff.mp goes
  obtain ⟨-, ⟨failure, awaits, rfl⟩ | ⟨probed, message, awaits, rfl, rfl⟩⟩ :=
    polls_verifyRegistry polls
  · exact awaits.surfaces
  · exact awaits.surfaces.append surfaces_logged

theorem surfaces_changing {previous next : Phase} {answer : Result Unit} :
    Surfaces (⟨.isInterrupted, false⟩ :: changing previous next answer) answer := by
  have asked : Surfaces [⟨.isInterrupted, false⟩, logged .info ("reconciler state " ++
      previous.text ++ " -> " ++ next.text)] answer := by
    simp [Surfaces, logged]
  exact asked.append surfaces_announced

theorem Stage.surfaces {next : Phase} {body : Work Unit} {result : Result Unit}
    (stage : Stage next body start trace result stop)
    (bodies : ∀ t r s, Goes body next t r s → Surfaces t r) : Surfaces trace result := by
  cases stage with
  | refused => simp [Surfaces]
  | untold => exact surfaces_changing
  | worked goes => exact surfaces_changing.of_ok.append (bodies _ _ _ goes)

theorem Stages.surfaces {stages : List (Phase × Work Unit)} {result : Result Unit}
    (run : Stages stages start trace result stop)
    (bodies : ∀ next body, (next, body) ∈ stages → ∀ t r s, Goes body next t r s → Surfaces t r) :
    Surfaces trace result := by
  induction run with
  | done => exact .nil
  | broken stage => exact stage.surfaces (bodies _ _ (.head _))
  | more stage _ ih =>
    refine (stage.surfaces (bodies _ _ (.head _))).of_ok.append (ih ?_)
    intro next body mem
    exact bodies next body (.tail _ mem)

variable {next : Phase} {body : Work Unit}

theorem stage_surfaces (mem : (next, body) ∈ reconciler.topicStages ++ reconciler.lastStages)
    (t : List Exchange) (r : Result Unit) (s : Phase) (goes : Goes body next t r s) :
    Surfaces t r := by
  simp only [topicStages, lastStages, List.cons_append, List.nil_append, List.mem_cons,
    Prod.mk.injEq, List.not_mem_nil, or_false] at mem
  rcases mem with ⟨rfl, rfl⟩ | ⟨rfl, rfl⟩ | ⟨rfl, rfl⟩ | ⟨rfl, rfl⟩
  · exact createTopics_surfaces goes
  · exact verifyTopics_surfaces goes
  · exact verifyRegistry_surfaces goes
  · obtain ⟨rfl, -, -⟩ := goes_pure_iff.mp goes
    exact .nil

/-- The work of a run stops at the first failure that is not retried, and comes to it. -/
theorem workPhases_surfaces {result : Result Unit}
    (goes : Goes reconciler.workPhases start trace result stop) : Surfaces trace result := by
  rcases goes_workPhases goes with ⟨-, message, rest, rfl, stages⟩ | ⟨-, stages⟩
  · refine surfaces_logged.append (stages.surfaces fun next body mem => ?_)
    exact stage_surfaces (List.mem_append_right _ mem)
  · exact stages.surfaces fun next body mem => stage_surfaces mem

/-- The work of a run announces, in phases after the idle one, that the run goes on: neither its
end nor the way into the failed phase. -/
theorem workPhases_announces {result : Result Unit}
    (goes : Goes reconciler.workPhases start trace result stop) :
    ∀ e ∈ trace, ∀ told happening, e.request = .announce told happening →
      told ≠ .idle ∧ happening.IsOngoing := by
  have each : ∀ next body, (next, body) ∈ reconciler.topicStages ++ reconciler.lastStages →
      ∀ s t r p, Stage next body s t r p → ∀ e ∈ t, ∀ told happening,
        e.request = .announce told happening → told ≠ .idle ∧ happening.IsOngoing := by
    intro next body mem s t r p stage e he told happening news
    obtain ⟨rfl, ongoing⟩ := stage_announces mem stage e he told happening news
    refine ⟨?_, ongoing⟩
    rintro rfl
    rcases eq_of_mem_stages mem with ⟨h, -⟩ | ⟨h, -⟩ | ⟨h, -⟩ | ⟨h, -⟩ <;> cases h
  rcases goes_workPhases goes with ⟨-, message, rest, rfl, stages⟩ | ⟨-, stages⟩
  · refine List.forall_mem_cons.mpr ⟨fun _ _ news => (by cases news), ?_⟩
    refine stages.forall_mem fun next body mem => ?_
    exact each next body (List.mem_append_right _ mem)
  · exact stages.forall_mem each

theorem workPhases_ongoing {result : Result Unit}
    (goes : Goes reconciler.workPhases start trace result stop) :
    ∀ e ∈ trace, ∀ told happening, e.request = .announce told happening → happening.IsOngoing :=
  fun e he told happening news => (workPhases_announces goes e he told happening news).2

end Work

end Reconciler

end ClusterReadiness
