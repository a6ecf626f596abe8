import ClusterReadiness.Proofs.Reconciler.Stages

/-!
# Leave for port calls

A port call takes leave: a sleep that is slept to its end, or a look at the shutdown flag that finds
it unset, gives leave for one call. A run makes no call without it, and once it is denied the run
asks for nothing more and fails.
-/

namespace ClusterReadiness

/-- Whether a port call may be made. -/
inductive Leave where
  | granted
  | used
  | denied
deriving DecidableEq

namespace Leave

/-- No call is made without leave, and once it is denied nobody asks for it again. -/
def next (leave : Leave) : Exchange → Option Leave
  | ⟨.createTopics _, _⟩ | ⟨.listTopics, _⟩ | ⟨.probe, _⟩ =>
    if leave = granted then some used else none
  | ⟨.sleep _, .ok _⟩ | ⟨.isInterrupted, false⟩ => if leave = denied then none else some granted
  | ⟨.sleep _, .error _⟩ | ⟨.isInterrupted, true⟩ => if leave = denied then none else some denied
  | ⟨.clock, _⟩ | ⟨.announce .., _⟩ | ⟨.record .., _⟩ => some leave

/-- The leave that is left after some exchanges, if each call among them had it. -/
def through : Leave → List Exchange → Option Leave
  | leave, [] => some leave
  | leave, exchange :: rest => (leave.next exchange).bind (·.through rest)

variable {leave last : Leave} {exchange : Exchange} {first rest trace : List Exchange}

@[simp] theorem through_nil : leave.through [] = some leave := rfl

@[simp] theorem through_cons :
    leave.through (exchange :: rest) = (leave.next exchange).bind (·.through rest) := rfl

@[simp] theorem through_append :
    leave.through (first ++ rest) = (leave.through first).bind (·.through rest) := by
  induction first generalizing leave with
  | nil => rfl
  | cons exchange first ih =>
    rw [List.cons_append, through_cons, through_cons, Option.bind_assoc]
    exact congrArg _ (funext fun _ => ih)

theorem next_port (port : exchange.request.IsPortCall) :
    leave.next exchange = if leave = granted then some used else none := by
  obtain ⟨request, answer⟩ := exchange
  cases request with
  | createTopics | listTopics | probe => rfl
  | _ => cases port

@[simp] theorem next_record {level : Level} {message : String} :
    leave.next ⟨.record level message, ()⟩ = some leave := rfl

@[simp] theorem next_clock {time : Float} : leave.next ⟨.clock, time⟩ = some leave := rfl

@[simp] theorem next_announce {phase : Phase} {happening : Happening} {answer : Result Unit} :
    leave.next ⟨.announce phase happening, answer⟩ = some leave := rfl

@[simp] theorem next_slept {delay : Number} :
    leave.next ⟨.sleep delay, .ok ()⟩ = if leave = denied then none else some granted := rfl

@[simp] theorem next_cutShort {delay : Number} {failure : Failure} :
    leave.next ⟨.sleep delay, .error failure⟩ = if leave = denied then none else some denied := rfl

@[simp] theorem next_unset :
    leave.next ⟨.isInterrupted, false⟩ = if leave = denied then none else some granted := rfl

@[simp] theorem next_set :
    leave.next ⟨.isInterrupted, true⟩ = if leave = denied then none else some denied := rfl

end Leave

namespace Reconciler

variable {α : Type} {reconciler : Reconciler} {start stop phase next : Phase} {body : Work Unit}
  {trace first rest : List Exchange} {poll after : PollState} {leave : Leave}

section Gates

/-- Every call has leave, and work that succeeds was not denied it. -/
def Gated (leave : Leave) (trace : List Exchange) (result : Result α) : Prop :=
  ∃ last, leave.through trace = some last ∧ ∀ value, result = .ok value → last ≠ .denied

theorem Gated.append {β : Type} {value : α} {result : Result β}
    (before : Gated leave first (.ok value : Result α))
    (onward : ∀ between ≠ .denied, Gated between rest result) :
    Gated leave (first ++ rest) result := by
  obtain ⟨between, passed, allowed⟩ := before
  obtain ⟨last, through, ended⟩ := onward between (allowed value rfl)
  refine ⟨last, ?_, ended⟩
  rw [Leave.through_append, passed]
  exact through

theorem Gated.of_error {β : Type} {failure : Failure}
    (before : Gated leave trace (.error failure : Result β)) :
    Gated leave trace (.error failure : Result α) := by
  obtain ⟨last, through, -⟩ := before
  exact ⟨last, through, fun _ h => by cases h⟩

/-- A sleep that is over gives leave for the next attempt. -/
theorem Attempts.gated {policy : RetryPolicy} {asks : Program (Result α)} {number : Int}
    {left : Nat} {outcome : Result α} (attempts : Attempts policy asks number left trace outcome)
    (calls : Calls asks) : Gated .granted trace outcome := by
  -- the call uses its leave up, whatever it comes to
  have called : ∀ {t : List Exchange} {result : Result α}, Runs asks t result →
      Leave.granted.through t = some .used := by
    intro t result run
    obtain ⟨call, rfl, port⟩ := calls t result run
    rw [Leave.through_cons, Leave.next_port port]
    rfl
  induction attempts with
  | returned run | refused run | undelayed run =>
    exact ⟨.used, called run, fun _ _ => by decide⟩
  | exhausted run | cutShort run => simp [Gated, called run, logged]
  | again run _ _ _ ih =>
    obtain ⟨last, through, ended⟩ := ih
    refine ⟨last, ?_, ended⟩
    simpa [called run, logged] using through

theorem Gated.surfacing {giveUp : Fault} {outcome : Result α} (gated : Gated leave trace outcome) :
    Gated leave trace (surfacing giveUp outcome) := by
  obtain ⟨last, through, ended⟩ := gated
  exact ⟨last, through, fun value h => ended value (eq_ok_of_surfacing h.symm)⟩

end Gates

section Work

theorem createTopics_gated {result : Result Unit}
    (goes : Goes reconciler.createTopics start trace result stop) :
    Gated .granted trace result := by
  obtain ⟨-, message, attempts, ⟨failure, tried, rfl, rfl⟩ | ⟨accepted, tried, rfl⟩⟩ :=
    goes_createTopics goes
  · have gated : Gated .granted attempts (surfacing reconciler.creationGivenUp (.error failure)) :=
      (tried.gated calls_createTopics).surfacing
    simpa [Gated, logged] using gated
  · have gated := tried.gated calls_createTopics
    have told : Gated .granted (logged .info message :: attempts) (.ok ()) := by
      simpa [Gated, logged] using gated
    exact told.append fun between allowed => ⟨between, rfl, fun _ _ => allowed⟩

theorem listTopics_gated {result : Result Listing}
    (goes : Goes reconciler.listTopics start trace result stop) : Gated .granted trace result := by
  obtain ⟨-, ⟨failure, tried, rfl⟩ | ⟨attempts, listing, message, tried, rfl, rfl⟩⟩ :=
    goes_listTopics goes
  · exact (tried.gated calls_listTopics).surfacing
  · exact (tried.gated calls_listTopics).append fun between allowed =>
      ⟨between, rfl, fun _ _ => allowed⟩

/-- A round that is over gives leave for the next look. -/
theorem Waits.gated {policy : WaitPolicy} {waiting : Phase} {topic : Option String}
    {spent : Int → Fault} {result : Result Unit}
    (waits : Waits policy phase waiting topic spent poll trace result after)
    (allowed : leave ≠ .denied) :
    ∃ last, leave.through trace = some last ∧ (result = .ok () → last = .granted) := by
  cases waits with
  | spent => exact ⟨leave, rfl, fun h => by cases h⟩
  | cutShort | overgrown => simp [logged, allowed]
  | told => exact ⟨.granted, by simp [logged, allowed], fun _ => rfl⟩

theorem Waits.gated_error {policy : WaitPolicy} {waiting : Phase} {topic : Option String}
    {spent : Int → Fault} {failure : Failure}
    (waits : Waits policy phase waiting topic spent poll trace (.error failure) after)
    (allowed : leave ≠ .denied) : Gated leave trace (.error failure : Result α) := by
  obtain ⟨last, through, -⟩ := waits.gated allowed
  exact ⟨last, through, fun _ h => by cases h⟩

/-- What needs leave may follow a round. -/
theorem Waits.gated_then {policy : WaitPolicy} {waiting : Phase} {topic : Option String}
    {spent : Int → Fault} {result : Result α}
    (waits : Waits policy phase waiting topic spent poll first (.ok ()) after)
    (allowed : leave ≠ .denied) (onward : Gated .granted rest result) :
    Gated leave (first ++ rest) result := by
  obtain ⟨between, through, granted⟩ := waits.gated allowed
  obtain rfl := granted rfl
  obtain ⟨last, onward, ended⟩ := onward
  refine ⟨last, ?_, ended⟩
  rw [Leave.through_append, through]
  exact onward

theorem AwaitsTopic.gated {name : String} {listing : Listing} {result : Result Listing}
    (awaits : AwaitsTopic reconciler phase name poll listing trace result after)
    (allowed : leave ≠ .denied) : Gated leave trace result := by
  induction awaits generalizing leave with
  | present => exact ⟨leave, rfl, fun _ _ => allowed⟩
  | stopped missing waits => exact waits.gated_error allowed
  | unlisted missing waits goes => exact waits.gated_then allowed (listTopics_gated goes)
  | again missing waits goes _ ih =>
    exact (waits.gated_then allowed (listTopics_gated goes)).append fun _ onward => ih onward

theorem AwaitsTopics.gated {specs : List TopicSpec} {listing : Listing} {result : Result Unit}
    (awaits : AwaitsTopics reconciler phase specs poll listing trace result after)
    (allowed : leave ≠ .denied) : Gated leave trace result := by
  induction awaits generalizing leave with
  | done => exact ⟨leave, rfl, fun _ _ => allowed⟩
  | stopped awaits => exact (awaits.gated allowed).of_error
  | untold awaits =>
    exact (awaits.gated allowed).append fun between onward => ⟨between, rfl, fun _ _ => onward⟩
  | seen awaits _ ih =>
    rw [List.append_assoc]
    refine (awaits.gated allowed).append fun between onward => ?_
    obtain ⟨last, through, ended⟩ := ih onward
    exact ⟨last, by simpa [logged] using through, ended⟩

theorem verifyTopics_gated {result : Result Unit}
    (goes : Goes (reconciler.fresh reconciler.verifyTopics) start trace result stop) :
    Gated .granted trace result := by
  obtain ⟨after, polls⟩ := goes_fresh_iff.mp goes
  obtain ⟨-, ⟨failure, asks, rfl, -⟩ | ⟨asked, listing, rest, asks, awaits, rfl⟩⟩ :=
    polls_verifyTopics polls
  · exact (listTopics_gated asks).of_error
  · exact (listTopics_gated asks).append fun _ allowed => awaits.gated allowed

theorem AwaitsRegistry.gated {result : Result Unit}
    (awaits : AwaitsRegistry reconciler phase poll trace result after) :
    Gated .granted trace result := by
  have probed : ∀ answer, Gated .granted [⟨.probe, answer⟩] (.ok ()) :=
    fun _ => ⟨.used, rfl, fun _ _ => by decide⟩
  induction awaits with
  | raised | healthy => exact ⟨.used, rfl, fun _ _ => by decide⟩
  | stopped waits => exact (probed _).append fun _ allowed => waits.gated_error allowed
  | again waits _ ih => exact (probed _).append fun _ allowed => waits.gated_then allowed ih

theorem verifyRegistry_gated {result : Result Unit}
    (goes : Goes (reconciler.fresh reconciler.verifyRegistry) start trace result stop) :
    Gated .granted trace result := by
  obtain ⟨after, polls⟩ := goes_fresh_iff.mp goes
  obtain ⟨-, ⟨failure, awaits, rfl⟩ | ⟨probed, message, awaits, rfl, rfl⟩⟩ :=
    polls_verifyRegistry polls
  · exact awaits.gated
  · exact awaits.gated.append fun between allowed => ⟨between, rfl, fun _ _ => allowed⟩

theorem stage_gated (mem : (next, body) ∈ reconciler.topicStages ++ reconciler.lastStages)
    {result : Result Unit} (goes : Goes body next trace result stop) :
    Gated .granted trace result := by
  rcases eq_of_mem_stages mem with ⟨rfl, rfl⟩ | ⟨rfl, rfl⟩ | ⟨rfl, rfl⟩ | ⟨rfl, rfl⟩
  · exact createTopics_gated goes
  · exact verifyTopics_gated goes
  · exact verifyRegistry_gated goes
  · obtain ⟨rfl, -, -⟩ := goes_pure_iff.mp goes
    exact ⟨.granted, rfl, fun _ _ => by decide⟩

/-- Entering a phase gives leave for its first call, unless a shutdown was asked for. -/
theorem Stage.gated {result : Result Unit}
    (mem : (next, body) ∈ reconciler.topicStages ++ reconciler.lastStages)
    (stage : Stage next body start trace result stop) (allowed : leave ≠ .denied) :
    Gated leave trace result := by
  cases stage with
  | refused => simp [Gated, allowed]
  | untold => simp [Gated, allowed, changing, logged]
  | worked goes =>
    have entered : Leave.through leave (⟨.isInterrupted, false⟩ :: changing start next (.ok ())) =
        some .granted := by simp [allowed, changing, logged]
    obtain ⟨last, through, ended⟩ := stage_gated mem goes
    refine ⟨last, ?_, ended⟩
    rw [Leave.through_append, entered]
    exact through

theorem Stages.gated {stages : List (Phase × Work Unit)} {result : Result Unit}
    (run : Stages stages start trace result stop)
    (own : ∀ stage ∈ stages, stage ∈ reconciler.topicStages ++ reconciler.lastStages)
    (allowed : leave ≠ .denied) : Gated leave trace result := by
  induction run generalizing leave with
  | done => exact ⟨leave, rfl, fun _ _ => allowed⟩
  | broken stage => exact stage.gated (own _ (.head _)) allowed
  | more stage _ ih =>
    refine (stage.gated (own _ (.head _)) allowed).append fun _ onward => ih ?_ onward
    exact fun stage mem => own stage (.tail _ mem)

theorem workPhases_gated {result : Result Unit}
    (goes : Goes reconciler.workPhases start trace result stop) : Gated .used trace result := by
  rcases goes_workPhases goes with ⟨-, message, rest, rfl, stages⟩ | ⟨-, stages⟩
  · have gated : Gated .used rest result :=
      stages.gated (fun _ mem => List.mem_append_right _ mem) (by decide)
    simpa [Gated, logged] using gated
  · exact stages.gated (fun _ mem => mem) (by decide)

/-- A run makes no port call without leave, and fails when it is denied. -/
theorem ensureReady_through {result : Result Unit}
    (goes : Goes reconciler.ensureReady .idle trace result stop) :
    ∃ last, Leave.used.through trace = some last := by
  cases goes_ensureReady goes with
  | failed worked fails =>
    obtain ⟨last, through, -⟩ := workPhases_gated worked
    refine ⟨last, ?_⟩
    obtain ⟨-, message, ⟨cut, rfl, -⟩ | rfl⟩ := goes_fail fails
    · simp [through, changing, logged]
    · simp [through, changing, logged]
  | ready worked =>
    obtain ⟨last, through, -⟩ := workPhases_gated worked
    exact ⟨last, by simp [through, logged]⟩

end Work

end Reconciler

end ClusterReadiness
