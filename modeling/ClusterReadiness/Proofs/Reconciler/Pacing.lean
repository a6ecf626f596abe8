import ClusterReadiness.Proofs.Reconciler.Stages
import ClusterReadiness.Proofs.Reconciler.TopicBudget

/-!
# Pacing

A run sleeps for two reasons: a call of the broker failed and is to be tried again, or what is
waited for is not there yet. Which of them it is, and how long the sleep is, can be read off the
exchanges before it, and neither counts for the other.
-/

namespace ClusterReadiness

/-- The interval that the given number of waits leads to. -/
def WaitPolicy.intervalAt (policy : WaitPolicy) : Nat → Except Overflow Number
  | 0 => .ok (.int policy.interval)
  | waits + 1 => (policy.intervalAt waits).bind (·.scale policy.multiplier)

/-- How far a run has got with its sleeps: the phase that it is in, how often in a row a call of the
broker failed, and how often it has waited in that phase. -/
structure Pace where
  phase : Phase
  failures : Nat
  waits : Nat
deriving DecidableEq

namespace Pace

def start : Pace := ⟨.idle, 0, 0⟩

/-- A sleep after a failed call is no wait. A new phase starts again. -/
def next (pace : Pace) : Exchange → Pace
  | ⟨.createTopics _, .error _⟩ | ⟨.listTopics, .error _⟩ =>
    { pace with failures := pace.failures + 1 }
  | ⟨.createTopics _, .ok _⟩ | ⟨.listTopics, .ok _⟩ => { pace with failures := 0 }
  | ⟨.sleep _, _⟩ => if pace.failures = 0 then { pace with waits := pace.waits + 1 } else pace
  | ⟨.announce _ (.stateChanged _ entered), _⟩ => ⟨entered, 0, 0⟩
  | _ => pace

/-- The pace after some exchanges. -/
def through (pace : Pace) (trace : List Exchange) : Pace := trace.foldl next pace

variable {pace : Pace} {first rest trace : List Exchange} {exchange : Exchange}

@[simp] theorem through_nil : pace.through [] = pace := rfl

@[simp] theorem through_cons :
    pace.through (exchange :: rest) = (pace.next exchange).through rest := rfl

@[simp] theorem through_append : pace.through (first ++ rest) = (pace.through first).through rest :=
  List.foldl_append

@[simp] theorem next_sleep {delay : Number} {answer : Result Unit} :
    pace.next ⟨.sleep delay, answer⟩ =
      if pace.failures = 0 then { pace with waits := pace.waits + 1 } else pace := rfl

end Pace

namespace Reconciler

variable {α : Type} {reconciler : Reconciler} {start stop phase next : Phase} {body : Work Unit}
  {trace first rest : List Exchange} {poll after : PollState} {pace : Pace}

section Paces

/-- Neither a sleep nor the news of a wait. -/
def Plain : Request → Prop
  | .sleep _ | .announce _ (.waitRetry ..) => False
  | _ => True

/-- The phases in which something is waited for. -/
def Verifying (phase : Phase) : Prop := phase = .verifyingTopics ∨ phase = .verifyingRegistry

/-- From this pace on, every sleep is as long as its reason has it, and a wait is told, and only
that, once it is over. -/
inductive Paces (reconciler : Reconciler) : Pace → List Exchange → Prop where
  | none {pace : Pace} : Paces reconciler pace []
  | retried {pace : Pace} {delay : Number} {answer : Result Unit} {rest : List Exchange}
      (failed : pace.failures ≠ 0) (delayed : reconciler.retry.delayAfter pace.failures = .ok delay)
      (more : Paces reconciler pace rest) :
      Paces reconciler pace (⟨.sleep delay, answer⟩ :: rest)
  | cutShort {pace : Pace} {delay : Number} {cut : Failure} {rest : List Exchange}
      (calm : pace.failures = 0) (verifying : Verifying pace.phase)
      (timed : reconciler.wait.intervalAt pace.waits = .ok delay)
      (more : Paces reconciler { pace with waits := pace.waits + 1 } rest) :
      Paces reconciler pace (⟨.sleep delay, .error cut⟩ :: rest)
  | waited {pace : Pace} {delay : Number} {topic : Option String} {told : Result Unit}
      {rest : List Exchange} (calm : pace.failures = 0) (verifying : Verifying pace.phase)
      (timed : reconciler.wait.intervalAt pace.waits = .ok delay)
      (more : Paces reconciler { pace with waits := pace.waits + 1 } rest) :
      Paces reconciler pace (⟨.sleep delay, .ok ()⟩ ::
        ⟨.announce pace.phase (.waitRetry pace.phase (pace.waits + 2) delay topic), told⟩ :: rest)
  | other {pace : Pace} {exchange : Exchange} {rest : List Exchange}
      (plain : Plain exchange.request) (more : Paces reconciler (pace.next exchange) rest) :
      Paces reconciler pace (exchange :: rest)

theorem Paces.append (before : Paces reconciler pace first)
    (onward : Paces reconciler (pace.through first) rest) :
    Paces reconciler pace (first ++ rest) := by
  induction before with
  | none => exact onward
  | retried failed delayed _ ih =>
    rw [Pace.through_cons, Pace.next_sleep, if_neg failed] at onward
    exact .retried failed delayed (ih onward)
  | cutShort calm verifying timed _ ih =>
    rw [Pace.through_cons, Pace.next_sleep, if_pos calm] at onward
    exact .cutShort calm verifying timed (ih onward)
  | waited calm verifying timed _ ih =>
    rw [Pace.through_cons, Pace.next_sleep, if_pos calm] at onward
    exact .waited calm verifying timed (ih onward)
  | other plain _ ih => exact .other plain (ih onward)

theorem paces_of_plain (plain : ∀ e ∈ trace, Plain e.request) : Paces reconciler pace trace := by
  induction trace generalizing pace with
  | nil => exact .none
  | cons exchange rest ih =>
    obtain ⟨here, others⟩ := List.forall_mem_cons.mp plain
    exact .other here (ih others)

end Paces

section Requests

/-- A call that is counted as failed or as made. -/
structure Counted (asks : Program (Result α)) : Prop where
  made : ∀ t value, Runs asks t (.ok value) → ∃ call : Exchange, t = [call] ∧
    Plain call.request ∧ ∀ pace : Pace, pace.next call = { pace with failures := 0 }
  failed : ∀ t failure, Runs asks t (.error failure) → ∃ call : Exchange, t = [call] ∧
    Plain call.request ∧ ∀ pace : Pace, pace.next call = { pace with failures := pace.failures + 1 }

theorem counted_createTopics {specs : List TopicSpec} :
    Counted (Program.request (.createTopics specs)) := by
  constructor
  · intro t value run
    exact ⟨_, runs_request_iff.mp run, trivial, fun _ => rfl⟩
  · intro t failure run
    exact ⟨_, runs_request_iff.mp run, trivial, fun _ => rfl⟩

theorem counted_listTopics : Counted (Program.request .listTopics) := by
  constructor
  · intro t value run
    exact ⟨_, runs_request_iff.mp run, trivial, fun _ => rfl⟩
  · intro t failure run
    exact ⟨_, runs_request_iff.mp run, trivial, fun _ => rfl⟩

/-- A sleep after a failed call is no wait. -/
theorem through_slept {message : String} {delay : Number} {answer : Result Unit}
    (failed : pace.failures ≠ 0) :
    pace.through [logged .warning message, ⟨.sleep delay, answer⟩] = pace :=
  if_neg failed

/-- A round that is told is one wait more. -/
theorem through_told {message note : String} {delay : Number} {attempt : Int}
    {topic : Option String} {answer : Result Unit} (calm : pace.failures = 0) :
    pace.through [logged .warning message, logged .debug note, ⟨.sleep delay, .ok ()⟩,
      ⟨.announce phase (.waitRetry phase attempt delay topic), answer⟩] =
        { pace with waits := pace.waits + 1 } :=
  if_pos calm

/-- The number of an attempt is one more than the failures before it. -/
theorem Attempts.paces {asks : Program (Result α)} {number : Int} {left : Nat} {outcome : Result α}
    (attempts : Attempts reconciler.retry asks number left trace outcome) (counted : Counted asks)
    (numbered : number = pace.failures + 1) :
    Paces reconciler pace trace ∧
      ∀ value, outcome = .ok value → pace.through trace = { pace with failures := 0 } := by
  induction attempts generalizing pace with
  | returned run =>
    obtain ⟨call, rfl, plain, made⟩ := counted.made _ _ run
    exact ⟨.other plain .none, fun _ _ => made pace⟩
  | refused run | undelayed run =>
    obtain ⟨call, rfl, plain, -⟩ := counted.failed _ _ run
    exact ⟨.other plain .none, fun _ h => by cases h⟩
  | exhausted run =>
    obtain ⟨call, rfl, plain, -⟩ := counted.failed _ _ run
    exact ⟨.other plain (.other trivial .none), fun _ h => by cases h⟩
  | @cutShort number _ _ _ _ _ _ run _ delay =>
    obtain ⟨call, rfl, plain, failed⟩ := counted.failed _ _ run
    have count : ((pace.next call).failures : Int) = number := by
      rw [failed, numbered]
      rfl
    have nonzero : (pace.next call).failures ≠ 0 := by omega
    rw [← count] at delay
    exact ⟨.other plain (.other trivial (.retried nonzero delay .none)), fun _ h => by cases h⟩
  | @again number _ _ _ _ _ _ _ run _ delay _ ih =>
    obtain ⟨call, rfl, plain, failed⟩ := counted.failed _ _ run
    have count : ((pace.next call).failures : Int) = number := by
      rw [failed, numbered]
      rfl
    have nonzero : (pace.next call).failures ≠ 0 := by omega
    obtain ⟨more, ended⟩ := ih (by rw [count])
    rw [← count] at delay
    refine ⟨.other plain (.other trivial (.retried nonzero delay more)), fun value h => ?_⟩
    rw [Pace.through_append, List.singleton_append, Pace.through_cons, through_slept nonzero,
      ended value h, failed]

/-- Requests are counted from the start. -/
theorem listTopics_paces {result : Result Listing} (calm : pace.failures = 0)
    (goes : Goes reconciler.listTopics start trace result stop) :
    Paces reconciler pace trace ∧ ∀ value, result = .ok value → pace.through trace = pace := by
  have same : { pace with failures := 0 } = pace := by rw [← calm]
  obtain ⟨-, ⟨failure, tried, rfl⟩ | ⟨attempts, listing, message, tried, rfl, rfl⟩⟩ :=
    goes_listTopics goes
  · obtain ⟨paces, -⟩ := tried.paces counted_listTopics (by rw [calm]; rfl)
    exact ⟨paces, fun value h => by cases eq_ok_of_surfacing h.symm⟩
  · obtain ⟨paces, ended⟩ := tried.paces counted_listTopics (by rw [calm]; rfl)
    refine ⟨paces.append (.other trivial .none), fun _ _ => ?_⟩
    rw [Pace.through_append, ended listing rfl, same]
    rfl

theorem createTopics_paces {result : Result Unit} (calm : pace.failures = 0)
    (goes : Goes reconciler.createTopics start trace result stop) :
    Paces reconciler pace trace := by
  obtain ⟨-, message, attempts, ⟨failure, tried, rfl, rfl⟩ | ⟨accepted, tried, rfl⟩⟩ :=
    goes_createTopics goes
  · obtain ⟨paces, -⟩ := tried.paces counted_createTopics (by rw [calm]; rfl)
    exact .other trivial paces
  · obtain ⟨paces, -⟩ := tried.paces counted_createTopics (by rw [calm]; rfl)
    exact .other trivial (paces.append (.other trivial (.other trivial .none)))

end Requests

section Waiting

/-- The poll of a phase has got as far as its waits. -/
structure InStep (reconciler : Reconciler) (phase : Phase) (pace : Pace) (poll : PollState) :
    Prop where
  here : pace.phase = phase
  calm : pace.failures = 0
  timed : reconciler.wait.intervalAt pace.waits = .ok poll.interval
  counted : poll.attempt = pace.waits + 1

theorem inStep_start : InStep reconciler phase ⟨phase, 0, 0⟩ (.start reconciler.wait) :=
  ⟨rfl, rfl, rfl, rfl⟩

/-- If the first interval can be grown, so can every one after it. -/
theorem not_overgrown {policy : WaitPolicy} (grows : Grows policy (.start policy)) {waits : Nat}
    {interval : Number} (timed : policy.intervalAt waits = .ok interval) (reason : Overflow) :
    interval.scale policy.multiplier ≠ .error reason := by
  cases waits with
  | zero =>
    cases timed
    exact grows reason
  | succ waits =>
    rw [WaitPolicy.intervalAt] at timed
    cases earlier : policy.intervalAt waits with
    | error _ =>
      rw [earlier] at timed
      cases timed
    | ok shorter =>
      rw [earlier] at timed
      have grown : (PollState.mk shorter 0).interval.scale policy.multiplier = .ok interval := timed
      exact grows_of_grown grown reason

variable (grows : Grows reconciler.wait (.start reconciler.wait))
include grows

theorem Waits.paces {topic : Option String} {spent : Int → Fault} {result : Result Unit}
    (waits : Waits reconciler.wait phase phase topic spent poll trace result after)
    (verifying : Verifying phase) (step : InStep reconciler phase pace poll) :
    Paces reconciler pace trace ∧
      (result = .ok () → InStep reconciler phase (pace.through trace) after) := by
  obtain ⟨rfl, calm, timed, counted⟩ := step
  cases waits with
  | spent => exact ⟨.other trivial .none, fun h => by cases h⟩
  | cutShort =>
    refine ⟨.other trivial (.other trivial (.cutShort calm verifying timed .none)), ?_⟩
    exact fun h => by cases h
  | overgrown _ grown => exact absurd grown (not_overgrown grows timed _)
  | told _ grown =>
    have numbered : poll.attempt + 1 = (pace.waits : Int) + 2 := by omega
    rw [numbered]
    refine ⟨.other trivial (.other trivial (.waited calm verifying timed .none)), fun _ => ?_⟩
    rw [through_told calm]
    refine ⟨rfl, calm, ?_, ?_⟩
    · rw [WaitPolicy.intervalAt, timed]
      exact grown
    · rw [← numbered, counted]
      push_cast
      omega

/-- Listing requests in between leave the waits alone. -/
theorem AwaitsTopic.paces {name : String} {listing : Listing} {result : Result Listing}
    (awaits : AwaitsTopic reconciler .verifyingTopics name poll listing trace result after)
    (step : InStep reconciler .verifyingTopics pace poll) :
    Paces reconciler pace trace ∧
      ∀ value, result = .ok value →
        InStep reconciler .verifyingTopics (pace.through trace) after := by
  have verifying : Verifying .verifyingTopics := .inl rfl
  induction awaits generalizing pace with
  | present => exact ⟨.none, fun _ _ => step⟩
  | stopped missing waits => exact ⟨(waits.paces grows verifying step).1, fun _ h => by cases h⟩
  | unlisted missing waits goes =>
    obtain ⟨paces, waited⟩ := waits.paces grows verifying step
    obtain ⟨listing, -⟩ := listTopics_paces (waited rfl).calm goes
    exact ⟨paces.append listing, fun _ h => by cases h⟩
  | again missing waits goes _ ih =>
    obtain ⟨paces, waited⟩ := waits.paces grows verifying step
    obtain ⟨listing, listed⟩ := listTopics_paces (waited rfl).calm goes
    have same := listed _ rfl
    obtain ⟨more, ended⟩ := ih (same ▸ waited rfl)
    rw [List.append_assoc]
    refine ⟨paces.append (listing.append more), fun value h => ?_⟩
    rw [Pace.through_append, Pace.through_append]
    exact ended value h

theorem AwaitsTopics.paces {specs : List TopicSpec} {listing : Listing} {result : Result Unit}
    (awaits : AwaitsTopics reconciler .verifyingTopics specs poll listing trace result after)
    (step : InStep reconciler .verifyingTopics pace poll) : Paces reconciler pace trace := by
  induction awaits generalizing pace with
  | done => exact .none
  | stopped awaits => exact (awaits.paces grows step).1
  | untold awaits =>
    exact (awaits.paces grows step).1.append (.other trivial (.other trivial .none))
  | seen awaits _ ih =>
    obtain ⟨paces, ended⟩ := awaits.paces grows step
    rw [List.append_assoc]
    exact paces.append (.other trivial (.other trivial (ih (ended _ rfl))))

theorem verifyTopics_paces {result : Result Unit}
    (goes : Goes (reconciler.fresh reconciler.verifyTopics) .verifyingTopics trace result stop) :
    Paces reconciler ⟨.verifyingTopics, 0, 0⟩ trace := by
  obtain ⟨after, polls⟩ := goes_fresh_iff.mp goes
  have calm : (⟨.verifyingTopics, 0, 0⟩ : Pace).failures = 0 := rfl
  obtain ⟨-, ⟨failure, asks, rfl, -⟩ | ⟨asked, listing, rest, asks, awaits, rfl⟩⟩ :=
    polls_verifyTopics polls
  · exact (listTopics_paces calm asks).1
  · obtain ⟨paces, listed⟩ := listTopics_paces calm asks
    refine paces.append (awaits.paces grows ?_)
    rw [listed _ rfl]
    exact inStep_start

theorem AwaitsRegistry.paces {result : Result Unit}
    (awaits : AwaitsRegistry reconciler .verifyingRegistry poll trace result after)
    (step : InStep reconciler .verifyingRegistry pace poll) : Paces reconciler pace trace := by
  have verifying : Verifying .verifyingRegistry := .inr rfl
  induction awaits generalizing pace with
  | raised | healthy => exact .other trivial .none
  | stopped waits => exact .other trivial (waits.paces grows verifying step).1
  | again waits _ ih =>
    obtain ⟨paces, waited⟩ := waits.paces grows verifying step
    exact .other trivial (paces.append (ih (waited rfl)))

theorem verifyRegistry_paces {result : Result Unit}
    (goes : Goes (reconciler.fresh reconciler.verifyRegistry) .verifyingRegistry trace result
      stop) : Paces reconciler ⟨.verifyingRegistry, 0, 0⟩ trace := by
  obtain ⟨after, polls⟩ := goes_fresh_iff.mp goes
  obtain ⟨-, ⟨failure, awaits, -⟩ | ⟨probed, message, awaits, rfl, -⟩⟩ :=
    polls_verifyRegistry polls
  · exact awaits.paces grows inStep_start
  · exact (awaits.paces grows inStep_start).append (.other trivial .none)

end Waiting

section Runs

variable (grows : Grows reconciler.wait (.start reconciler.wait))
include grows

theorem stage_paces (mem : (next, body) ∈ reconciler.topicStages ++ reconciler.lastStages)
    {result : Result Unit} (goes : Goes body next trace result stop) :
    Paces reconciler ⟨next, 0, 0⟩ trace := by
  rcases eq_of_mem_stages mem with ⟨rfl, rfl⟩ | ⟨rfl, rfl⟩ | ⟨rfl, rfl⟩ | ⟨rfl, rfl⟩
  · exact createTopics_paces rfl goes
  · exact verifyTopics_paces grows goes
  · exact verifyRegistry_paces grows goes
  · obtain ⟨rfl, -, -⟩ := goes_pure_iff.mp goes
    exact .none

/-- A phase that is entered starts again, whatever the pace before. -/
theorem Stage.paces {result : Result Unit}
    (mem : (next, body) ∈ reconciler.topicStages ++ reconciler.lastStages)
    (stage : Stage next body start trace result stop) : Paces reconciler pace trace := by
  cases stage with
  | refused => exact .other trivial .none
  | untold => exact .other trivial (.other trivial (.other trivial .none))
  | worked goes =>
    exact .other trivial (.other trivial (.other trivial (stage_paces grows mem goes)))

theorem Stages.paces {stages : List (Phase × Work Unit)} {result : Result Unit}
    (run : Stages stages start trace result stop)
    (own : ∀ stage ∈ stages, stage ∈ reconciler.topicStages ++ reconciler.lastStages) :
    Paces reconciler pace trace := by
  induction run generalizing pace with
  | done => exact .none
  | broken stage => exact stage.paces grows (own _ (.head _))
  | more stage _ ih =>
    refine (stage.paces grows (own _ (.head _))).append (ih ?_)
    exact fun stage mem => own stage (.tail _ mem)

theorem workPhases_paces {result : Result Unit}
    (goes : Goes reconciler.workPhases start trace result stop) : Paces reconciler pace trace := by
  rcases goes_workPhases goes with ⟨-, message, rest, rfl, stages⟩ | ⟨-, stages⟩
  · exact .other trivial (stages.paces grows fun _ mem => List.mem_append_right _ mem)
  · exact stages.paces grows fun _ mem => mem

theorem ensureReady_paces {result : Result Unit}
    (goes : Goes reconciler.ensureReady .idle trace result stop) :
    Paces reconciler .start trace := by
  cases goes_ensureReady goes with
  | failed worked fails =>
    refine .other trivial ((workPhases_paces grows worked).append (paces_of_plain ?_))
    obtain ⟨-, message, ⟨cut, rfl, -⟩ | rfl⟩ := goes_fail fails
    · simp [changing, logged, Plain]
    · simp [changing, logged, Plain]
  | ready worked =>
    refine .other trivial ((workPhases_paces grows worked).append (paces_of_plain ?_))
    simp [logged, Plain]

end Runs

section Sleeps

/-- A wait is told right after its sleep. -/
theorem Paces.told {before later : List Exchange} {told waiting : Phase} {attempt : Int}
    {delay : Number} {topic : Option String} {answer : Result Unit}
    (paces : Paces reconciler pace trace) (split : trace = before ++
      ⟨.announce told (.waitRetry waiting attempt delay topic), answer⟩ :: later) :
    ∃ earlier, before = earlier ++ [⟨.sleep delay, .ok ()⟩] ∧
      (pace.through earlier).failures = 0 := by
  induction paces generalizing before with
  | none => simp at split
  | retried failed _ _ ih =>
    rcases List.cons_eq_append_iff.mp split with ⟨-, h⟩ | ⟨before, rfl, rest⟩
    · cases h
    · obtain ⟨earlier, rfl, calm⟩ := ih rest
      refine ⟨_ :: earlier, rfl, ?_⟩
      rwa [Pace.through_cons, Pace.next_sleep, if_neg failed]
  | cutShort calm _ _ _ ih =>
    rcases List.cons_eq_append_iff.mp split with ⟨-, h⟩ | ⟨before, rfl, rest⟩
    · cases h
    · obtain ⟨earlier, rfl, still⟩ := ih rest
      refine ⟨_ :: earlier, rfl, ?_⟩
      rwa [Pace.through_cons, Pace.next_sleep, if_pos calm]
  | waited calm _ _ _ ih =>
    rcases List.cons_eq_append_iff.mp split with ⟨-, h⟩ | ⟨news, rfl, onward⟩
    · cases h
    · rcases List.cons_eq_append_iff.mp onward with ⟨rfl, h⟩ | ⟨before, rfl, rest⟩
      · cases h
        exact ⟨[], rfl, calm⟩
      · obtain ⟨earlier, rfl, still⟩ := ih rest
        refine ⟨_ :: _ :: earlier, rfl, ?_⟩
        rwa [Pace.through_cons, Pace.next_sleep, if_pos calm]
  | other plain _ ih =>
    rcases List.cons_eq_append_iff.mp split with ⟨-, h⟩ | ⟨before, rfl, rest⟩
    · cases h
      exact plain.elim
    · obtain ⟨earlier, rfl, calm⟩ := ih rest
      exact ⟨_ :: earlier, rfl, calm⟩

/-- A sleep is as long as its reason has it. A wait that is over is told at once, and not again
before another sleep. -/
structure Timely (reconciler : Reconciler) (pace : Pace) (delay : Number) (answer : Result Unit)
    (after : List Exchange) : Prop where
  retried : pace.failures ≠ 0 → reconciler.retry.delayAfter pace.failures = .ok delay
  verifying : pace.failures = 0 → Verifying pace.phase
  timed : pace.failures = 0 → reconciler.wait.intervalAt pace.waits = .ok delay
  told : pace.failures = 0 → answer = .ok () → ∃ topic told rest, after =
    ⟨.announce pace.phase (.waitRetry pace.phase (pace.waits + 2) delay topic), told⟩ :: rest ∧
    ∀ before later told waiting attempt delay topic answer, rest = before ++
      ⟨.announce told (.waitRetry waiting attempt delay topic), answer⟩ :: later →
      ∃ e ∈ before, ∃ delay, e.request = .sleep delay

theorem Paces.timely {before later : List Exchange} {delay : Number} {answer : Result Unit}
    (paces : Paces reconciler pace trace)
    (split : trace = before ++ ⟨.sleep delay, answer⟩ :: later) :
    Timely reconciler (pace.through before) delay answer later := by
  induction paces generalizing before with
  | none => simp at split
  | retried failed delayed _ ih =>
    rcases List.cons_eq_append_iff.mp split with ⟨rfl, h⟩ | ⟨before, rfl, rest⟩
    · cases h
      exact ⟨fun _ => delayed, fun calm => absurd calm failed, fun calm => absurd calm failed,
        fun calm => absurd calm failed⟩
    · rw [Pace.through_cons, Pace.next_sleep, if_neg failed]
      exact ih rest
  | cutShort calm verifying timed _ ih =>
    rcases List.cons_eq_append_iff.mp split with ⟨rfl, h⟩ | ⟨before, rfl, rest⟩
    · cases h
      exact ⟨fun failed => absurd calm failed, fun _ => verifying, fun _ => timed,
        fun _ h => by cases h⟩
    · rw [Pace.through_cons, Pace.next_sleep, if_pos calm]
      exact ih rest
  | waited calm verifying timed more ih =>
    rcases List.cons_eq_append_iff.mp split with ⟨rfl, h⟩ | ⟨news, rfl, onward⟩
    · cases h
      refine ⟨fun failed => absurd calm failed, fun _ => verifying, fun _ => timed,
        fun _ _ => ⟨_, _, _, rfl, ?_⟩⟩
      intro before later told waiting attempt delay topic answer again
      obtain ⟨earlier, rfl, -⟩ := more.told again
      exact ⟨_, List.mem_append_right _ (.head _), delay, rfl⟩
    · rcases List.cons_eq_append_iff.mp onward with ⟨rfl, h⟩ | ⟨before, rfl, rest⟩
      · cases h
      · rw [Pace.through_cons, Pace.next_sleep, if_pos calm, Pace.through_cons]
        exact ih rest
  | other plain _ ih =>
    rcases List.cons_eq_append_iff.mp split with ⟨rfl, h⟩ | ⟨before, rfl, rest⟩
    · cases h
      exact plain.elim
    · exact ih rest

/-- In a run whose waits can grow, a sleep after failed calls is the delay of the retry policy after
so many, and every other one is the interval of the wait policy after the waits of the phase; a wait
is told once when it is over, and nothing but such a wait is told. -/
theorem ensureReady_timely (grows : Grows reconciler.wait (.start reconciler.wait))
    {result : Result Unit} (goes : Goes reconciler.ensureReady .idle trace result stop) :
    (∀ before delay answer later, trace = before ++ ⟨.sleep delay, answer⟩ :: later →
      Timely reconciler (Pace.start.through before) delay answer later) ∧
    ∀ before told waiting attempt delay topic answer later, trace = before ++
        ⟨.announce told (.waitRetry waiting attempt delay topic), answer⟩ :: later →
      ∃ earlier, before = earlier ++ [⟨.sleep delay, .ok ()⟩] ∧
        (Pace.start.through earlier).failures = 0 := by
  have paces := ensureReady_paces grows goes
  constructor
  · intro before delay answer later split
    exact paces.timely split
  · intro before told waiting attempt delay topic answer later split
    exact paces.told split

/-- Every other listing request fails at first, and the topic is in the second listing. -/
def faltering (past : List Exchange) : (r : Request) → r.Answer
  | .listTopics =>
    match past.countP (·.request = .listTopics) with
    | 1 => Except.ok []
    | 3 => Except.ok ["orders"]
    | _ => Except.error (.of (.adminCall "list_topics" "timed out"))
  | r => obliging [] r

/-- Two retries and, between them, one wait. -/
theorem ensureReady_timely_faltering :
    let run := Program.follow faltering (ordersOnly.ensureReady.run.run .idle) []
    run.2 = (.ok (), .ready) ∧ run.1.countP (·.request matches .sleep _) = 3 ∧
    Grows ordersOnly.wait (.start ordersOnly.wait) ∧
    ∀ before delay answer later, run.1 = before ++ ⟨.sleep delay, answer⟩ :: later →
      Timely ordersOnly (Pace.start.through before) delay answer later := by
  intro run
  have goes : Goes ordersOnly.ensureReady .idle run.1 run.2.1 run.2.2 := goes_follow _ _ _ _
  have ended : run.2 = (.ok (), .ready) := by decide +kernel
  have slept : run.1.countP (·.request matches .sleep _) = 3 := by decide +kernel
  have grows : Grows ordersOnly.wait (.start ordersOnly.wait) := by
    intro reason overflows
    have scaled : ((PollState.start ordersOnly.wait).interval.scale
      ordersOnly.wait.multiplier).toBool = true := by decide +kernel
    rw [overflows] at scaled
    cases scaled
  exact ⟨ended, slept, grows, (ensureReady_timely grows goes).1⟩

end Sleeps

end Reconciler

end ClusterReadiness
