import ClusterReadiness.Proofs.Reconciler.PhaseGraph
import ClusterReadiness.Proofs.Reconciler.TopicBudget

/-!
# The work of a run is bounded

However the surroundings answer, a run comes to its end, and what it asks of them is bounded by the
two policies alone: the number of declared topics does not enter.
-/

namespace ClusterReadiness

section Kinds

namespace Request

def isCreation : Request → Bool
  | createTopics _ => true
  | _ => false

def isListing : Request → Bool
  | listTopics => true
  | _ => false

def isProbe : Request → Bool
  | probe => true
  | _ => false

theorem isCreation_port (request : Request) (is : request.isCreation = true) :
    request.IsPortCall := by
  cases request with
  | createTopics => trivial
  | _ => cases is

theorem isListing_port (request : Request) (is : request.isListing = true) :
    request.IsPortCall := by
  cases request with
  | listTopics => trivial
  | _ => cases is

theorem isProbe_port (request : Request) (is : request.isProbe = true) : request.IsPortCall := by
  cases request with
  | probe => trivial
  | _ => cases is

end Request

/-- The calls of some kind, in order. -/
def callsOf (kind : Request → Bool) (trace : List Exchange) : List Exchange :=
  trace.filter fun exchange => kind exchange.request

@[simp] theorem callsOf_append {kind : Request → Bool} {first rest : List Exchange} :
    callsOf kind (first ++ rest) = callsOf kind first ++ callsOf kind rest :=
  List.filter_append ..

theorem length_callsOf {kind : Request → Bool} {trace : List Exchange} :
    (callsOf kind trace).length = trace.countP fun exchange => kind exchange.request :=
  List.countP_eq_length_filter.symm

end Kinds

namespace Reconciler

variable {α : Type} {reconciler : Reconciler} {start stop phase next : Phase} {body : Work Unit}
  {trace first rest : List Exchange} {poll after : PollState}

section Rounds

/-- Rounds beyond the budget are never come to. -/
theorem round_congr {missing : String} {spent : Int → Fault} {waiting : Phase}
    {topic : Option String} {left more : Nat} (next : Nat → Polling α)
    (enough : reconciler.budget poll ≤ left) (plenty : reconciler.budget poll ≤ more)
    (same : ∀ fewer others between stop, fewer < left → reconciler.budget between ≤ fewer →
      reconciler.budget between ≤ others →
      ((next fewer).run.run between).run stop = ((next others).run.run between).run stop) :
    ((do
      let before ← reconciler.attemptMore missing spent
      match left with
      | 0 => throw (.of (spent before.attempt))
      | left + 1 => do
        announceRetry waiting before.interval topic
        next left : Polling α).run.run poll).run start = ((do
      let before ← reconciler.attemptMore missing spent
      match more with
      | 0 => throw (.of (spent before.attempt))
      | left + 1 => do
        announceRetry waiting before.interval topic
        next left : Polling α).run.run poll).run start := by
  refine polling_bind_congr fun trace before between middle polls => ?_
  obtain ⟨rfl, message, rest, outcome, rfl, advances, h⟩ := polls_attemptMore polls
  cases advances with
  | rested within grown =>
    have counted : ∀ rounds, reconciler.budget poll ≤ rounds → ∃ fewer, rounds = fewer + 1 := by
      intro rounds within'
      refine Nat.exists_eq_succ_of_ne_zero ?_
      unfold budget at within'
      omega
    obtain ⟨fewer, rfl⟩ := counted left enough
    obtain ⟨others, rfl⟩ := counted more plenty
    refine polling_bind_congr fun _ _ after _ told => ?_
    obtain ⟨rfl, rfl, rfl⟩ := polls_announceRetry told
    refine same fewer others _ _ (Nat.lt_succ_self _) ?_ ?_
    · simp only [budget] at enough ⊢
      omega
    · simp only [budget] at plenty ⊢
      omega
  | _ => cases h

theorem awaitTopic_congr {name : String} {left more : Nat} {listing : Listing} {start : Phase}
    {poll : PollState} (enough : reconciler.budget poll ≤ left)
    (plenty : reconciler.budget poll ≤ more) :
    ((reconciler.awaitTopic name left listing).run.run poll).run start =
      ((reconciler.awaitTopic name more listing).run.run poll).run start := by
  rw [awaitTopic.eq_def, awaitTopic.eq_def]
  split
  · rfl
  · refine round_congr _ enough plenty fun fewer others between stop hless hfewer hothers => ?_
    refine polling_bind_congr fun _ _ after _ asked => ?_
    obtain ⟨-, rfl⟩ := polls_ofWork_iff.mp asked
    exact awaitTopic_congr hfewer hothers
termination_by left

theorem awaitRegistry_congr {left more : Nat} {start : Phase} {poll : PollState}
    (enough : reconciler.budget poll ≤ left) (plenty : reconciler.budget poll ≤ more) :
    ((reconciler.awaitRegistry left).run.run poll).run start =
      ((reconciler.awaitRegistry more).run.run poll).run start := by
  rw [awaitRegistry.eq_def, awaitRegistry.eq_def]
  refine polling_bind_congr fun _ healthy _ _ probed => ?_
  obtain ⟨-, rfl, rfl⟩ := polls_probe_iff.mp probed
  cases healthy with
  | true => rfl
  | false =>
    refine round_congr _ enough plenty fun fewer others between stop hless hfewer hothers => ?_
    exact awaitRegistry_congr hfewer hothers
termination_by left

end Rounds

section Costs

/-- At most so many port calls, listings returned and sleeps. -/
structure Costs (calls listed slept : Nat) (trace : List Exchange) : Prop where
  calls : (portCalls trace).length ≤ calls
  listed : (listings trace).length ≤ listed
  slept : sleeps trace ≤ slept

variable {calls listed slept moreCalls moreListed moreSlept : Nat}

theorem Costs.append (before : Costs calls listed slept first)
    (onward : Costs moreCalls moreListed moreSlept rest) :
    Costs (calls + moreCalls) (listed + moreListed) (slept + moreSlept) (first ++ rest) := by
  have hcalls := Nat.add_le_add before.calls onward.calls
  have hlisted := Nat.add_le_add before.listed onward.listed
  have hslept := Nat.add_le_add before.slept onward.slept
  refine ⟨?_, ?_, ?_⟩
  · rwa [portCalls_append, List.length_append]
  · rwa [listings_append, List.length_append]
  · rwa [sleeps_append]

theorem Costs.mono (costs : Costs calls listed slept trace) (hcalls : calls ≤ moreCalls)
    (hlisted : listed ≤ moreListed) (hslept : slept ≤ moreSlept) :
    Costs moreCalls moreListed moreSlept trace :=
  ⟨Nat.le_trans costs.calls hcalls, Nat.le_trans costs.listed hlisted,
    Nat.le_trans costs.slept hslept⟩

theorem costs_nil : Costs 0 0 0 [] := ⟨Nat.le_refl 0, Nat.le_refl 0, Nat.le_refl 0⟩

theorem costs_logged (level : Level) (message : String) : Costs 0 0 0 [logged level message] :=
  ⟨Nat.le_refl 0, Nat.le_refl 0, Nat.le_refl 0⟩

theorem costs_told (level : Level) (message : String) (phase : Phase) (happening : Happening)
    (answer : Result Unit) :
    Costs 0 0 0 [logged level message, ⟨.announce phase happening, answer⟩] :=
  ⟨Nat.le_refl 0, Nat.le_refl 0, Nat.le_refl 0⟩

theorem costs_paused (level : Level) (message : String) (delay : Number) (answer : Result Unit) :
    Costs 0 0 1 [logged level message, ⟨.sleep delay, answer⟩] :=
  ⟨Nat.le_refl 0, Nat.le_refl 0, Nat.le_refl 1⟩

end Costs

section Requests

/-- A call is one port call, and returns at most so many listings. -/
structure Single (returns : Nat) (asks : Program (Result α)) : Prop where
  returned : ∀ t value, Runs asks t (.ok value) → Costs 1 returns 0 t
  failed : ∀ t failure, Runs asks t (.error failure) → Costs 1 0 0 t

theorem single_createTopics {specs : List TopicSpec} :
    Single 0 (Program.request (.createTopics specs)) := by
  constructor
  · intro t value run
    obtain rfl := runs_request_iff.mp run
    exact ⟨Nat.le_refl 1, Nat.le_refl 0, Nat.le_refl 0⟩
  · intro t failure run
    obtain rfl := runs_request_iff.mp run
    exact ⟨Nat.le_refl 1, Nat.le_refl 0, Nat.le_refl 0⟩

theorem single_listTopics : Single 1 (Program.request .listTopics) := by
  constructor
  · intro t value run
    obtain rfl := runs_request_iff.mp run
    exact ⟨Nat.le_refl 1, Nat.le_refl 1, Nat.le_refl 0⟩
  · intro t failure run
    obtain rfl := runs_request_iff.mp run
    exact ⟨Nat.le_refl 1, Nat.le_refl 0, Nat.le_refl 0⟩

/-- A retried call is made once more than it has attempts left, and rests before each of those. -/
theorem Attempts.costs {policy : RetryPolicy} {asks : Program (Result α)} {number : Int}
    {left returns : Nat} {outcome : Result α}
    (attempts : Attempts policy asks number left trace outcome) (single : Single returns asks) :
    Costs (left + 1) returns left trace := by
  induction attempts with
  | returned called =>
    exact (single.returned _ _ called).mono (by omega) (by omega) (by omega)
  | refused called | undelayed called =>
    exact (single.failed _ _ called).mono (by omega) (by omega) (by omega)
  | exhausted called =>
    exact ((single.failed _ _ called).append (costs_logged _ _)).mono (by omega) (by omega)
      (by omega)
  | cutShort called =>
    exact ((single.failed _ _ called).append (costs_paused _ _ _ _)).mono (by omega) (by omega)
      (by omega)
  | again called _ _ _ ih =>
    exact (((single.failed _ _ called).append (costs_paused _ _ _ _)).append ih).mono (by omega)
      (by omega) (by omega)

theorem createTopics_costs {result : Result Unit}
    (goes : Goes reconciler.createTopics start trace result stop) :
    Costs (spare reconciler.retry + 1) 0 (spare reconciler.retry) trace := by
  obtain ⟨-, message, attempts, ⟨failure, tried, rfl, -⟩ | ⟨accepted, tried, rfl⟩⟩ :=
    goes_createTopics goes
  · have asked := (costs_logged .info message).append (tried.costs single_createTopics)
    exact asked.mono (by omega) (by omega) (by omega)
  · have asked := (costs_logged .info message).append (tried.costs single_createTopics)
    exact (asked.append (costs_told _ _ _ _ _)).mono (by omega) (by omega) (by omega)

theorem listTopics_costs {result : Result Listing}
    (goes : Goes reconciler.listTopics start trace result stop) :
    Costs (spare reconciler.retry + 1) 1 (spare reconciler.retry) trace := by
  obtain ⟨-, ⟨failure, tried, -⟩ | ⟨attempts, listing, message, tried, -, rfl⟩⟩ :=
    goes_listTopics goes
  · exact tried.costs single_listTopics
  · exact (tried.costs single_listTopics).append (costs_logged _ _)

end Requests

section Verifications

/-- A round makes no call, rests at most once, and then only if the budget allows it; a round that
is told has taken one attempt of it. -/
theorem Waits.costs {waiting : Phase} {topic : Option String} {spent : Int → Fault}
    {result : Result Unit}
    (waits : Waits reconciler.wait phase waiting topic spent poll trace result after) :
    ∃ rounds, rounds ≤ reconciler.budget poll ∧ Costs 0 0 rounds trace ∧
      (result = .ok () →
        rounds = 1 ∧ rounds + reconciler.budget after = reconciler.budget poll) := by
  have one : poll.attempt < reconciler.wait.maxAttempts → 1 ≤ reconciler.budget poll := by
    intro within
    unfold budget
    omega
  cases waits with
  | spent => exact ⟨0, Nat.zero_le _, costs_logged _ _, fun h => by cases h⟩
  | cutShort within | overgrown within =>
    exact ⟨1, one within, ⟨Nat.le_refl 0, Nat.le_refl 0, Nat.le_refl 1⟩, fun h => by cases h⟩
  | told within =>
    refine ⟨1, one within, ⟨Nat.le_refl 0, Nat.le_refl 0, Nat.le_refl 1⟩, fun _ => ⟨rfl, ?_⟩⟩
    unfold budget
    simp only
    omega

/-- Waiting for a topic makes as many listing requests as it takes attempts of the budget. -/
theorem AwaitsTopic.costs {name : String} {listing : Listing} {result : Result Listing}
    (awaits : AwaitsTopic reconciler phase name poll listing trace result after) :
    ∃ rounds, rounds ≤ reconciler.budget poll ∧
      Costs (rounds * (spare reconciler.retry + 1)) rounds (rounds * (spare reconciler.retry + 1))
        trace ∧
      ∀ next, result = .ok next → rounds + reconciler.budget after = reconciler.budget poll := by
  induction awaits with
  | present =>
    refine ⟨0, Nat.zero_le _, ?_, fun _ _ => Nat.zero_add _⟩
    rw [Nat.zero_mul]
    exact costs_nil
  | stopped missing waits =>
    obtain ⟨rounds, within, costs, -⟩ := waits.costs
    have least : rounds ≤ rounds * (spare reconciler.retry + 1) :=
      Nat.le_mul_of_pos_right _ (Nat.succ_pos _)
    exact ⟨rounds, within, costs.mono (Nat.zero_le _) (Nat.zero_le _) least, fun _ h => by cases h⟩
  | unlisted missing waits goes =>
    obtain ⟨rounds, within, costs, taken⟩ := waits.costs
    obtain ⟨rfl, -⟩ := taken rfl
    refine ⟨1, within, ?_, fun _ h => by cases h⟩
    rw [Nat.one_mul]
    exact (costs.append (listTopics_costs goes)).mono (by omega) (by omega) (by omega)
  | again missing waits goes _ ih =>
    obtain ⟨rounds, within, costs, taken⟩ := waits.costs
    obtain ⟨rfl, left⟩ := taken rfl
    obtain ⟨more, others, onward, ended⟩ := ih
    refine ⟨1 + more, by omega, ?_, fun next h => ?_⟩
    · rw [Nat.add_mul, Nat.one_mul]
      exact ((costs.append (listTopics_costs goes)).append onward).mono (by omega) (by omega)
        (by omega)
    · have := ended next h
      omega

/-- The budget is shared by all topics. -/
theorem AwaitsTopics.costs {specs : List TopicSpec} {listing : Listing} {result : Result Unit}
    (awaits : AwaitsTopics reconciler phase specs poll listing trace result after) :
    ∃ rounds, rounds ≤ reconciler.budget poll ∧
      Costs (rounds * (spare reconciler.retry + 1)) rounds (rounds * (spare reconciler.retry + 1))
        trace := by
  induction awaits with
  | done =>
    refine ⟨0, Nat.zero_le _, ?_⟩
    rw [Nat.zero_mul]
    exact costs_nil
  | stopped awaits =>
    obtain ⟨rounds, within, costs, -⟩ := awaits.costs
    exact ⟨rounds, within, costs⟩
  | untold awaits =>
    obtain ⟨rounds, within, costs, -⟩ := awaits.costs
    exact ⟨rounds, within, costs.append (costs_told _ _ _ _ _)⟩
  | seen awaits _ ih =>
    obtain ⟨rounds, within, costs, ended⟩ := awaits.costs
    obtain ⟨more, others, onward⟩ := ih
    have left := ended _ rfl
    refine ⟨rounds + more, by omega, ?_⟩
    rw [Nat.add_mul]
    exact (costs.append (costs_told _ _ _ _ _)).append onward

theorem AwaitsRegistry.costs {result : Result Unit}
    (awaits : AwaitsRegistry reconciler phase poll trace result after) :
    Costs (1 + reconciler.budget poll) 0 (reconciler.budget poll) trace := by
  have probed : ∀ answer : Result Bool, Costs 1 0 0 [⟨.probe, answer⟩] :=
    fun _ => ⟨Nat.le_refl 1, Nat.le_refl 0, Nat.le_refl 0⟩
  induction awaits with
  | raised | healthy => exact (probed _).mono (by omega) (by omega) (by omega)
  | stopped waits =>
    obtain ⟨rounds, within, costs, -⟩ := waits.costs
    exact ((probed (.ok false)).append costs).mono (by omega) (by omega) (by omega)
  | again waits _ ih =>
    obtain ⟨rounds, within, costs, taken⟩ := waits.costs
    obtain ⟨rfl, left⟩ := taken rfl
    have all := ((probed (.ok false)).append costs).append ih
    exact all.mono (by omega) (by omega) (by omega)

/-- The rounds that a verification may take. -/
def rounds (reconciler : Reconciler) : Nat := reconciler.budget (.start reconciler.wait)

theorem verifyTopics_costs {result : Result Unit}
    (goes : Goes (reconciler.fresh reconciler.verifyTopics) start trace result stop) :
    Costs ((reconciler.rounds + 1) * (spare reconciler.retry + 1)) (reconciler.rounds + 1)
      (spare reconciler.retry + reconciler.rounds * (spare reconciler.retry + 1)) trace := by
  rw [Nat.add_mul, Nat.one_mul]
  obtain ⟨after, polls⟩ := goes_fresh_iff.mp goes
  obtain ⟨-, ⟨failure, asks, -, -⟩ | ⟨asked, listing, rest, asks, awaits, rfl⟩⟩ :=
    polls_verifyTopics polls
  · exact (listTopics_costs asks).mono (by omega) (by omega) (by omega)
  · obtain ⟨taken, within, costs⟩ := awaits.costs
    have fewer : taken * (spare reconciler.retry + 1) ≤
        reconciler.rounds * (spare reconciler.retry + 1) := Nat.mul_le_mul_right _ within
    have listed : taken ≤ reconciler.rounds := within
    exact ((listTopics_costs asks).append costs).mono (by omega) (by omega) (by omega)

theorem verifyRegistry_costs {result : Result Unit}
    (goes : Goes (reconciler.fresh reconciler.verifyRegistry) start trace result stop) :
    Costs (reconciler.rounds + 1) 0 reconciler.rounds trace := by
  obtain ⟨after, polls⟩ := goes_fresh_iff.mp goes
  have probed : ∀ t outcome, AwaitsRegistry reconciler start (.start reconciler.wait) t outcome
      after → Costs (reconciler.rounds + 1) 0 reconciler.rounds t := by
    intro t outcome awaits
    rw [Nat.add_comm]
    exact awaits.costs
  obtain ⟨-, ⟨failure, awaits, -⟩ | ⟨t, message, awaits, rfl, -⟩⟩ := polls_verifyRegistry polls
  · exact probed _ _ awaits
  · exact (probed _ _ awaits).append (costs_logged _ _)

end Verifications

section Stages

/-- The port calls that the work of a phase makes at most. -/
def callsIn (reconciler : Reconciler) : Phase → Nat
  | .creatingTopics => spare reconciler.retry + 1
  | .verifyingTopics => (reconciler.rounds + 1) * (spare reconciler.retry + 1)
  | .verifyingRegistry => reconciler.rounds + 1
  | _ => 0

/-- The listings that the work of a phase gets at most. -/
def listedIn (reconciler : Reconciler) : Phase → Nat
  | .verifyingTopics => reconciler.rounds + 1
  | _ => 0

/-- The sleeps that the work of a phase asks for at most. -/
def sleptIn (reconciler : Reconciler) : Phase → Nat
  | .creatingTopics => spare reconciler.retry
  | .verifyingTopics =>
    spare reconciler.retry + reconciler.rounds * (spare reconciler.retry + 1)
  | .verifyingRegistry => reconciler.rounds
  | _ => 0

variable {result : Result Unit}

/-- Entering a phase costs nothing. -/
theorem Stage.costs {calls listed slept : Nat}
    (stage : Stage next body start trace result stop)
    (work : ∀ t r s, Goes body next t r s → Costs calls listed slept t) :
    Costs calls listed slept trace := by
  have free : ∀ answer : Result Unit,
      Costs 0 0 0 (⟨.isInterrupted, false⟩ :: changing start next answer) :=
    fun _ => ⟨Nat.le_refl 0, Nat.le_refl 0, Nat.le_refl 0⟩
  cases stage with
  | refused => exact ⟨Nat.zero_le _, Nat.zero_le _, Nat.zero_le _⟩
  | untold => exact (free _).mono (Nat.zero_le _) (Nat.zero_le _) (Nat.zero_le _)
  | worked goes =>
    exact ((free (.ok ())).append (work _ _ _ goes)).mono (by omega) (by omega) (by omega)

theorem stage_costs (mem : (next, body) ∈ reconciler.topicStages ++ reconciler.lastStages)
    (stage : Stage next body start trace result stop) :
    Costs (reconciler.callsIn next) (reconciler.listedIn next) (reconciler.sleptIn next) trace := by
  rcases eq_of_mem_stages mem with ⟨rfl, rfl⟩ | ⟨rfl, rfl⟩ | ⟨rfl, rfl⟩ | ⟨rfl, rfl⟩
  · exact stage.costs fun _ _ _ goes => createTopics_costs goes
  · exact stage.costs fun _ _ _ goes => verifyTopics_costs goes
  · exact stage.costs fun _ _ _ goes => verifyRegistry_costs goes
  · refine stage.costs fun t r s goes => ?_
    obtain ⟨rfl, -, -⟩ := goes_pure_iff.mp goes
    exact costs_nil

/-- A bound for each stage is a bound for all of them. -/
theorem Stages.countP_le {counts : Exchange → Bool} {bound : Phase → Nat}
    {stages : List (Phase × Work Unit)} (run : Stages stages start trace result stop)
    (each : ∀ next body, (next, body) ∈ stages → ∀ s t r p, Stage next body s t r p →
      t.countP counts ≤ bound next) :
    trace.countP counts ≤ stages.foldr (fun stage sum => bound stage.1 + sum) 0 := by
  induction run with
  | done => exact Nat.le_refl 0
  | broken stage =>
    have first := each _ _ (.head _) _ _ _ _ stage
    rw [List.foldr_cons]
    exact Nat.le_trans first (Nat.le_add_right _ _)
  | more stage _ ih =>
    have first := each _ _ (.head _) _ _ _ _ stage
    have others := ih fun next body mem => each next body (.tail _ mem)
    rw [List.countP_append, List.foldr_cons]
    exact Nat.add_le_add first others

/-- The calls of a kind that the work of a phase makes are all of its calls or none. -/
theorem stage_callsOf {kind : Request → Bool}
    (port : ∀ request, kind request = true → request.IsPortCall)
    (mem : (next, body) ∈ reconciler.topicStages ++ reconciler.lastStages)
    (stage : Stage next body start trace result stop) :
    callsOf kind trace = if kind (reconciler.portOf next) then portCalls trace else [] := by
  have calls : ∀ e ∈ trace, e.request.IsPortCall → e.request = reconciler.portOf next :=
    fun e he hport => stage_calls mem stage e (mem_portCalls.mpr ⟨he, hport⟩)
  by_cases own : kind (reconciler.portOf next) = true
  · rw [if_pos own]
    refine List.filter_congr fun e he => ?_
    by_cases hport : e.request.IsPortCall
    · rw [calls e he hport, own]
      exact (decide_eq_true (calls e he hport ▸ hport)).symm
    · rw [decide_eq_false hport]
      exact Bool.eq_false_iff.mpr fun counted => hport (port _ counted)
  · rw [if_neg own]
    refine List.filter_eq_nil_iff.mpr fun e he counted => own ?_
    rwa [calls e he (port _ counted)] at counted

theorem stage_callsOf_le {kind : Request → Bool}
    (port : ∀ request, kind request = true → request.IsPortCall)
    (mem : (next, body) ∈ reconciler.topicStages ++ reconciler.lastStages)
    (stage : Stage next body start trace result stop) :
    (callsOf kind trace).length ≤
      if kind (reconciler.portOf next) then reconciler.callsIn next else 0 := by
  rw [stage_callsOf port mem stage]
  split
  · exact (stage_costs mem stage).calls
  · exact Nat.le_refl 0

end Stages

section Run

variable {result : Result Unit}

/-- Nothing that only port calls and sleeps count for is counted outside the stages. -/
theorem ensureReady_countP_le (counts : Exchange → Bool) (bound : Phase → Nat)
    (only : ∀ e, counts e = true → e.request.IsPortCall ∨ e.isSleep = true)
    (each : ∀ next body, (next, body) ∈ reconciler.topicStages ++ reconciler.lastStages →
      ∀ s t r p, Stage next body s t r p → t.countP counts ≤ bound next)
    (goes : Goes reconciler.ensureReady start trace result stop) :
    trace.countP counts ≤ bound .creatingTopics + bound .verifyingTopics +
      bound .verifyingRegistry + bound .ready := by
  have aside : ∀ e, ¬ e.request.IsPortCall → e.isSleep = false → counts e = false := by
    intro e call sleep
    refine Bool.eq_false_iff.mpr fun counted => ?_
    rcases only e counted with port | slept
    · exact call port
    · rw [sleep] at slept
      cases slept
  have clock : ∀ time : Float, counts ⟨.clock, time⟩ = false := fun _ => aside _ id rfl
  have line : ∀ level message, counts (logged level message) = false :=
    fun _ _ => aside _ id rfl
  have news : ∀ (phase : Phase) (happening : Happening) (answer : Result Unit),
      counts ⟨.announce phase happening, answer⟩ = false := fun _ _ _ => aside _ id rfl
  have worked : ∀ work outcome phase, Goes reconciler.workPhases .idle work outcome phase →
      work.countP counts ≤ bound .creatingTopics + bound .verifyingTopics +
        bound .verifyingRegistry + bound .ready := by
    intro work outcome phase goes
    rcases goes_workPhases goes with ⟨-, message, rest, rfl, stages⟩ | ⟨-, stages⟩
    · have within := stages.countP_le fun next body mem =>
        each next body (List.mem_append_right _ mem)
      simp only [lastStages, List.foldr_cons, List.foldr_nil] at within
      rw [List.countP_cons_of_neg (by rw [line]; exact Bool.false_ne_true)]
      omega
    · have within := stages.countP_le each
      simp only [topicStages, lastStages, List.cons_append, List.nil_append, List.foldr_cons,
        List.foldr_nil] at within
      omega
  by_cases idle : start = .idle
  · subst idle
    cases goes_ensureReady goes with
    | failed work fails =>
      have within := worked _ _ _ work
      obtain ⟨-, message, ⟨cut, rfl, -⟩ | rfl⟩ := goes_fail fails
      · simpa [changing, clock, line, news] using within
      · simpa [changing, clock, line, news] using within
    | ready work =>
      have within := worked _ _ _ work
      simpa [clock, line, news] using within
  · obtain ⟨-, ⟨-, rfl, -⟩ | ⟨-, rfl, -⟩⟩ := goes_ensureReady_again idle goes
    · rw [List.countP_singleton, line]
      exact Nat.zero_le _
    · exact Nat.zero_le _

/-- What a run may ask of its surroundings at most: the topics do not enter. -/
structure Bounded (reconciler : Reconciler) (trace : List Exchange) : Prop where
  creations : ((callsOf Request.isCreation trace).length : Int) ≤ reconciler.retry.maxAttempts
  listingCalls : ((callsOf Request.isListing trace).length : Int) ≤
    reconciler.wait.maxAttempts * reconciler.retry.maxAttempts
  listed : ((listings trace).length : Int) ≤ reconciler.wait.maxAttempts
  probes : ((callsOf Request.isProbe trace).length : Int) ≤ reconciler.wait.maxAttempts
  slept : (sleeps trace : Int) ≤ (reconciler.retry.maxAttempts - 1) +
    reconciler.wait.maxAttempts * (reconciler.retry.maxAttempts - 1) +
    2 * (reconciler.wait.maxAttempts - 1)

theorem attempts_eq_spare (policy : RetryPolicy) :
    policy.maxAttempts = (spare policy : Int) + 1 := by
  have := policy.attempts_pos
  unfold spare
  omega

theorem attempts_eq_rounds (reconciler : Reconciler) :
    reconciler.wait.maxAttempts = (reconciler.rounds : Int) + 1 := by
  have := reconciler.wait.attempts_pos
  simp only [rounds, budget, PollState.start]
  omega

theorem ensureReady_callsOf_le (kind : Request → Bool)
    (port : ∀ request, kind request = true → request.IsPortCall)
    (goes : Goes reconciler.ensureReady start trace result stop) :
    (callsOf kind trace).length ≤
      (if kind (.createTopics reconciler.topics) then reconciler.callsIn .creatingTopics else 0) +
      (if kind .listTopics then reconciler.callsIn .verifyingTopics else 0) +
      if kind .probe then reconciler.callsIn .verifyingRegistry else 0 := by
  have within := ensureReady_countP_le (fun e => kind e.request)
    (fun phase => if kind (reconciler.portOf phase) then reconciler.callsIn phase else 0)
    (fun e counted => .inl (port e.request counted))
    (fun _ _ mem _ _ _ _ stage => by
      rw [← length_callsOf]
      exact stage_callsOf_le port mem stage) goes
  have ready : (if kind (reconciler.portOf .ready) then reconciler.callsIn .ready else 0) = 0 :=
    ite_self _
  rw [ready, ← length_callsOf] at within
  exact within

theorem ensureReady_within (goes : Goes reconciler.ensureReady start trace result stop) :
    Bounded reconciler trace := by
  have attempts := attempts_eq_spare reconciler.retry
  have rounds := attempts_eq_rounds reconciler
  have port : ∀ e : Exchange, e.listing?.isSome = true → e.request.IsPortCall := by
    rintro ⟨request, answer⟩ returned
    cases request with
    | listTopics => trivial
    | _ => cases returned
  have listed := ensureReady_countP_le (fun e => e.listing?.isSome) reconciler.listedIn
    (fun e returned => .inl (port e returned)) (fun _ _ mem _ t _ _ stage => by
      rw [← List.length_filterMap_eq_countP]
      exact (stage_costs mem stage).listed) goes
  rw [← List.length_filterMap_eq_countP] at listed
  have slept := ensureReady_countP_le Exchange.isSleep reconciler.sleptIn
    (fun _ sleep => .inr sleep)
    (fun _ _ mem _ _ _ _ stage => (stage_costs mem stage).slept) goes
  have created := ensureReady_callsOf_le Request.isCreation Request.isCreation_port goes
  have asked := ensureReady_callsOf_le Request.isListing Request.isListing_port goes
  have probed := ensureReady_callsOf_le Request.isProbe Request.isProbe_port goes
  simp only [Request.isCreation, Request.isListing, Request.isProbe, if_true, if_false,
    Bool.false_eq_true, Nat.add_zero, Nat.zero_add, callsIn] at created asked probed
  simp only [listedIn, sleptIn, Nat.add_zero, Nat.zero_add] at listed slept
  constructor
  · omega
  · rw [attempts, rounds]
    exact_mod_cast asked
  · rw [rounds]
    exact_mod_cast listed
  · omega
  · have total : (sleeps trace : Int) ≤ spare reconciler.retry + (spare reconciler.retry +
        reconciler.rounds * (spare reconciler.retry + 1)) + reconciler.rounds := by
      exact_mod_cast slept
    rw [attempts, rounds, Int.add_sub_cancel, Int.add_sub_cancel, Int.add_mul, Int.one_mul]
    rw [Int.mul_add, Int.mul_one] at total
    omega

/-- A run ends however its requests are answered, also in view of what came before them; it asks of
its surroundings no more than the policies allow, however many topics are declared; and the loops of
its verifications end by the budget, since further rounds that they were given would change
nothing. -/
theorem ensureReady_bounded (reconciler : Reconciler) (start : Phase) :
    (∀ trace result stop, Goes reconciler.ensureReady start trace result stop →
      Bounded reconciler trace) ∧
    (∀ answer : List Exchange → (r : Request) → r.Answer, ∃ trace result stop,
      Goes reconciler.ensureReady start trace result stop ∧
      ∀ before e after, trace = before ++ e :: after → e.answer = answer before e.request) ∧
    ∀ poll left, reconciler.budget poll ≤ left →
      (∀ name listing phase, ((reconciler.awaitTopic name left listing).run.run poll).run phase =
        ((reconciler.awaitTopic name (reconciler.budget poll) listing).run.run poll).run phase) ∧
      ∀ phase, ((reconciler.awaitRegistry left).run.run poll).run phase =
        ((reconciler.awaitRegistry (reconciler.budget poll)).run.run poll).run phase := by
  refine ⟨fun _ _ _ goes => ensureReady_within goes, fun answer => ?_, fun poll left enough => ?_⟩
  · refine ⟨_, _, _, goes_follow answer reconciler.ensureReady start [], ?_⟩
    intro before e after split
    exact Program.answer_of_follow_eq split
  · constructor
    · intro name listing phase
      exact awaitTopic_congr enough (Nat.le_refl _)
    · intro phase
      exact awaitRegistry_congr enough (Nat.le_refl _)

/-- Every call fails until it may fail no more, and the topic is in the last listing only. -/
def reluctant (past : List Exchange) : (r : Request) → r.Answer
  | .createTopics _ =>
    if (callsOf Request.isCreation past).length = 2 then Except.ok ()
    else Except.error (.of (.adminCall "create_topics" "timed out"))
  | .listTopics =>
    if (callsOf Request.isListing past).length % 3 = 2 then
      Except.ok (if (listings past).length = 2 then ["orders"] else [])
    else Except.error (.of (.adminCall "list_topics" "timed out"))
  | .probe => Except.ok (decide ((callsOf Request.isProbe past).length = 2))
  | r => obliging [] r

/-- No bound is too large: with three attempts each, a run that succeeds may need all of them. -/
theorem ensureReady_bounded_reluctant :
    let run := Program.follow reluctant (ordersOnly.ensureReady.run.run .idle) []
    run.2 = (.ok (), .ready) ∧ Bounded ordersOnly run.1 ∧
    (callsOf Request.isCreation run.1).length = 3 ∧
    (callsOf Request.isListing run.1).length = 3 * 3 ∧
    (listings run.1).length = 3 ∧ (callsOf Request.isProbe run.1).length = 3 ∧
    sleeps run.1 = 2 + 3 * 2 + 2 * 2 := by
  intro run
  have goes : Goes ordersOnly.ensureReady .idle run.1 run.2.1 run.2.2 := goes_follow _ _ _ _
  have bounded := (ensureReady_bounded ordersOnly .idle).1 _ _ _ goes
  have ended : run.2 = (.ok (), .ready) := by decide +kernel
  exact ⟨ended, bounded, by decide +kernel, by decide +kernel, by decide +kernel,
    by decide +kernel, by decide +kernel⟩

end Run

end Reconciler

end ClusterReadiness
