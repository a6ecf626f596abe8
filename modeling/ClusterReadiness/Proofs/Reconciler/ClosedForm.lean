import ClusterReadiness.Proofs.Reconciler.Collaborators
import ClusterReadiness.Proofs.Reconciler.Pacing
import ClusterReadiness.Proofs.Reconciler.FailureReasons

/-!
# What a run against collaborators kept in memory comes to

Topics that stay out of so many listings, and a registry that fails so many probes, decide a run and
what it takes: it is ready if both fit into the budget, and it makes no call and takes no rest beyond
what it needs for that.
-/

namespace ClusterReadiness

section Sleeps

variable {first rest : List Exchange}

def Exchange.delay? (exchange : Exchange) : Option Number :=
  match exchange.request with
  | .sleep delay => some delay
  | _ => none

/-- The delays that were slept, in order. -/
def delays (trace : List Exchange) : List Number := trace.filterMap Exchange.delay?

@[simp] theorem delays_append : delays (first ++ rest) = delays first ++ delays rest :=
  List.filterMap_append

/-- The first so many terms of the wait sequence. -/
def WaitPolicy.intervals (policy : WaitPolicy) (waits : Nat) : List (Except Overflow Number) :=
  (List.range waits).map policy.intervalAt

end Sleeps

/-- Looking for names that come into view one day and then stay ends when the last of them has. -/
theorem Scan.last_eq {L : Nat → Listing} {names : List String} {away : String → Nat}
    {start last : Nat} (scan : Scan L start names last) (positive : 1 ≤ start)
    (comes : ∀ name ∈ names, ∀ q, 1 ≤ q → (name ∈ L q ↔ away name < q)) :
    last = max start (names.toFinset.sup away + 1) := by
  induction scan with
  | done => exact (Nat.max_eq_left positive).symm
  | @found start position last name names ahead here missing _ ih =>
    obtain ⟨comes, others⟩ := List.forall_mem_cons.mp comes
    have there := (comes position (by omega)).mp here
    -- The scan stands at a position only if the name is in no listing between the start and there.
    have notBefore : position = start ∨ position ≤ away name + 1 := by
      by_contra early
      exact missing (position - 1) (by omega) (by omega) ((comes _ (by omega)).mpr (by omega))
    rw [ih (by omega) others, List.toFinset_cons, Finset.sup_insert]
    omega

namespace Reconciler

variable {reconciler : Reconciler} {start stop phase : Phase} {trace first rest : List Exchange}
  {result : Result Unit} {there last : Collaborators}

/-- So many calls of each kind, and these delays. -/
structure Takes (creations listings probes : Nat) (slept : List (Except Overflow Number))
    (trace : List Exchange) : Prop where
  created : (callsOf Request.isCreation trace).length = creations
  listed : (callsOf Request.isListing trace).length = listings
  probed : (callsOf Request.isProbe trace).length = probes
  slept : (delays trace).map Except.ok = slept

section Takes

variable {creations listings probes moreCreations moreListings moreProbes : Nat}
  {slept moreSlept : List (Except Overflow Number)}

theorem Takes.append (before : Takes creations listings probes slept first)
    (onward : Takes moreCreations moreListings moreProbes moreSlept rest) :
    Takes (creations + moreCreations) (listings + moreListings) (probes + moreProbes)
      (slept ++ moreSlept) (first ++ rest) := by
  constructor
  · rw [callsOf_append, List.length_append, before.created, onward.created]
  · rw [callsOf_append, List.length_append, before.listed, onward.listed]
  · rw [callsOf_append, List.length_append, before.probed, onward.probed]
  · rw [delays_append, List.map_append, before.slept, onward.slept]

theorem Takes.after (takes : Takes creations listings probes slept rest)
    (quiet : Takes 0 0 0 [] first) : Takes creations listings probes slept (first ++ rest) := by
  simpa using quiet.append takes

theorem Takes.before (takes : Takes creations listings probes slept first)
    (quiet : Takes 0 0 0 [] rest) : Takes creations listings probes slept (first ++ rest) := by
  simpa using takes.append quiet

theorem takes_entering (previous next : Phase) : Takes 0 0 0 [] (entering previous next) :=
  ⟨rfl, rfl, rfl, rfl⟩

end Takes

section Fine

/-- Where nothing fails, every sleep is a wait, and takes its interval. -/
theorem delays_of_paces {pace : Pace} (paces : Paces reconciler pace trace)
    (calm : pace.failures = 0) (fine : ∀ e ∈ trace, e.failure? = none)
    (unchanged : changes (announcements trace) = []) :
    (delays trace).map Except.ok =
      (List.range' pace.waits (sleeps trace)).map reconciler.wait.intervalAt := by
  -- A retry, and a sleep that is cut short, would come from a failure, so waits alone are left.
  induction paces with
  | none => rfl
  | retried failed => exact absurd calm failed
  | cutShort => cases fine _ (.head _)
  | @waited pace delay topic told rest _ _ timed _ ih =>
    have onward := ih calm (fun e mem => fine e (.tail _ (.tail _ mem))) unchanged
    have slept : sleeps (⟨.sleep delay, .ok ()⟩ :: ⟨.announce pace.phase
        (.waitRetry pace.phase (pace.waits + 2) delay topic), told⟩ :: rest) = sleeps rest + 1 := by
      unfold sleeps
      rw [List.countP_cons_of_pos rfl, List.countP_cons_of_neg Bool.false_ne_true]
    rw [slept, List.range'_succ, List.map_cons, timed, ← onward]
    rfl
  | @other pace exchange rest plain _ ih =>
    obtain ⟨request, answer⟩ := exchange
    have onward := fun e mem => fine e (.tail _ mem)
    cases request with
    | sleep => exact plain.elim
    | createTopics | listTopics =>
      cases answer with
      | error failure => cases fine _ (.head _)
      | ok value => exact ih rfl onward unchanged
    | announce told happening =>
      cases happening with
      | stateChanged => cases unchanged
      | _ => exact ih calm onward unchanged
    | _ => exact ih calm onward unchanged

theorem slept_of_paces (paces : Paces reconciler ⟨phase, 0, 0⟩ trace)
    (fine : ∀ e ∈ trace, e.failure? = none) (unchanged : changes (announcements trace) = []) :
    (delays trace).map Except.ok = reconciler.wait.intervals (sleeps trace) := by
  rw [delays_of_paces paces rfl fine unchanged, WaitPolicy.intervals, List.range_eq_range']

variable (fine : ∀ e ∈ trace, e.failure? = none)
include fine

theorem smooth_of_fine : ∀ e ∈ trace, e.Smooth := by
  rintro ⟨request, answer⟩ mem
  have here := fine _ mem
  cases request with
  | sleep | announce =>
    cases answer with
    | error failure => cases here
    | ok _ => trivial
  | _ => trivial

theorem failedListings_of_fine : failedListings trace = 0 := by
  refine List.countP_eq_zero.mpr ?_
  rintro ⟨request, answer⟩ mem failed
  have here := fine _ mem
  cases request with
  | listTopics =>
    cases answer with
    | error failure => cases here
    | ok _ => cases failed
  | _ => cases failed

/-- Where nothing fails, there are as many calls of a kind as answers to them. -/
theorem length_callsOf_of_fine {α : Type} {kind : Request → Bool} {told? : Exchange → Option α}
    (tells : ∀ e : Exchange, e.failure? = none → (told? e).isSome = kind e.request) :
    (callsOf kind trace).length = (trace.filterMap told?).length := by
  rw [length_callsOf, List.length_filterMap_eq_countP]
  refine List.countP_congr fun e mem => ?_
  rw [tells e (fine e mem)]

theorem callsOf_isListing_of_fine :
    (callsOf Request.isListing trace).length = (listings trace).length := by
  refine length_callsOf_of_fine fine ?_
  rintro ⟨request, answer⟩ here
  cases request with
  | listTopics =>
    cases answer with
    | error failure => cases here
    | ok listing => rfl
  | _ => rfl

theorem callsOf_isProbe_of_fine :
    (callsOf Request.isProbe trace).length = (healths trace).length := by
  refine length_callsOf_of_fine fine ?_
  rintro ⟨request, answer⟩ here
  cases request with
  | probe =>
    cases answer with
    | error failure => cases here
    | ok healthy => rfl
  | _ => rfl

end Fine

section Bodies

/-- Work that concerns another call makes none of this kind. -/
theorem Concerns.kind_eq {call request : Request} {kind : Request → Bool}
    (port : ∀ r, kind r = true → r.IsPortCall) (other : kind call = false)
    (concerns : Concerns phase call request) : kind request = false := by
  cases counted : kind request with
  | false => rfl
  | true =>
    rw [concerns.eq_call (port request counted), other] at counted
    cases counted

theorem callsOf_of_concerns {call : Request} {kind : Request → Bool}
    (port : ∀ r, kind r = true → r.IsPortCall) (other : kind call = false)
    (concerns : ∀ e ∈ trace, Concerns phase call e.request) : (callsOf kind trace).length = 0 := by
  rw [length_callsOf, List.countP_eq_zero]
  intro e mem counted
  rw [(concerns e mem).kind_eq port other] at counted
  cases counted

/-- A retried call is made first of all. -/
theorem Attempts.begins {α : Type} {policy : RetryPolicy} {asks : Program (Result α)} {number : Int}
    {left : Nat} {outcome : Result α} (attempts : Attempts policy asks number left trace outcome) :
    (∃ value, Runs asks trace (.ok value) ∧ outcome = .ok value) ∨
      ∃ failed rest failure, Runs asks failed (.error failure) ∧ trace = failed ++ rest := by
  cases attempts with
  | returned called => exact .inl ⟨_, called, rfl⟩
  | refused called | undelayed called => exact .inr ⟨_, [], _, called, (List.append_nil _).symm⟩
  | exhausted called | cutShort called => exact .inr ⟨_, _, _, called, rfl⟩
  | again called => exact .inr ⟨_, _, _, called, List.append_assoc ..⟩

/-- One creation request is enough. -/
theorem createTopics_against (goes : Goes reconciler.createTopics start trace result stop)
    (against : Against there trace last) :
    result = .ok () ∧ Takes 1 0 0 [] trace ∧
      last.broker = (there.broker.createTopics reconciler.topics).1 ∧
      last.registry = there.registry := by
  have fine := against.fine
  have unprobed : ∀ e ∈ trace, e.request.isProbe = false :=
    fun e mem => (createTopics_concerns goes e mem).kind_eq Request.isProbe_port rfl
  have registry_eq := against.registry_eq unprobed
  obtain ⟨-, message, attempts, ⟨failure, tried, rfl, -⟩ | ⟨accepted, tried, rfl⟩⟩ :=
    goes_createTopics goes
  · rcases tried.begins with ⟨value, -, h⟩ | ⟨failed, rest, raised, called, rfl⟩
    · cases h
    · rw [runs_request_iff.mp called] at fine
      cases fine _ (.tail _ (.head _))
  · rcases tried.begins with ⟨value, called, h⟩ | ⟨failed, rest, raised, called, rfl⟩
    · obtain rfl := runs_request_iff.mp called
      have told := fine _ (.tail _ (.tail _ (.tail _ (.head _))))
      cases result with
      | error failure => cases told
      | ok _ =>
        exact ⟨rfl, ⟨rfl, rfl, rfl, rfl⟩, against.broker_eq, registry_eq⟩
    · rw [runs_request_iff.mp called] at fine
      cases fine _ (.tail _ (.head _))

theorem max_start_attempt (policy : WaitPolicy) :
    max (PollState.start policy).attempt policy.maxAttempts = policy.maxAttempts :=
  Int.max_eq_right policy.attempts_pos

variable (grows : Grows reconciler.wait (.start reconciler.wait))
include grows

/-- The topics are there when the last of them has come into view, or the budget is spent on
waiting for the first that takes longer than it. -/
theorem verifyTopics_shown {L : Nat → Listing} {away : String → Nat} {after : PollState}
    (polls : Polls reconciler.verifyTopics (.start reconciler.wait) start trace result after stop)
    (fine : ∀ e ∈ trace, e.failure? = none) (follows : Follows L 1 trace)
    (comes : ∀ name ∈ reconciler.topicNames, ∀ q, 1 ≤ q → (name ∈ L q ↔ away name < q)) :
    let far := reconciler.topicNames.toFinset.sup away
    (far ≤ reconciler.rounds → result = .ok ()) ∧
    (reconciler.rounds < far → ∃ name,
      reconciler.topicNames.find? (fun name => reconciler.rounds < away name) = some name ∧
      result = .error (.of (.topicNotReady name reconciler.wait.maxAttempts))) ∧
    (listings trace).length = min far reconciler.rounds + 1 ∧
    sleeps trace = min far reconciler.rounds := by
  intro far
  have budget_eq : reconciler.budget (.start reconciler.wait) = reconciler.rounds := rfl
  have answered := failedListings_of_fine fine
  cases result with
  | ok _ =>
    obtain ⟨scan, within, slept, -⟩ :=
      verifyTopics_found polls grows (smooth_of_fine fine) follows
    have ends : (listings trace).length = max 1 (far + 1) := scan.last_eq (Nat.le_refl 1) comes
    rw [budget_eq] at within
    refine ⟨fun _ => rfl, fun late => ?_, ?_, ?_⟩ <;> omega
  | error failure =>
    obtain ⟨before, name, others, middle, split, scan, within, missed, raised, fetched, slept⟩ :=
      verifyTopics_missed polls grows (smooth_of_fine fine) (answered_of_no_failure answered)
        follows
    rw [budget_eq] at within missed fetched slept
    rw [max_start_attempt] at raised
    have among : name ∈ reconciler.topicNames := by simp [split]
    have late : reconciler.rounds < away name := by
      by_contra early
      exact missed _ within (Nat.le_refl _) ((comes name among _ (by omega)).mpr (by omega))
    have far_le : away name ≤ far := Finset.le_sup (List.mem_toFinset.mpr among)
    have earlier : ∀ other ∈ before, away other ≤ reconciler.rounds := by
      intro other mem
      have comes : ∀ name ∈ before, ∀ q, 1 ≤ q → (name ∈ L q ↔ away name < q) :=
        fun name mem => comes name (by simp [split, mem])
      have ends := scan.last_eq (Nat.le_refl 1) comes
      have least : away other ≤ before.toFinset.sup away :=
        Finset.le_sup (List.mem_toFinset.mpr mem)
      omega
    refine ⟨fun early => absurd far_le (by omega), fun _ => ⟨name, ?_, by rw [raised]⟩, ?_, ?_⟩
    · refine List.find?_eq_some_iff_append.mpr ⟨by simpa using late, before, others, split, ?_⟩
      intro other mem
      simpa using earlier other mem
    · omega
    · omega

theorem verifyTopics_against
    (goes : Goes (reconciler.fresh reconciler.verifyTopics) .verifyingTopics trace result stop)
    (against : Against there trace last) (sound : there.broker.Sound)
    (known : ∀ name ∈ reconciler.topicNames, there.broker.standing name ≠ .unknown) :
    let far := there.broker.farthest reconciler.topicNames
    let waits := min far reconciler.rounds
    (far ≤ reconciler.rounds → result = .ok ()) ∧
    (reconciler.rounds < far → ∃ name, reconciler.topicNames.find?
        (fun name => reconciler.rounds < there.broker.away name) = some name ∧
      result = .error (.of (.topicNotReady name reconciler.wait.maxAttempts))) ∧
    Takes 0 (waits + 1) 0 (reconciler.wait.intervals waits) trace ∧
    last.broker = there.broker.after (List.replicate (waits + 1) .list) ∧
    last.registry = there.registry := by
  intro far waits
  have fine := against.fine
  have concerns := verifyTopics_concerns goes
  have uncreated : ∀ e ∈ trace, e.request.isCreation = false :=
    fun e mem => (concerns e mem).kind_eq Request.isCreation_port rfl
  have unprobed : ∀ e ∈ trace, e.request.isProbe = false :=
    fun e mem => (concerns e mem).kind_eq Request.isProbe_port rfl
  have comes : ∀ name ∈ reconciler.topicNames, ∀ q, 1 ≤ q →
      (name ∈ there.broker.shown q ↔ there.broker.away name < q) := by
    intro name among q positive
    rw [InMemoryBroker.shown, InMemoryBroker.mem_listing_iff _ sound (known name among)]
    omega
  obtain ⟨after, polls⟩ := goes_fresh_iff.mp goes
  obtain ⟨early, late, fetched, rested⟩ :=
    verifyTopics_shown grows polls fine (against.follows uncreated) comes
  have stage : (.verifyingTopics, reconciler.fresh reconciler.verifyTopics) ∈
      reconciler.topicStages ++ reconciler.lastStages := .tail _ (.head _)
  have slept := slept_of_paces (verifyTopics_paces grows goes) fine (stage_unchanged stage goes)
  have listed : (callsOf Request.isListing trace).length = waits + 1 :=
    (callsOf_isListing_of_fine fine).trans fetched
  refine ⟨early, late, ⟨?_, listed, ?_, ?_⟩, ?_, against.registry_eq unprobed⟩
  · exact callsOf_of_concerns Request.isCreation_port rfl concerns
  · exact callsOf_of_concerns Request.isProbe_port rfl concerns
  · rw [slept, rested]
    rfl
  · rw [against.broker_eq, Against.operations_eq uncreated, listed]

/-- The registry is healthy once it has failed the probes that it fails, or the budget is spent on
them. -/
theorem verifyRegistry_shown {sick : Nat} {after : PollState}
    (polls : Polls reconciler.verifyRegistry (.start reconciler.wait) start trace result after stop)
    (fine : ∀ e ∈ trace, e.failure? = none)
    (mends : ∀ k found, (healths trace)[k]? = some found → found = decide (sick ≤ k)) :
    (sick ≤ reconciler.rounds → result = .ok ()) ∧
    (reconciler.rounds < sick →
      result = .error (.of (.registryNotReady reconciler.wait.maxAttempts))) ∧
    (healths trace).length = min sick reconciler.rounds + 1 ∧
    sleeps trace = min sick reconciler.rounds := by
  have budget_eq : reconciler.budget (.start reconciler.wait) = reconciler.rounds := rfl
  cases result with
  | ok _ =>
    obtain ⟨rounds, within, found, rested, -⟩ := verifyRegistry_found polls
    have mended : sick ≤ rounds := by
      have last := mends rounds true (by simp [found])
      exact of_decide_eq_true last.symm
    have before : rounds ≤ sick := by
      by_contra early
      rw [Nat.not_le] at early
      have one := mends sick false (by simp [found, List.getElem?_append, early])
      exact of_decide_eq_false one.symm (Nat.le_refl _)
    have probed : (healths trace).length = rounds + 1 := by simp [found]
    rw [budget_eq] at within
    refine ⟨fun _ => rfl, fun late => ?_, ?_, ?_⟩ <;> omega
  | error failure =>
    have told : ∀ reason, (⟨.probe, .error reason⟩ : Exchange) ∉ trace :=
      fun reason mem => by cases fine _ mem
    obtain ⟨found, rested, raised⟩ :=
      verifyRegistry_missed polls (fun _ => grows) (smooth_of_fine fine) told
    rw [budget_eq] at found rested
    rw [max_start_attempt] at raised
    have late : ¬ sick ≤ reconciler.rounds := by
      have last := mends reconciler.rounds false (by simp [found])
      exact of_decide_eq_false last.symm
    have probed : (healths trace).length = reconciler.rounds + 1 := by simp [found]
    refine ⟨fun early => absurd early late, fun _ => by rw [raised], ?_, ?_⟩ <;> omega

theorem verifyRegistry_against
    (goes : Goes (reconciler.fresh reconciler.verifyRegistry) .verifyingRegistry trace result stop)
    (against : Against there trace last) (healthy : there.registry.healthy = true) :
    let sick := there.registry.away
    let waits := min sick reconciler.rounds
    (sick ≤ reconciler.rounds → result = .ok ()) ∧
    (reconciler.rounds < sick →
      result = .error (.of (.registryNotReady reconciler.wait.maxAttempts))) ∧
    Takes 0 0 (waits + 1) (reconciler.wait.intervals waits) trace ∧
    last.broker = there.broker := by
  intro sick waits
  have fine := against.fine
  have concerns := verifyRegistry_concerns goes
  have uncreated : ∀ e ∈ trace, e.request.isCreation = false :=
    fun e mem => (concerns e mem).kind_eq Request.isCreation_port rfl
  obtain ⟨after, polls⟩ := goes_fresh_iff.mp goes
  obtain ⟨early, late, told, rested⟩ :=
    verifyRegistry_shown grows polls fine fun k found => against.probed healthy
  have stage : (.verifyingRegistry, reconciler.fresh reconciler.verifyRegistry) ∈
      reconciler.topicStages ++ reconciler.lastStages := .tail _ (.tail _ (.head _))
  have slept := slept_of_paces (verifyRegistry_paces grows goes) fine (stage_unchanged stage goes)
  have listed := callsOf_of_concerns Request.isListing_port rfl concerns
  refine ⟨early, late, ⟨?_, listed, ?_, ?_⟩, ?_⟩
  · exact callsOf_of_concerns Request.isCreation_port rfl concerns
  · exact (callsOf_isProbe_of_fine fine).trans told
  · rw [slept, rested]
  · rw [against.broker_eq, Against.operations_eq uncreated, listed]
    rfl

end Bodies

section Run

variable {next : Phase} {body : Work Unit} {others : List (Phase × Work Unit)}

/-- Against collaborators every stage that is come to is entered. -/
theorem Stage.against (stage : Stage next body start trace result stop)
    (against : Against there trace last) : ∃ work, trace = entering start next ++ work ∧
      Goes body next work result stop ∧ Against there work last := by
  cases stage with
  | refused => exact absurd (.head _) against.uninterrupted
  | untold => cases against.fine _ (.tail _ (.tail _ (.head _)))
  | @worked work _ _ goes =>
    obtain ⟨middle, entered, onward⟩ := Against.append_iff.mp against
    have unmoved : middle = there := entered.eq_of_quiet (by
      simp [changing, logged, Request.IsPortCall])
    exact ⟨work, rfl, goes, unmoved ▸ onward⟩

/-- The first of some stages is all there is of the run, or succeeds and is followed by the
others. -/
theorem Stages.against (run : Stages ((next, body) :: others) start trace result stop)
    (against : Against there trace last) :
    (∃ work, trace = entering start next ++ work ∧ Goes body next work result stop ∧
      Against there work last ∧ result ≠ .ok ()) ∨
    ∃ work middle between rest, trace = entering start next ++ work ++ rest ∧
      Goes body next work (.ok ()) middle ∧ Against there work between ∧
      Stages others middle rest result stop ∧ Against between rest last := by
  cases run with
  | broken stage =>
    obtain ⟨work, split, goes, within⟩ := stage.against against
    exact .inl ⟨work, split, goes, within, fun h => by cases h⟩
  | more stage stages =>
    obtain ⟨between, first, onward⟩ := Against.append_iff.mp against
    obtain ⟨work, rfl, goes, within⟩ := stage.against first
    exact .inr ⟨work, _, between, _, rfl, goes, within, stages, onward⟩

/-- What a run against collaborators comes to, and what it takes. -/
inductive Concludes (reconciler : Reconciler) (there : Collaborators) (trace : List Exchange) :
    Result Unit → Prop where
  | ready (visible : there.broker.farthest reconciler.topicNames ≤ reconciler.rounds)
      (healthy : there.registry.away ≤ reconciler.rounds)
      (takes : Takes 1 (there.broker.farthest reconciler.topicNames + 1) (there.registry.away + 1)
        (reconciler.wait.intervals (there.broker.farthest reconciler.topicNames) ++
          reconciler.wait.intervals there.registry.away) trace) :
      Concludes reconciler there trace (.ok ())
  | unlisted {name : String}
      (late : reconciler.rounds < there.broker.farthest reconciler.topicNames)
      (first : reconciler.topicNames.find?
        (fun name => reconciler.rounds < there.broker.away name) = some name)
      (takes : Takes 1 (reconciler.rounds + 1) 0 (reconciler.wait.intervals reconciler.rounds)
        trace) :
      Concludes reconciler there trace
        (.error (.of (.topicNotReady name reconciler.wait.maxAttempts)))
  | unhealthy (visible : there.broker.farthest reconciler.topicNames ≤ reconciler.rounds)
      (late : reconciler.rounds < there.registry.away)
      (takes : Takes 1 (there.broker.farthest reconciler.topicNames + 1) (reconciler.rounds + 1)
        (reconciler.wait.intervals (there.broker.farthest reconciler.topicNames) ++
          reconciler.wait.intervals reconciler.rounds) trace) :
      Concludes reconciler there trace
        (.error (.of (.registryNotReady reconciler.wait.maxAttempts)))

variable (grows : Grows reconciler.wait (.start reconciler.wait))
  (healthy : there.registry.healthy = true)
include grows healthy

theorem lastStages_against (run : Stages reconciler.lastStages start trace result stop)
    (against : Against there trace last) :
    last.broker = there.broker ∧
    ((there.registry.away ≤ reconciler.rounds ∧ result = .ok () ∧ stop = .ready ∧
      Takes 0 0 (there.registry.away + 1) (reconciler.wait.intervals there.registry.away) trace) ∨
    reconciler.rounds < there.registry.away ∧
      result = .error (.of (.registryNotReady reconciler.wait.maxAttempts)) ∧
      Takes 0 0 (reconciler.rounds + 1) (reconciler.wait.intervals reconciler.rounds) trace) := by
  rcases Stages.against run against with
    ⟨work, rfl, goes, within, failed⟩ | ⟨work, _, between, rest, rfl, goes, within, others, onward⟩
  · obtain ⟨early, late, takes, unmoved⟩ := verifyRegistry_against grows goes within healthy
    have short : reconciler.rounds < there.registry.away :=
      Nat.lt_of_not_le fun enough => failed (early enough)
    rw [Nat.min_eq_right (Nat.le_of_lt short)] at takes
    exact ⟨unmoved, .inr ⟨short, late short, takes.after (takes_entering _ _)⟩⟩
  · obtain ⟨early, late, takes, unmoved⟩ := verifyRegistry_against grows goes within healthy
    have enough : there.registry.away ≤ reconciler.rounds := by
      by_contra short
      cases late (Nat.lt_of_not_le short)
    rw [Nat.min_eq_left enough] at takes
    rcases Stages.against others onward with
      ⟨nothing, rfl, done, -, failed⟩ | ⟨nothing, _, _, _, rfl, done, still, ended, onward⟩
    · exact absurd (goes_pure_iff.mp done).2.1 failed
    · obtain ⟨rfl, -, rfl⟩ := goes_pure_iff.mp done
      cases ended
      cases still
      cases onward
      refine ⟨unmoved, .inl ⟨enough, rfl, rfl, ?_⟩⟩
      exact (takes.after (takes_entering _ _)).before ⟨rfl, rfl, rfl, rfl⟩

/-- Topics that have to be created are asked for once, and then waited for. -/
theorem workPhases_against (declared : reconciler.topics ≠ []) (sound : there.broker.Sound)
    (goes : Goes reconciler.workPhases start trace result stop)
    (against : Against there trace last) :
    (result = .ok () → stop = .ready) ∧ Concludes reconciler there trace result ∧
    last.broker = (there.broker.createTopics reconciler.topics).1.after (List.replicate
      (min (there.broker.farthest reconciler.topicNames) reconciler.rounds + 1) .list) := by
  rcases goes_workPhases goes with ⟨empty, -⟩ | ⟨-, stages⟩
  · exact absurd empty declared
  rcases Stages.against stages against with
    ⟨work, rfl, creates, within, failed⟩ |
    ⟨work, middle, between, rest, rfl, creates, within, others, onward⟩
  · exact absurd (createTopics_against creates within).1 failed
  obtain ⟨-, asked, created, same⟩ := createTopics_against creates within
  -- The creation makes every name known and moves none, so the broker from before decides below.
  have known : ∀ name ∈ reconciler.topicNames, between.broker.standing name ≠ .unknown := by
    intro name mem
    rw [created]
    exact InMemoryBroker.known_createTopics there.broker (List.mem_map.mp mem)
  have away_eq : between.broker.away = there.broker.away := by
    rw [created]
    exact funext (InMemoryBroker.away_createTopics there.broker reconciler.topics)
  have far_eq : between.broker.farthest reconciler.topicNames =
      there.broker.farthest reconciler.topicNames := by
    rw [created, InMemoryBroker.farthest_createTopics]
  have sound : between.broker.Sound := created ▸ sound.createTopics reconciler.topics
  have opened := asked.after (takes_entering start .creatingTopics)
  rcases Stages.against others onward with
    ⟨listed, rfl, goes, within, failed⟩ |
    ⟨listed, _, shown, probed, rfl, goes, within, others, onward⟩
  · obtain ⟨early, late, takes, moved, -⟩ := verifyTopics_against grows goes within sound known
    rw [far_eq, away_eq] at late
    rw [far_eq] at early takes moved
    have short : reconciler.rounds < there.broker.farthest reconciler.topicNames :=
      Nat.lt_of_not_le fun enough => failed (early enough)
    obtain ⟨name, first, rfl⟩ := late short
    rw [Nat.min_eq_right (Nat.le_of_lt short)] at takes
    have taken := opened.append (takes.after (takes_entering middle .verifyingTopics))
    rw [Nat.zero_add, List.nil_append] at taken
    exact ⟨nofun, .unlisted short first taken, by rw [moved, created]⟩
  · obtain ⟨early, late, takes, moved, kept⟩ :=
      verifyTopics_against grows goes within sound known
    rw [far_eq] at early late takes moved
    have enough : there.broker.farthest reconciler.topicNames ≤ reconciler.rounds := by
      by_contra short
      obtain ⟨name, -, h⟩ := late (Nat.lt_of_not_le short)
      cases h
    rw [Nat.min_eq_left enough] at takes
    have healthy : shown.registry.healthy = true := by rw [kept, same, healthy]
    obtain ⟨unmoved, ended⟩ := lastStages_against grows healthy others onward
    rw [kept, same] at ended
    have taken := opened.append (takes.after (takes_entering middle .verifyingTopics))
    refine ⟨?_, ?_, by rw [unmoved, moved, created]⟩
    · rcases ended with ⟨-, -, rfl, -⟩ | ⟨-, rfl, -⟩
      · exact fun _ => rfl
      · exact nofun
    · rcases ended with ⟨soon, rfl, -, more⟩ | ⟨late, rfl, more⟩
      · exact .ready enough soon (by simpa using taken.append more)
      · exact .unhealthy enough late (by simpa using taken.append more)

omit grows healthy

/-- Failing calls nobody, and is told. -/
theorem fail_against {failure : Failure} (goes : Goes (fail failure) start trace result stop)
    (against : Against there trace last) :
    result = .ok () ∧ stop = .failed ∧ Takes 0 0 0 [] trace ∧ last = there := by
  obtain ⟨rfl, message, ⟨cut, rfl, -⟩ | rfl⟩ := goes_fail goes
  · cases against.fine _ (.tail _ (.tail _ (.head _)))
  · have told := against.fine _ (.tail _ (.tail _ (.tail _ (.head _))))
    cases result with
    | error failure => cases told
    | ok _ =>
      exact ⟨rfl, rfl, ⟨rfl, rfl, rfl, rfl⟩, against.eq_of_quiet (by
        simp [changing, logged, Request.IsPortCall])⟩

/-- What takes nothing, before and after, changes no conclusion. -/
theorem Concludes.within (concludes : Concludes reconciler there trace result)
    (before : Takes 0 0 0 [] first) (after : Takes 0 0 0 [] rest) :
    Concludes reconciler there (first ++ trace ++ rest) result := by
  cases concludes with
  | ready visible healthy takes => exact .ready visible healthy ((takes.after before).before after)
  | unlisted late named takes => exact .unlisted late named ((takes.after before).before after)
  | unhealthy visible late takes => exact .unhealthy visible late ((takes.after before).before after)

/-- No user interrupt is among the failures. -/
theorem Concludes.raisedAs_eq {failure : Failure}
    (concludes : Concludes reconciler there trace (.error failure)) (phase : Phase) :
    raisedAs phase failure = failure := by
  cases concludes <;> rfl

include grows healthy

/-- A run ends as its work does, which it makes known. -/
theorem ensureReady_against (declared : reconciler.topics ≠ []) (sound : there.broker.Sound)
    (goes : Goes reconciler.ensureReady .idle trace result stop)
    (against : Against there trace last) :
    (result = .ok () → stop = .ready) ∧ (result ≠ .ok () → stop = .failed) ∧
    Concludes reconciler there trace result ∧
    last.broker = (there.broker.createTopics reconciler.topics).1.after (List.replicate
      (min (there.broker.farthest reconciler.topicNames) reconciler.rounds + 1) .list) := by
  have timed : ∀ time : Float, Takes 0 0 0 [] [⟨.clock, time⟩] := fun _ => ⟨rfl, rfl, rfl, rfl⟩
  cases goes_ensureReady goes with
  | @failed started work closing failure phase _ told worked fails =>
    obtain ⟨middle, opened, closed⟩ := Against.append_iff.mp against
    cases opened with
    | more _ within =>
      obtain ⟨-, concludes, moved⟩ :=
        workPhases_against grows healthy declared sound worked within
      obtain ⟨rfl, rfl, quiet, rfl⟩ := fail_against fails closed
      rw [concludes.raisedAs_eq phase]
      exact ⟨nofun, fun _ => rfl, concludes.within (timed started) quiet, moved⟩
  | @ready started ended work message _ told worked =>
    obtain ⟨middle, opened, closed⟩ := Against.append_iff.mp against
    cases opened with
    | more _ within =>
      obtain ⟨ready, concludes, moved⟩ :=
        workPhases_against grows healthy declared sound worked within
      have unmoved : last = middle := closed.eq_of_quiet (by simp [logged, Request.IsPortCall])
      have news := closed.fine _ (.tail _ (.tail _ (.head _)))
      cases result with
      | error failure => cases news
      | ok _ =>
        refine ⟨ready, fun h => absurd rfl h, ?_, unmoved ▸ moved⟩
        exact concludes.within (timed started) ⟨rfl, rfl, rfl, rfl⟩

end Run

section ClosedForm

/-- The listings that it takes to see all of these names on a broker that begins with others. -/
def listingsFor (existing names : List String) (delay : Int) : Nat :=
  if (∀ name ∈ names, name ∈ existing) ∨ delay ≤ 0 then 1 else delay.toNat + 1

/-- The probes that it takes to find a registry healthy that has not been probed before. -/
def probesFor (healthyAfter : Int) : Nat := (max healthyAfter 0).toNat + 1

variable {existing : List String} {delay healthyAfter : Int} {broker : InMemoryBroker}

theorem farthest_eq_listingsFor (begins : broker.Begins existing delay) (names : List String) :
    listingsFor existing names delay = broker.farthest names + 1 := by
  rw [begins.farthest_eq, listingsFor]
  by_cases given : ∀ name ∈ names, name ∈ existing
  · rw [if_pos (.inl given), if_pos given]
  · rw [if_neg given]
    by_cases prompt : delay ≤ 0
    · rw [if_pos (.inr prompt)]
      omega
    · rw [if_neg (not_or.mpr ⟨given, prompt⟩)]

theorem away_eq_probesFor :
    probesFor healthyAfter = (InMemoryRegistry.start true healthyAfter).away + 1 := by
  simp only [probesFor, InMemoryRegistry.away, InMemoryRegistry.start]
  omega

/-- A run against a broker that begins with some topics and delays the others, and a registry that
fails some probes, is ready exactly if the listings and the probes that it takes are within the
attempts allowed, with one rest between two of them. Otherwise it fails when the attempts are spent:
over the first topic that was not there from the start, or over the registry. -/
theorem ensureReady_closed_form (begun : InMemoryBroker.start existing delay = .ok broker)
    (declared : reconciler.topics ≠ []) (grows : Grows reconciler.wait (.start reconciler.wait)) :
    let attempts := reconciler.wait.maxAttempts
    let names := reconciler.topicNames
    let listings := listingsFor existing names delay
    let probes := probesFor healthyAfter
    let waits := reconciler.wait.intervals
    let there : Collaborators := ⟨broker, .start true healthyAfter⟩
    (∃ trace result stop last,
      Goes reconciler.ensureReady .idle trace result stop ∧ Against there trace last) ∧
    ∀ trace result stop last, Goes reconciler.ensureReady .idle trace result stop →
      Against there trace last →
      (result = .ok () ∧ stop = .ready ↔ listings ≤ attempts ∧ probes ≤ attempts) ∧
      (result = .ok () →
        Takes 1 listings probes (waits (listings - 1) ++ waits (probes - 1)) trace) ∧
      (attempts < listings →
        (∃ name, names.find? (fun name => name ∉ existing) = some name ∧
          result = .error (.of (.topicNotReady name attempts))) ∧ stop = .failed ∧
        Takes 1 attempts.toNat 0 (waits (attempts.toNat - 1)) trace) ∧
      (listings ≤ attempts → attempts < probes →
        result = .error (.of (.registryNotReady attempts)) ∧ stop = .failed ∧
        Takes 1 listings attempts.toNat (waits (listings - 1) ++ waits (attempts.toNat - 1))
          trace) := by
  intro attempts names listings probes waits there
  have begins := InMemoryBroker.begins_of_start begun
  have far : listings = there.broker.farthest names + 1 := farthest_eq_listingsFor begins names
  have sick : probes = there.registry.away + 1 := away_eq_probesFor
  have budget : attempts = reconciler.rounds + 1 := attempts_eq_rounds reconciler
  constructor
  · obtain ⟨trace, value, last, run, against⟩ :=
      Against.exists_runs (reconciler.ensureReady.run.run .idle) there
    exact ⟨trace, value.1, value.2, last, run, against⟩
  · intro trace result stop last goes against
    obtain ⟨ready, failed, concludes, -⟩ :=
      ensureReady_against grows rfl declared begins.sound goes against
    have whole : attempts.toNat = reconciler.rounds + 1 := by omega
    rw [whole, far, sick, budget]
    cases concludes with
    | ready visible healthy takes =>
      have visible : there.broker.farthest names ≤ reconciler.rounds := visible
      refine ⟨⟨fun _ => ⟨?_, ?_⟩, fun _ => ⟨rfl, ready rfl⟩⟩, fun _ => takes, ?_, ?_⟩
      all_goals omega
    | @unlisted name late first takes =>
      have late : reconciler.rounds < there.broker.farthest names := late
      have delayed : reconciler.rounds < delay.toNat := by
        rw [begins.farthest_eq] at late
        split at late
        · exact absurd late (Nat.not_lt_zero _)
        · exact late
      have missing : (fun name => decide (reconciler.rounds < there.broker.away name)) =
          fun name => decide (name ∉ existing) := by
        funext other
        rw [begins.away_eq]
        by_cases given : other ∈ existing
        · simp [given]
        · simp [given, delayed]
      rw [missing] at first
      refine ⟨⟨nofun, fun fits => ?_⟩, nofun, fun _ => ?_, ?_⟩
      · omega
      · exact ⟨⟨name, first, by rw [← budget]⟩, failed nofun, takes⟩
      · omega
    | unhealthy visible late takes =>
      have visible : there.broker.farthest names ≤ reconciler.rounds := visible
      have late : reconciler.rounds < there.registry.away := late
      refine ⟨⟨nofun, fun fits => ?_⟩, nofun, ?_, fun _ _ => ?_⟩
      · omega
      · omega
      · exact ⟨by rw [← budget], failed nofun, takes⟩

theorem ordersOnly_grows : Grows ordersOnly.wait (.start ordersOnly.wait) := by
  intro reason overflows
  have scaled : ((PollState.start ordersOnly.wait).interval.scale
    ordersOnly.wait.multiplier).toBool = true := by decide +kernel
  rw [overflows] at scaled
  cases scaled

/-- Three attempts are just enough for a topic that stays out of two listings. -/
theorem ensureReady_closed_form_delayed :
    let broker : InMemoryBroker := ⟨[], [], 2, 0, 0⟩
    InMemoryBroker.start [] 2 = .ok broker ∧ ordersOnly.topics ≠ [] ∧
    Grows ordersOnly.wait (.start ordersOnly.wait) ∧
    ∃ trace result stop last, Goes ordersOnly.ensureReady .idle trace result stop ∧
      Against ⟨broker, .start true 1⟩ trace last ∧ result = .ok () ∧ stop = .ready ∧
      Takes 1 3 2 (ordersOnly.wait.intervals 2 ++ ordersOnly.wait.intervals 1) trace := by
  intro broker
  have begun : InMemoryBroker.start [] 2 = .ok broker := rfl
  have declared : ordersOnly.topics ≠ [] := by decide
  obtain ⟨⟨trace, result, stop, last, goes, against⟩, told⟩ :=
    @ensureReady_closed_form _ _ _ 1 _ begun declared ordersOnly_grows
  obtain ⟨decides, takes, -⟩ := told trace result stop last goes against
  obtain ⟨rfl, rfl⟩ := decides.mpr (by decide)
  exact ⟨begun, declared, ordersOnly_grows, trace, _, _, last, goes, against, rfl, rfl, takes rfl⟩

end ClosedForm

end Reconciler

end ClusterReadiness
