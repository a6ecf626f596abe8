import ClusterReadiness.Proofs.Reconciler.Bounds
import ClusterReadiness.Proofs.Reconciler.EventLog

/-!
# Calls that fail in a row

How a request or a verification ends is read off its port calls: a request is given up when as many
of them as its policy allows have failed in a row, a verification when its listings or probes have
used up the budget.
-/

namespace ClusterReadiness

/-- What is left for the surroundings to do: calls of the broker may fail in a way that is retried,
a sleep only as an interrupted wait, and a probe always tells. -/
def Exchange.Foreseen : Exchange → Prop
  | ⟨.createTopics _, .error failure⟩ | ⟨.listTopics, .error failure⟩ => failure.isRetryable = true
  | ⟨.probe, .error _⟩ => False
  | ⟨.sleep _, .error failure⟩ => failure.fault.isInterruptedWait = true
  | _ => True

theorem Reconciler.Told.left {first rest : List Exchange} (told : Told (first ++ rest)) :
    Told first :=
  fun phase happening answer mem => told phase happening answer (List.mem_append_left rest mem)

theorem Reconciler.Told.right {first rest : List Exchange} (told : Told (first ++ rest)) :
    Told rest :=
  fun phase happening answer mem => told phase happening answer (List.mem_append_right first mem)

theorem Exchange.Foreseen.retryable {e : Exchange} {failure : Failure} (foreseen : e.Foreseen)
    (port : e.request.IsPortCall) (failed : e.failure? = some failure) :
    failure.isRetryable = true := by
  obtain ⟨request, answer⟩ := e
  cases request with
  | createTopics | listTopics =>
    cases answer with
    | ok => cases failed
    | error other =>
      cases failed
      exact foreseen
  | probe =>
    cases answer with
    | ok => cases failed
    | error other => exact foreseen.elim
  | _ => exact port.elim

section Rows

variable {calls earlier failed later rest first : List Exchange} {e : Exchange} {last : Failure}
  {number : Int}

/-- The last of some calls did not fail, if there is one. -/
def Settled (calls : List Exchange) : Prop := ∀ e, calls.getLast? = some e → e.failure? = none

/-- So many calls all of which failed, the last one with this failure. -/
structure Exhausts (number : Int) (calls : List Exchange) (last : Failure) : Prop where
  number : (calls.length : Int) = number
  failed : ∀ e ∈ calls, e.failure? ≠ none
  last : ∃ e, calls.getLast? = some e ∧ e.failure? = some last

/-- Somewhere among the calls so many failed in a row, the last one with this failure. -/
def StreakOf (number : Int) (calls : List Exchange) (last : Failure) : Prop :=
  ∃ earlier failed later, calls = earlier ++ failed ++ later ∧ Exhausts number failed last

/-- The calls end well, and have no part in so many that fail in a row. -/
structure Mended (number : Int) (calls : List Exchange) : Prop where
  settled : Settled calls
  passes : ∀ rest last, StreakOf number (calls ++ rest) last → StreakOf number rest last

theorem settled_nil : Settled [] := fun _ h => by cases h

theorem settled_append_singleton (fine : e.failure? = none) : Settled (calls ++ [e]) := by
  intro other h
  rw [List.getLast?_append_cons, List.getLast?_singleton] at h
  cases h
  exact fine

theorem settled_singleton (fine : e.failure? = none) : Settled [e] :=
  List.nil_append [e] ▸ settled_append_singleton fine

theorem Settled.append (before : Settled first) (onward : Settled rest) :
    Settled (first ++ rest) := by
  intro e h
  rw [List.getLast?_append] at h
  cases last : rest.getLast? with
  | none =>
    rw [last] at h
    exact before e h
  | some other =>
    rw [last] at h
    cases h
    exact onward e last

theorem mended_nil : Mended number [] := ⟨settled_nil, fun _ _ streak => streak⟩

theorem Mended.append (before : Mended number first) (onward : Mended number rest) :
    Mended number (first ++ rest) := by
  refine ⟨before.settled.append onward.settled, fun more last streak => ?_⟩
  rw [List.append_assoc] at streak
  exact onward.passes more last (before.passes _ last streak)

theorem Exhausts.cons (exhausts : Exhausts number calls last) (failed : e.failure? ≠ none) :
    Exhausts (number + 1) (e :: calls) last := by
  obtain ⟨long, all, final, there, raised⟩ := exhausts
  refine ⟨?_, List.forall_mem_cons.mpr ⟨failed, all⟩, final, ?_, raised⟩
  · rw [List.length_cons, ← long]
    rfl
  · rw [List.getLast?_cons, there]
    rfl

theorem Exhausts.unique {other : Failure} (exhausts : Exhausts number calls last)
    (again : Exhausts number calls other) : last = other := by
  obtain ⟨e, here, failed⟩ := exhausts.last
  obtain ⟨e', there, failed'⟩ := again.last
  rw [here] at there
  cases there
  rw [failed] at failed'
  cases failed'
  rfl

/-- So few calls leave no room for a streak. -/
theorem not_streakOf (fewer : (calls.length : Int) < number) : ¬ StreakOf number calls last := by
  rintro ⟨earlier, failed, later, rfl, exhausts⟩
  have long := exhausts.number
  rw [List.length_append, List.length_append] at fewer
  omega

/-- A streak that is as long as all the calls is all of them. -/
theorem Exhausts.streakOf_eq {other : Failure} (exhausts : Exhausts number calls last)
    (streak : StreakOf number calls other) : other = last := by
  obtain ⟨earlier, failed, later, split, again⟩ := streak
  have long := exhausts.number
  have same := again.number
  rw [split, List.length_append, List.length_append] at long
  have noneBefore : earlier = [] := List.eq_nil_of_length_eq_zero (by omega)
  have noneAfter : later = [] := List.eq_nil_of_length_eq_zero (by omega)
  rw [noneBefore, noneAfter, List.nil_append, List.append_nil] at split
  subst split
  exact again.unique exhausts

/-- A call that does not fail after too few others for a streak: every streak lies behind it. -/
theorem mended_of_returned (fewer : (calls.length : Int) < number) (fine : e.failure? = none) :
    Mended number (calls ++ [e]) := by
  refine ⟨settled_append_singleton fine, ?_⟩
  rintro rest last ⟨earlier, failed, later, split, exhausts⟩
  rw [List.append_assoc earlier] at split
  rcases List.append_eq_append_iff.mp split with ⟨more, -, onward⟩ | ⟨middle, before, onward⟩
  · exact ⟨more, failed, later, by rw [onward, List.append_assoc], exhausts⟩
  · -- the streak would begin at the call or before it, and be long enough to hold it
    have long := exhausts.number
    rcases List.eq_nil_or_concat middle with rfl | ⟨middle, other, rfl⟩
    · exact ⟨[], failed, later, by simpa using onward.symm, exhausts⟩
    · rw [List.concat_eq_append, ← List.append_assoc] at before
      obtain ⟨rfl, h⟩ := List.append_inj' before rfl
      cases h
      rw [List.concat_eq_append, List.append_assoc] at onward
      rw [List.length_append] at fewer
      have within : middle.length < failed.length := by omega
      have found : failed[middle.length]? = some e := by
        rw [← List.getElem?_append_left within, onward, List.getElem?_append_right (Nat.le_refl _)]
        simp
      exact absurd fine (exhausts.failed e (List.mem_of_getElem? found))

/-- Calls that end well hold no streak themselves. -/
theorem Mended.no_streak (mended : Mended number calls) (positive : 0 < number) :
    ¬ StreakOf number calls last := by
  intro streak
  have none : StreakOf number [] last := by
    refine mended.passes [] last ?_
    rwa [List.append_nil]
  exact not_streakOf positive none

end Rows

namespace Reconciler

variable {α : Type} {reconciler : Reconciler} {start stop phase : Phase}
  {trace first rest : List Exchange} {poll after : PollState} {failure : Failure}

section Delays

/-- A delay could not be computed: the one after the calls that failed last, before the policy's
attempts were used up, or the one after a wait. -/
inductive DelayRaised (reconciler : Reconciler) (trace : List Exchange) : Prop where
  | retry {earlier failed : List Exchange} {reason : Overflow}
      (calls : portCalls trace = earlier ++ failed) (settled : Settled earlier)
      (some : failed ≠ []) (failing : ∀ e ∈ failed, e.failure? ≠ none)
      (fewer : (failed.length : Int) < reconciler.retry.maxAttempts)
      (raised : reconciler.retry.delayAfter failed.length = .error reason) :
      DelayRaised reconciler trace
  | wait {before later : List Exchange} {delay : Number} {reason : Overflow}
      (split : trace = before ++ ⟨.sleep delay, .ok ()⟩ :: later)
      (settled : Settled (portCalls before))
      (raised : delay.scale reconciler.wait.multiplier = .error reason) :
      DelayRaised reconciler trace

/-- Policies whose delays are all in range, as far as the attempts go. -/
theorem not_delayRaised
    (retries : ∀ number : Nat, 0 < number → (number : Int) < reconciler.retry.maxAttempts →
      ∀ reason, reconciler.retry.delayAfter number ≠ .error reason)
    (waits : ∀ delay : Number, (⟨.sleep delay, .ok ()⟩ : Exchange) ∈ trace →
      ∀ reason, delay.scale reconciler.wait.multiplier ≠ .error reason) :
    ¬ DelayRaised reconciler trace := by
  intro delayed
  cases delayed with
  | retry _ _ some _ fewer raised =>
    exact retries _ (List.length_pos_of_ne_nil some) fewer _ raised
  | wait split _ raised =>
    refine waits _ ?_ _ raised
    rw [split]
    exact List.mem_append_right _ (.head _)

theorem DelayRaised.append_left (raised : DelayRaised reconciler rest)
    (settled : Settled (portCalls first)) : DelayRaised reconciler (first ++ rest) := by
  cases raised with
  | retry calls before some failing fewer raised =>
    refine .retry ?_ (settled.append before) some failing fewer raised
    rw [portCalls_append, calls, List.append_assoc]
  | @wait before later delay _ split calm raised =>
    have whole : first ++ rest = (first ++ before) ++ ⟨.sleep delay, .ok ()⟩ :: later := by
      rw [split, List.append_assoc]
    refine .wait whole ?_ raised
    rw [portCalls_append]
    exact settled.append calm

theorem DelayRaised.append_right (raised : DelayRaised reconciler first)
    (quiet : portCalls rest = []) : DelayRaised reconciler (first ++ rest) := by
  cases raised with
  | retry calls settled some failing fewer raised =>
    refine .retry ?_ settled some failing fewer raised
    rw [portCalls_append, calls, quiet, List.append_nil]
  | @wait before later delay _ split settled raised =>
    have whole : first ++ rest = before ++ ⟨.sleep delay, .ok ()⟩ :: (later ++ rest) := by
      rw [split, List.append_assoc, List.cons_append]
    exact .wait whole settled raised

/-- Work was cut short between its calls: a sleep was, or a delay could not be computed. -/
inductive Cut (reconciler : Reconciler) (trace : List Exchange) (failure : Failure) : Prop where
  | slept {delay : Number} (mem : (⟨.sleep delay, .error failure⟩ : Exchange) ∈ trace) :
      Cut reconciler trace failure
  | undelayed (raised : DelayRaised reconciler trace) : Cut reconciler trace failure

theorem Cut.append_left (cut : Cut reconciler rest failure) (settled : Settled (portCalls first)) :
    Cut reconciler (first ++ rest) failure := by
  cases cut with
  | slept mem => exact .slept (List.mem_append_right _ mem)
  | undelayed raised => exact .undelayed (raised.append_left settled)

theorem Cut.append_right (cut : Cut reconciler first failure) (quiet : portCalls rest = []) :
    Cut reconciler (first ++ rest) failure := by
  cases cut with
  | slept mem => exact .slept (List.mem_append_left _ mem)
  | undelayed raised => exact .undelayed (raised.append_right quiet)

end Delays

section Requests

/-- How a retried call may end that has failed some times before. -/
inductive Tried (policy : RetryPolicy) (past : Nat) (trace : List Exchange) : Result α → Prop where
  | returned {failed : List Exchange} {e : Exchange} {value : α}
      (calls : portCalls trace = failed ++ [e])
      (fewer : (past + failed.length : Int) < policy.maxAttempts) (fine : e.failure? = none) :
      Tried policy past trace (.ok value)
  | exhausted {last : Failure}
      (exhausts : Exhausts (policy.maxAttempts - past) (portCalls trace) last) :
      Tried policy past trace
        (.error (.because (.retryExhausted policy.maxAttempts last.fault) last))
  | cutShort {delay : Number} {cut : Failure}
      (mem : (⟨.sleep delay, .error cut⟩ : Exchange) ∈ trace)
      (fewer : (past + (portCalls trace).length : Int) < policy.maxAttempts) :
      Tried policy past trace (.error cut)
  | undelayed {reason : Overflow} (some : portCalls trace ≠ [])
      (failing : ∀ e ∈ portCalls trace, e.failure? ≠ none)
      (fewer : (past + (portCalls trace).length : Int) < policy.maxAttempts)
      (raised : policy.delayAfter (past + (portCalls trace).length) = .error reason) :
      Tried policy past trace (.error (.of (.overflow reason)))

/-- One more failed call, and the rest after it. -/
theorem Tried.again {policy : RetryPolicy} {past : Nat} {calm : List Exchange} {e : Exchange}
    {outcome : Result α} (tried : Tried policy (past + 1) rest outcome)
    (port : e.request.IsPortCall) (failed : e.failure? ≠ none) (quiet : portCalls calm = []) :
    Tried policy past ([e] ++ calm ++ rest) outcome := by
  have calls : portCalls ([e] ++ calm ++ rest) = e :: portCalls rest := by
    rw [portCalls_append, portCalls_append, quiet, portCalls_cons, if_pos port]
    rfl
  have long : (portCalls ([e] ++ calm ++ rest)).length = (portCalls rest).length + 1 := by
    rw [calls]
    rfl
  cases tried with
  | @returned others final _ split fewer fine =>
    have whole : portCalls ([e] ++ calm ++ rest) = (e :: others) ++ [final] := by
      rw [calls, split]
      rfl
    refine .returned whole ?_ fine
    rw [List.length_cons]
    push_cast at fewer ⊢
    omega
  | exhausted exhausts =>
    refine .exhausted ?_
    rw [calls]
    have one : policy.maxAttempts - past = policy.maxAttempts - ((past + 1 : Nat) : Int) + 1 := by
      omega
    rw [one]
    exact exhausts.cons failed
  | cutShort mem fewer =>
    refine .cutShort (List.mem_append_right _ mem) ?_
    rw [long]
    push_cast at fewer ⊢
    omega
  | undelayed some failing fewer raised =>
    have same : ((past + 1 : Nat) : Int) + (portCalls rest).length =
        past + (portCalls ([e] ++ calm ++ rest)).length := by
      rw [long]
      push_cast
      omega
    rw [same] at fewer raised
    refine .undelayed ?_ ?_ fewer raised
    · rw [calls]
      exact List.cons_ne_nil _ _
    · rw [calls]
      exact List.forall_mem_cons.mpr ⟨failed, failing⟩

theorem Attempts.tried {policy : RetryPolicy} {asks : Program (Result α)} {number : Int}
    {left past : Nat} {outcome : Result α}
    (attempts : Attempts policy asks number left trace outcome) (honest : Honest asks)
    (foreseen : ∀ e ∈ trace, e.Foreseen) (numbered : number = past + 1)
    (whole : (past + left + 1 : Int) = policy.maxAttempts) : Tried policy past trace outcome := by
  have one : ∀ {e : Exchange}, e.request.IsPortCall → portCalls [e] = [e] := by
    intro e port
    rw [portCalls_cons, if_pos port]
    rfl
  induction attempts generalizing past with
  | returned called =>
    obtain ⟨e, rfl, port, fine⟩ := honest _ _ called
    have calls : portCalls [e] = [] ++ [e] := one port
    refine .returned calls ?_ fine
    rw [List.length_nil]
    omega
  | refused called final =>
    obtain ⟨e, rfl, port, failed⟩ := honest _ _ called
    rw [(foreseen e (.head _)).retryable port failed] at final
    cases final
  | exhausted called =>
    obtain ⟨e, rfl, port, failed⟩ := honest _ _ called
    subst numbered
    have last : (past : Int) + 1 = policy.maxAttempts := by omega
    rw [last]
    refine .exhausted ?_
    rw [portCalls_append, one port]
    refine ⟨?_, ?_, e, rfl, failed⟩
    · show (1 : Int) = _
      omega
    · refine List.forall_mem_singleton.mpr ?_
      rw [failed]
      exact Option.some_ne_none _
  | undelayed called _ delay =>
    obtain ⟨e, rfl, port, failed⟩ := honest _ _ called
    subst numbered
    refine .undelayed ?_ ?_ ?_ ?_
    · rw [one port]
      exact List.cons_ne_nil _ _
    · rw [one port]
      refine List.forall_mem_singleton.mpr ?_
      rw [failed]
      exact Option.some_ne_none _
    · rw [one port, List.length_singleton]
      omega
    · rw [one port]
      exact delay
  | cutShort called =>
    obtain ⟨e, rfl, port, failed⟩ := honest _ _ called
    refine .cutShort (List.mem_append_right _ (.tail _ (.head _))) ?_
    rw [portCalls_append, one port]
    show (past : Int) + 1 < _
    omega
  | again called _ _ _ ih =>
    obtain ⟨e, rfl, port, failed⟩ := honest _ _ called
    have further : Tried policy (past + 1) _ _ :=
      ih (fun e mem => foreseen e (List.mem_append_right _ mem)) (by omega) (by omega)
    refine further.again port ?_ rfl
    rw [failed]
    exact Option.some_ne_none _

/-- What a request that is given up is raised as. -/
def givenUp (policy : RetryPolicy) (giveUp : Fault) (last : Failure) : Failure :=
  .because giveUp (.because (.retryExhausted policy.maxAttempts last.fault) last)

/-- How a request fails: all its calls did, or it was cut short before it made all of them. -/
inductive Abandons (reconciler : Reconciler) (giveUp : Fault) (trace : List Exchange) :
    Failure → Prop where
  | exhausted {last : Failure}
      (exhausts : Exhausts reconciler.retry.maxAttempts (portCalls trace) last) :
      Abandons reconciler giveUp trace (givenUp reconciler.retry giveUp last)
  | cut {failure : Failure} (cut : Cut reconciler trace failure)
      (fewer : ((portCalls trace).length : Int) < reconciler.retry.maxAttempts) :
      Abandons reconciler giveUp trace failure

variable {giveUp : Fault} {last : Failure}

theorem Abandons.append_left (abandons : Abandons reconciler giveUp rest failure)
    (quiet : portCalls first = []) : Abandons reconciler giveUp (first ++ rest) failure := by
  have calls : portCalls (first ++ rest) = portCalls rest := by
    rw [portCalls_append, quiet, List.nil_append]
  cases abandons with
  | exhausted exhausts =>
    rw [← calls] at exhausts
    exact .exhausted exhausts
  | cut cut fewer =>
    rw [← calls] at fewer
    refine .cut (cut.append_left ?_) fewer
    rw [quiet]
    exact settled_nil

/-- A request with so many calls that failed in a row was given up because of them. -/
theorem Abandons.of_streakOf (abandons : Abandons reconciler giveUp trace failure)
    (streak : StreakOf reconciler.retry.maxAttempts (portCalls trace) last) :
    failure = givenUp reconciler.retry giveUp last := by
  cases abandons with
  | exhausted exhausts => rw [exhausts.streakOf_eq streak]
  | cut _ fewer => exact absurd streak (not_streakOf fewer)

theorem Tried.mended {policy : RetryPolicy} {value : α}
    (tried : Tried policy 0 trace (.ok value)) : Mended policy.maxAttempts (portCalls trace) := by
  cases tried with
  | returned calls fewer fine =>
    rw [calls]
    refine mended_of_returned ?_ fine
    omega

theorem Tried.abandons {raised : Failure}
    (tried : Tried reconciler.retry 0 trace (.error failure : Result α))
    (foreseen : ∀ e ∈ trace, e.Foreseen)
    (surfaced : (.error raised : Result α) = surfacing giveUp (.error failure)) :
    Abandons reconciler giveUp trace raised := by
  cases tried with
  | exhausted exhausts =>
    cases surfaced
    refine .exhausted ?_
    simpa using exhausts
  | @cutShort delay _ mem fewer =>
    have interrupted : failure.fault.isInterruptedWait = true := foreseen _ mem
    have same : surfacing giveUp (.error failure : Result α) = .error failure := by
      unfold surfacing
      cases cause : failure.fault with
      | retryExhausted =>
        rw [cause] at interrupted
        cases interrupted
      | _ => simp only [cause]
    rw [same] at surfaced
    cases surfaced
    exact .cut (.slept mem) (by omega)
  | undelayed some failing fewer delayed =>
    have none : ((0 : Nat) : Int) + (portCalls trace).length = (portCalls trace).length := by omega
    rw [none] at fewer delayed
    have row : portCalls trace = [] ++ portCalls trace := rfl
    exact .cut (.undelayed (.retry row settled_nil some failing fewer delayed)) fewer

/-- All the attempts of a request, from the first on. -/
theorem Attempts.tried_all {asks : Program (Result α)} {outcome : Result α}
    (attempts : Attempts reconciler.retry asks 1 (spare reconciler.retry) trace outcome)
    (honest : Honest asks) (foreseen : ∀ e ∈ trace, e.Foreseen) :
    Tried reconciler.retry 0 trace outcome := by
  refine attempts.tried honest foreseen rfl ?_
  rw [attempts_eq_spare]
  omega

theorem createTopics_abandons
    (goes : Goes reconciler.createTopics start trace (.error failure) stop)
    (foreseen : ∀ e ∈ trace, e.Foreseen) (told : Told trace) :
    Abandons reconciler reconciler.creationGivenUp trace failure := by
  obtain ⟨-, message, attempts, ⟨raised, tried, rfl, surfaced⟩ | ⟨accepted, tried, rfl⟩⟩ :=
    goes_createTopics goes
  · have seen : ∀ e ∈ attempts, e.Foreseen := fun e mem => foreseen e (.tail _ mem)
    have abandons := (tried.tried_all honest_createTopics seen).abandons seen surfaced
    have line : portCalls [logged .info message] = [] := rfl
    exact abandons.append_left line
  · cases told _ _ _ (List.mem_append_right _ (.tail _ (.head _)))

theorem createTopics_mended (goes : Goes reconciler.createTopics start trace (.ok ()) stop)
    (foreseen : ∀ e ∈ trace, e.Foreseen) :
    Mended reconciler.retry.maxAttempts (portCalls trace) := by
  obtain ⟨-, message, attempts, ⟨raised, tried, rfl, surfaced⟩ | ⟨accepted, tried, rfl⟩⟩ :=
    goes_createTopics goes
  · cases eq_ok_of_surfacing surfaced
  · have seen : ∀ e ∈ attempts, e.Foreseen :=
      fun e mem => foreseen e (List.mem_append_left _ (.tail _ mem))
    have mended := (tried.tried_all honest_createTopics seen).mended
    simpa [logged, Request.IsPortCall] using mended

theorem listTopics_abandons
    (goes : Goes reconciler.listTopics start trace (.error failure) stop)
    (foreseen : ∀ e ∈ trace, e.Foreseen) : Abandons reconciler listingGivenUp trace failure := by
  obtain ⟨-, ⟨raised, tried, surfaced⟩ | ⟨attempts, listing, message, tried, h, -⟩⟩ :=
    goes_listTopics goes
  · exact (tried.tried_all honest_listTopics foreseen).abandons foreseen surfaced
  · cases h

theorem listTopics_mended {listing : Listing}
    (goes : Goes reconciler.listTopics start trace (.ok listing) stop)
    (foreseen : ∀ e ∈ trace, e.Foreseen) :
    Mended reconciler.retry.maxAttempts (portCalls trace) := by
  obtain ⟨-, ⟨raised, tried, surfaced⟩ | ⟨attempts, other, message, tried, h, rfl⟩⟩ :=
    goes_listTopics goes
  · cases eq_ok_of_surfacing surfaced
  · have seen : ∀ e ∈ attempts, e.Foreseen := fun e mem => foreseen e (List.mem_append_left _ mem)
    have mended := (tried.tried_all honest_listTopics seen).mended
    simpa [logged, Request.IsPortCall] using mended

end Requests

section Topics

variable {waiting : Phase} {topic : Option String} {spent : Int → Fault} {names : List String}
  {listing : Listing} {taken : Int}

/-- A round makes no calls. -/
theorem Waits.quiet {policy : WaitPolicy} {result : Result Unit}
    (waits : Waits policy phase waiting topic spent poll trace result after) :
    portCalls trace = [] ∧ listings trace = [] := by
  cases waits <;> exact ⟨rfl, rfl⟩

theorem Waits.fails
    (waits : Waits reconciler.wait phase waiting topic spent poll trace (.error failure) after)
    (told : Told trace) :
    (reconciler.wait.maxAttempts ≤ poll.attempt ∧ failure = .of (spent poll.attempt)) ∨
      poll.attempt < reconciler.wait.maxAttempts ∧ Cut reconciler trace failure := by
  cases waits with
  | spent used => exact .inl ⟨used, rfl⟩
  | cutShort within => exact .inr ⟨within, .slept (.tail _ (.tail _ (.head _)))⟩
  | @overgrown message note _ within grown =>
    have calm : Settled (portCalls [logged .warning message, logged .debug note]) := settled_nil
    exact .inr ⟨within, .undelayed (.wait rfl calm grown)⟩
  | told => cases told _ _ _ (.tail _ (.tail _ (.tail _ (.head _))))

/-- How waiting for topics fails, from some attempts and a listing on: a listing request does, or a
wait is cut short, or a topic is not in the last listing when all attempts are taken. -/
inductive Unverified (reconciler : Reconciler) (names : List String) (taken : Int)
    (listing : Listing) (trace : List Exchange) : Failure → Prop where
  | abandoned {earlier asked : List Exchange} {failure : Failure} (split : trace = earlier ++ asked)
      (mended : Mended reconciler.retry.maxAttempts (portCalls earlier))
      (abandons : Abandons reconciler listingGivenUp asked failure) :
      Unverified reconciler names taken listing trace failure
  | unlisted {name : String} (mended : Mended reconciler.retry.maxAttempts (portCalls trace))
      (declared : name ∈ names) (missing : name ∉ (listings trace).getLastD listing)
      (all : taken + (listings trace).length = reconciler.wait.maxAttempts) :
      Unverified reconciler names taken listing trace
        (.of (.topicNotReady name reconciler.wait.maxAttempts))

/-- Waiting that has got on by the listings it got. -/
structure Seen (reconciler : Reconciler) (taken : Int) (listing : Listing)
    (trace : List Exchange) (shown : Listing) (after : Int) : Prop where
  mended : Mended reconciler.retry.maxAttempts (portCalls trace)
  shown : shown = (listings trace).getLastD listing
  attempts : after = taken + (listings trace).length
  within : after ≤ reconciler.wait.maxAttempts

theorem getLastD_append {first rest : List Listing} :
    (first ++ rest).getLastD listing = rest.getLastD (first.getLastD listing) := by
  induction first generalizing listing with
  | nil => rfl
  | cons next first ih =>
    rw [List.cons_append, List.getLastD_cons, List.getLastD_cons, ih]

theorem Unverified.mono {others : List String}
    (unverified : Unverified reconciler names taken listing trace failure)
    (more : ∀ name ∈ names, name ∈ others) :
    Unverified reconciler others taken listing trace failure := by
  cases unverified with
  | abandoned split mended abandons => exact .abandoned split mended abandons
  | unlisted mended declared missing all => exact .unlisted mended (more _ declared) missing all

theorem Seen.trans {shown next : Listing} {between after : Int}
    (seen : Seen reconciler taken listing first shown between)
    (onward : Seen reconciler between shown rest next after) :
    Seen reconciler taken listing (first ++ rest) next after := by
  obtain ⟨mended, rfl, rfl, -⟩ := seen
  obtain ⟨mended', rfl, rfl, within⟩ := onward
  refine ⟨?_, ?_, ?_, within⟩
  · rw [portCalls_append]
    exact mended.append mended'
  · rw [listings_append, getLastD_append]
  · rw [listings_append, List.length_append]
    push_cast
    omega

theorem Seen.unverified {shown : Listing} {between : Int}
    (seen : Seen reconciler taken listing first shown between)
    (onward : Unverified reconciler names between shown rest failure) :
    Unverified reconciler names taken listing (first ++ rest) failure := by
  obtain ⟨mended, rfl, rfl, -⟩ := seen
  cases onward with
  | @abandoned earlier asked _ split mended' abandons =>
    have whole : first ++ rest = (first ++ earlier) ++ asked := by
      rw [split, List.append_assoc]
    refine .abandoned whole ?_ abandons
    rw [portCalls_append]
    exact mended.append mended'
  | unlisted mended' declared missing all =>
    refine .unlisted ?_ declared ?_ ?_
    · rw [portCalls_append]
      exact mended.append mended'
    · rwa [listings_append, getLastD_append]
    · rw [listings_append, List.length_append, ← all]
      push_cast
      omega

/-- A streak of failed calls is what a request was given up for. -/
theorem Unverified.of_streakOf {last : Failure}
    (unverified : Unverified reconciler names taken listing trace failure)
    (streak : StreakOf reconciler.retry.maxAttempts (portCalls trace) last) :
    failure = givenUp reconciler.retry listingGivenUp last := by
  cases unverified with
  | abandoned split mended abandons =>
    rw [split, portCalls_append] at streak
    exact abandons.of_streakOf (mended.passes _ _ streak)
  | unlisted mended => exact absurd streak (mended.no_streak reconciler.retry.attempts_pos)

/-- A listing that was asked for is one attempt. -/
theorem listTopics_seen {next : Listing}
    (goes : Goes reconciler.listTopics phase trace (.ok next) phase)
    (foreseen : ∀ e ∈ trace, e.Foreseen) (within : taken + 1 ≤ reconciler.wait.maxAttempts) :
    Seen reconciler taken listing trace next (taken + 1) := by
  obtain ⟨listed, -⟩ := listTopics_listed goes
  refine ⟨listTopics_mended goes foreseen, ?_, ?_, within⟩
  · rw [listed]
    rfl
  · rw [listed]
    rfl

/-- A round and the listing after it. -/
theorem Waits.seen {next : Listing}
    (waits : Waits reconciler.wait phase waiting topic spent poll first (.ok ()) after)
    (goes : Goes reconciler.listTopics phase rest (.ok next) phase)
    (foreseen : ∀ e ∈ rest, e.Foreseen) :
    Seen reconciler poll.attempt listing (first ++ rest) next after.attempt := by
  obtain ⟨attempts, within⟩ := waits.advanced
  obtain ⟨quiet, unlisted⟩ := waits.quiet
  rw [attempts] at within ⊢
  have asked : Seen reconciler poll.attempt listing rest next _ :=
    listTopics_seen goes foreseen within
  obtain ⟨mended, shown, counted, -⟩ := asked
  refine ⟨?_, ?_, ?_, within⟩
  · rwa [portCalls_append, quiet]
  · rwa [listings_append, unlisted]
  · rwa [listings_append, unlisted]

theorem AwaitsTopic.seen {name : String} {shown : Listing}
    (awaits : AwaitsTopic reconciler phase name poll listing trace (.ok shown) after)
    (foreseen : ∀ e ∈ trace, e.Foreseen) (within : poll.attempt ≤ reconciler.wait.maxAttempts) :
    Seen reconciler poll.attempt listing trace shown after.attempt := by
  generalize hresult : Except.ok shown = result at awaits
  induction awaits with
  | present =>
    cases hresult
    exact ⟨mended_nil, rfl, (Int.add_zero _).symm, within⟩
  | again missing waits goes _ ih =>
    have asked := (List.forall_mem_append.mp (List.forall_mem_append.mp foreseen).1).2
    have onward := ih (List.forall_mem_append.mp foreseen).2 waits.advanced.2 hresult
    exact (waits.seen goes asked).trans onward
  | _ => cases hresult

/-- A request that fails, after a round or none, is where waiting for topics ends. -/
theorem Abandons.unverified (abandons : Abandons reconciler listingGivenUp rest failure)
    (quiet : portCalls first = []) :
    Unverified reconciler names taken listing (first ++ rest) failure := by
  refine .abandoned rfl ?_ abandons
  rw [quiet]
  exact mended_nil

theorem AwaitsTopic.unverified {name : String}
    (awaits : AwaitsTopic reconciler phase name poll listing trace (.error failure) after)
    (declared : name ∈ names) (foreseen : ∀ e ∈ trace, e.Foreseen) (told : Told trace)
    (within : poll.attempt ≤ reconciler.wait.maxAttempts) :
    Unverified reconciler names poll.attempt listing trace failure := by
  generalize hresult : Except.error failure = result at awaits
  induction awaits with
  | present => cases hresult
  | stopped missing waits =>
    cases hresult
    obtain ⟨quiet, unlisted⟩ := waits.quiet
    rcases waits.fails told with ⟨used, rfl⟩ | ⟨-, cut⟩
    · have all : _ = reconciler.wait.maxAttempts := Int.le_antisymm within used
      rw [all]
      refine .unlisted ?_ declared ?_ ?_
      · rw [quiet]
        exact mended_nil
      · rwa [unlisted]
      · rw [unlisted]
        exact Int.add_zero _
    · have attempts := reconciler.retry.attempts_pos
      refine Abandons.unverified (.cut cut ?_) portCalls_nil
      rw [quiet, List.length_nil]
      omega
  | unlisted missing waits goes =>
    cases hresult
    have asked := (List.forall_mem_append.mp foreseen).2
    exact (listTopics_abandons goes asked).unverified waits.quiet.1
  | again missing waits goes _ ih =>
    have asked := (List.forall_mem_append.mp (List.forall_mem_append.mp foreseen).1).2
    have onward := ih (List.forall_mem_append.mp foreseen).2 told.right waits.advanced.2 hresult
    exact (waits.seen goes asked).unverified onward

/-- What is told about a topic is no call. -/
theorem Seen.told {shown : Listing} {attempt : Int} {message : String} {happening : Happening}
    {answer : Result Unit} (seen : Seen reconciler taken listing trace shown attempt) :
    Seen reconciler taken listing
      (trace ++ [logged .info message, ⟨.announce phase happening, answer⟩]) shown attempt :=
  seen.trans ⟨mended_nil, rfl, (Int.add_zero _).symm, seen.within⟩

theorem AwaitsTopics.unverified {specs : List TopicSpec}
    (awaits : AwaitsTopics reconciler phase specs poll listing trace (.error failure) after)
    (foreseen : ∀ e ∈ trace, e.Foreseen) (told : Told trace)
    (within : poll.attempt ≤ reconciler.wait.maxAttempts) :
    Unverified reconciler (specs.map (·.name)) poll.attempt listing trace failure := by
  generalize hresult : Except.error failure = result at awaits
  induction awaits with
  | done => cases hresult
  | stopped awaits =>
    cases hresult
    exact awaits.unverified (.head _) foreseen told within
  | untold awaits => cases told _ _ _ (List.mem_append_right _ (.tail _ (.head _)))
  | seen awaits _ ih =>
    obtain ⟨first, others⟩ := List.forall_mem_append.mp foreseen
    have seen := awaits.seen (List.forall_mem_append.mp first).1 within
    have onward := ih others told.right seen.within hresult
    exact seen.told.unverified (onward.mono fun name mem => .tail _ mem)

theorem AwaitsTopics.mended {specs : List TopicSpec}
    (awaits : AwaitsTopics reconciler phase specs poll listing trace (.ok ()) after)
    (foreseen : ∀ e ∈ trace, e.Foreseen) (within : poll.attempt ≤ reconciler.wait.maxAttempts) :
    Mended reconciler.retry.maxAttempts (portCalls trace) := by
  generalize hresult : Except.ok () = result at awaits
  induction awaits with
  | done => exact mended_nil
  | seen awaits _ ih =>
    obtain ⟨first, others⟩ := List.forall_mem_append.mp foreseen
    have seen := awaits.seen (List.forall_mem_append.mp first).1 within
    rw [portCalls_append]
    exact seen.told.mended.append (ih others seen.within hresult)
  | _ => cases hresult

/-- The whole topic phase, in which the first listing is an attempt as well. -/
theorem verifyTopics_unverified
    (goes : Goes (reconciler.fresh reconciler.verifyTopics) start trace (.error failure) stop)
    (foreseen : ∀ e ∈ trace, e.Foreseen) (told : Told trace) :
    Unverified reconciler reconciler.topicNames 0 [] trace failure := by
  obtain ⟨after, polls⟩ := goes_fresh_iff.mp goes
  obtain ⟨-, ⟨other, asks, h, -⟩ | ⟨asked, listing, rest, asks, awaits, rfl⟩⟩ :=
    polls_verifyTopics polls
  · cases h
    have abandons := listTopics_abandons asks foreseen
    exact abandons.unverified portCalls_nil
  · obtain ⟨first, others⟩ := List.forall_mem_append.mp foreseen
    have within := reconciler.wait.attempts_pos
    have seen : Seen reconciler 0 [] asked listing (0 + 1) :=
      listTopics_seen ((goes_listTopics asks).1 ▸ asks) first within
    exact seen.unverified (awaits.unverified others told.right within)

theorem verifyTopics_mended
    (goes : Goes (reconciler.fresh reconciler.verifyTopics) start trace (.ok ()) stop)
    (foreseen : ∀ e ∈ trace, e.Foreseen) :
    Mended reconciler.retry.maxAttempts (portCalls trace) := by
  obtain ⟨after, polls⟩ := goes_fresh_iff.mp goes
  obtain ⟨-, ⟨other, asks, h, -⟩ | ⟨asked, listing, rest, asks, awaits, rfl⟩⟩ :=
    polls_verifyTopics polls
  · cases h
  · obtain ⟨first, others⟩ := List.forall_mem_append.mp foreseen
    rw [portCalls_append]
    exact (listTopics_mended asks first).append
      (awaits.mended others reconciler.wait.attempts_pos)

end Topics

section Registry

/-- A probe that found the registry unhealthy. -/
def probedUnhealthy : Exchange := ⟨.probe, .ok false⟩

/-- How probing fails: all attempts are taken, or it is cut short before. -/
inductive Unhealthy (reconciler : Reconciler) (poll : PollState) (trace : List Exchange) :
    Failure → Prop where
  | spent {count : Nat} (probes : portCalls trace = List.replicate count probedUnhealthy)
      (all : poll.attempt + count = reconciler.wait.maxAttempts + 1) :
      Unhealthy reconciler poll trace (.of (.registryNotReady reconciler.wait.maxAttempts))
  | cut {count : Nat} {failure : Failure}
      (probes : portCalls trace = List.replicate count probedUnhealthy)
      (fewer : poll.attempt + count ≤ reconciler.wait.maxAttempts)
      (cut : Cut reconciler trace failure) : Unhealthy reconciler poll trace failure

theorem AwaitsRegistry.unhealthy
    (awaits : AwaitsRegistry reconciler phase poll trace (.error failure) after)
    (foreseen : ∀ e ∈ trace, e.Foreseen) (told : Told trace)
    (within : poll.attempt ≤ reconciler.wait.maxAttempts) :
    Unhealthy reconciler poll trace failure := by
  generalize hresult : Except.error failure = result at awaits
  induction awaits with
  | raised => exact (foreseen _ (.head _)).elim
  | healthy => cases hresult
  | @stopped poll after trace other waits =>
    cases hresult
    obtain ⟨quiet, -⟩ := waits.quiet
    have calls : portCalls (probedUnhealthy :: trace) = List.replicate 1 probedUnhealthy := by
      rw [portCalls_cons, quiet]
      rfl
    have news : Told trace := fun _ _ _ mem => told _ _ _ (.tail _ mem)
    rcases waits.fails news with ⟨used, rfl⟩ | ⟨room, cut⟩
    · have all : poll.attempt = reconciler.wait.maxAttempts := Int.le_antisymm within used
      rw [all]
      refine .spent calls ?_
      omega
    · refine .cut calls room ?_
      have settled : Settled (portCalls [probedUnhealthy]) := settled_singleton rfl
      exact cut.append_left settled
  | @again poll between after waited rest result waits _ ih =>
    obtain ⟨first, others⟩ := List.forall_mem_append.mp foreseen
    obtain ⟨attempts, room⟩ := waits.advanced
    obtain ⟨quiet, -⟩ := waits.quiet
    have before : portCalls (probedUnhealthy :: waited) = [probedUnhealthy] := by
      rw [portCalls_cons, quiet]
      rfl
    have calls : ∀ {count}, portCalls rest = List.replicate count probedUnhealthy →
        portCalls (probedUnhealthy :: waited ++ rest) =
          List.replicate (count + 1) probedUnhealthy := by
      intro count probes
      rw [portCalls_append, before, probes]
      rfl
    cases ih others told.right room hresult with
    | spent probes all =>
      refine .spent (calls probes) ?_
      push_cast
      omega
    | cut probes fewer cut =>
      refine .cut (calls probes) ?_ ?_
      · push_cast
        omega
      · have settled : Settled (portCalls (probedUnhealthy :: waited)) := by
          rw [before]
          exact settled_singleton rfl
        exact cut.append_left settled

theorem verifyRegistry_unhealthy
    (goes : Goes (reconciler.fresh reconciler.verifyRegistry) start trace (.error failure) stop)
    (foreseen : ∀ e ∈ trace, e.Foreseen) (told : Told trace) :
    Unhealthy reconciler (.start reconciler.wait) trace failure := by
  obtain ⟨after, polls⟩ := goes_fresh_iff.mp goes
  obtain ⟨-, ⟨other, awaits, h⟩ | ⟨probed, message, awaits, rfl, h⟩⟩ := polls_verifyRegistry polls
  · cases h
    exact awaits.unhealthy foreseen told reconciler.wait.attempts_pos
  · cases h

/-- The probes of a phase that succeeds end with one that found the registry healthy. -/
theorem verifyRegistry_probed
    (goes : Goes (reconciler.fresh reconciler.verifyRegistry) start trace (.ok ()) stop) :
    ∃ earlier, portCalls trace = earlier ++ [⟨.probe, .ok true⟩] := by
  obtain ⟨before, message, rfl⟩ := verifyRegistry_healthy goes
  exact ⟨portCalls before, by simp [logged, Request.IsPortCall]⟩

end Registry

end Reconciler

end ClusterReadiness
