import ClusterReadiness.Proofs.Reconciler.Timetables

/-!
# Runs in lockstep

Two runs under one timetable that call the same ports in the same order get the same answers, so what
they do next is the same: retried calls, rounds of waiting, probing, and changes of phase.
-/

namespace ClusterReadiness

namespace Reconciler

variable {α : Type} {reconciler other : Reconciler} {timetable : Timetable} {tally : Tally}
  {start stop stop' phase next : Phase} {trace trace' : List Exchange}
  {poll after after' : PollState}

section Retrying

variable {policy : RetryPolicy} {call call' : Program (Result α)} {number : Int} {left : Nat}
  {outcome outcome' : Result α}

/-- What follows the answer of a retried call. -/
def Continues (policy : RetryPolicy) (call : Program (Result α)) (number : Int) :
    Nat → Result α → List Exchange → Result α → Prop
  | _, .ok value, rest, outcome => rest = [] ∧ outcome = .ok value
  | left, .error failure, rest, outcome =>
    if failure.isRetryable then
      match left with
      | 0 => ∃ message, rest = [logged .warning message] ∧
          outcome = .error (.because (.retryExhausted number failure.fault) failure)
      | left + 1 =>
        match policy.delayAfter number with
        | .error reason => rest = [] ∧ outcome = .error (.of (.overflow reason))
        | .ok pause => ∃ message slept more,
            rest = [logged .warning message, ⟨.sleep pause, slept⟩] ++ more ∧
            match slept with
            | .error cut => more = [] ∧ outcome = .error cut
            | .ok _ => Attempts policy call (number + 1) left more outcome
    else rest = [] ∧ outcome = .error failure

theorem Attempts.continues (attempts : Attempts policy call number left trace outcome) :
    ∃ asked answer rest, Runs call asked answer ∧ trace = asked ++ rest ∧
      Continues policy call number left answer rest outcome := by
  cases attempts with
  | returned called => exact ⟨_, _, [], called, (List.append_nil _).symm, rfl, rfl⟩
  | refused called final =>
    exact ⟨_, _, [], called, (List.append_nil _).symm, by simp [Continues, final]⟩
  | exhausted called retryable =>
    exact ⟨_, _, _, called, rfl, by simp [Continues, retryable]⟩
  | undelayed called retryable delay =>
    exact ⟨_, _, [], called, (List.append_nil _).symm, by simp [Continues, retryable, delay]⟩
  | @cutShort _ _ _ _ cut _ message called retryable delay =>
    refine ⟨_, _, _, called, rfl, ?_⟩
    simp only [Continues, retryable, if_true, delay]
    exact ⟨message, .error cut, [], rfl, rfl, rfl⟩
  | @again _ _ _ rest _ _ message _ called retryable delay more =>
    refine ⟨_, _, _, called, List.append_assoc .., ?_⟩
    simp only [Continues, retryable, if_true, delay]
    exact ⟨message, .ok (), rest, rfl, more⟩

/-- After the same answer two retried calls go on alike, if further attempts do. -/
theorem Continues.alike {answer : Result α} {rest rest' : List Exchange}
    (onward : Continues policy call number left answer rest outcome)
    (onward' : Continues policy call' number left answer rest' outcome')
    (obeys : timetable.Obeys tally rest) (obeys' : timetable.Obeys tally rest')
    (further : ∀ ⦃fewer tally t t'⦄, left = fewer + 1 →
      Attempts policy call (number + 1) fewer t outcome →
      Attempts policy call' (number + 1) fewer t' outcome' → timetable.Obeys tally t →
      timetable.Obeys tally t' → Alike t t' ∧ outcome = outcome') :
    Alike rest rest' ∧ outcome = outcome' := by
  cases answer with
  | ok value =>
    obtain ⟨rfl, rfl⟩ := onward
    obtain ⟨rfl, rfl⟩ := onward'
    exact ⟨.refl [], rfl⟩
  | error failure =>
    simp only [Continues] at onward onward'
    by_cases retryable : failure.isRetryable = true
    · rw [if_pos retryable] at onward onward'
      cases left with
      | zero =>
        obtain ⟨message, rfl, rfl⟩ := onward
        obtain ⟨message', rfl, rfl⟩ := onward'
        exact ⟨⟨rfl, rfl, rfl, rfl⟩, rfl⟩
      | succ fewer =>
        cases delay : policy.delayAfter number with
        | error reason =>
          simp only [delay] at onward onward'
          obtain ⟨rfl, rfl⟩ := onward
          obtain ⟨rfl, rfl⟩ := onward'
          exact ⟨.refl [], rfl⟩
        | ok pause =>
          simp only [delay] at onward onward'
          obtain ⟨message, slept, more, rfl, onward⟩ := onward
          obtain ⟨message', slept', more', rfl, onward'⟩ := onward'
          obtain ⟨-, ⟨_, woken⟩, -⟩ := obeys.left
          obtain ⟨-, ⟨_, woken'⟩, -⟩ := obeys'.left
          obtain rfl : slept = slept' := woken.trans woken'.symm
          have rested : Alike [logged .warning message, ⟨.sleep pause, slept⟩]
              [logged .warning message', ⟨.sleep pause, slept⟩] := ⟨rfl, rfl, rfl, rfl⟩
          cases slept with
          | error cut =>
            obtain ⟨rfl, rfl⟩ := onward
            obtain ⟨rfl, rfl⟩ := onward'
            exact ⟨rested.append (.refl []), rfl⟩
          | ok _ =>
            obtain ⟨same, ended⟩ := further rfl onward onward' obeys.right obeys'.right
            exact ⟨rested.append same, ended⟩
    · rw [if_neg retryable] at onward onward'
      obtain ⟨rfl, rfl⟩ := onward
      obtain ⟨rfl, rfl⟩ := onward'
      exact ⟨.refl [], rfl⟩

/-- Calls that are answered alike are retried alike. -/
theorem attempts_alike {number : Int} {left : Nat} {tally : Tally} {trace trace' : List Exchange}
    {outcome outcome' : Result α} (each : ∀ ⦃tally t t' result result'⦄, Runs call t result →
      Runs call' t' result' → timetable.Obeys tally t → timetable.Obeys tally t' →
        Alike t t' ∧ result = result')
    (first : Attempts policy call number left trace outcome)
    (second : Attempts policy call' number left trace' outcome')
    (obeys : timetable.Obeys tally trace) (obeys' : timetable.Obeys tally trace') :
    Alike trace trace' ∧ outcome = outcome' := by
  obtain ⟨asked, answer, rest, called, rfl, onward⟩ := first.continues
  obtain ⟨asked', answer', rest', called', rfl, onward'⟩ := second.continues
  obtain ⟨alike, rfl⟩ := each called called' obeys.left obeys'.left
  have answered := obeys'.right
  rw [← alike.after] at answered
  have further : ∀ ⦃fewer tally t t'⦄, left = fewer + 1 →
      Attempts policy call (number + 1) fewer t outcome →
      Attempts policy call' (number + 1) fewer t' outcome' → timetable.Obeys tally t →
      timetable.Obeys tally t' → Alike t t' ∧ outcome = outcome' :=
    fun _ _ _ _ _ again again' => attempts_alike each again again'
  obtain ⟨others, ended⟩ := onward.alike onward' obeys.right answered further
  exact ⟨alike.append others, ended⟩
termination_by left

end Retrying

section Requests

variable {specs specs' : List TopicSpec}

/-- Creation requests are answered by their number, whatever topics they name. -/
theorem create_alike ⦃tally : Tally⦄ ⦃t t' : List Exchange⦄ ⦃result result' : Result Unit⦄
    (run : Runs (Program.request (.createTopics specs)) t result)
    (run' : Runs (Program.request (.createTopics specs')) t' result')
    (obeys : timetable.Obeys tally t) (obeys' : timetable.Obeys tally t') :
    Alike t t' ∧ result = result' := by
  obtain rfl := runs_request_iff.mp run
  obtain rfl := runs_request_iff.mp run'
  obtain ⟨_, answered⟩ := obeys.head
  obtain ⟨_, answered'⟩ := obeys'.head
  exact ⟨⟨rfl, rfl, rfl, rfl⟩, answered.trans answered'.symm⟩

theorem list_alike ⦃tally : Tally⦄ ⦃t t' : List Exchange⦄ ⦃result result' : Result Listing⦄
    (run : Runs (Program.request .listTopics) t result)
    (run' : Runs (Program.request .listTopics) t' result') (obeys : timetable.Obeys tally t)
    (obeys' : timetable.Obeys tally t') : Alike t t' ∧ result = result' := by
  obtain rfl := runs_request_iff.mp run
  obtain rfl := runs_request_iff.mp run'
  obtain ⟨_, answered⟩ := obeys.head
  obtain ⟨_, answered'⟩ := obeys'.head
  exact ⟨⟨rfl, rfl, rfl, rfl⟩, answered.trans answered'.symm⟩

/-- Exhausted retries are given up alike if what they are given up as is. -/
theorem agree_surfacing {giveUp giveUp' : Fault} (outcome : Result α)
    (same : ∀ cause, (Failure.because giveUp cause).Resembles (.because giveUp' cause)) :
    Agree (surfacing giveUp outcome) (surfacing giveUp' outcome) := by
  cases outcome with
  | ok value => exact .ok
  | error failure =>
    simp only [surfacing]
    split
    · exact .error (same failure)
    · exact .refl _

/-- Two pieces of work that go alike from any tally on. -/
def Paired (timetable : Timetable) (work work' : Work α) (start : Phase) : Prop :=
  ∀ ⦃tally t t' result result' stop stop'⦄, Goes work start t result stop →
    Goes work' start t' result' stop' → timetable.Obeys tally t → timetable.Obeys tally t' →
      Alike t t' ∧ Agree result result' ∧ stop = stop'

variable (retry : other.retry = reconciler.retry)
include retry

theorem createTopics_paired :
    Paired timetable reconciler.createTopics other.createTopics start := by
  intro tally t t' result result' stop stop' goes goes' obeys obeys'
  obtain ⟨rfl, message, attempts, ended⟩ := goes_createTopics goes
  obtain ⟨rfl, message', attempts', ended'⟩ := goes_createTopics goes'
  have line : Alike [logged .info message] [logged .info message'] := ⟨rfl, rfl, rfl, rfl⟩
  unfold CreatingTopics at ended ended'
  rw [retry] at ended'
  rcases ended with ⟨failure, tried, rfl, rfl⟩ | ⟨accepted, tried, rfl⟩
  · rcases ended' with ⟨failure', tried', rfl, rfl⟩ | ⟨accepted', tried', rfl⟩
    · obtain ⟨alike, same⟩ := attempts_alike create_alike tried tried' obeys.2 obeys'.2
      cases same
      exact ⟨line.append alike, agree_surfacing _ fun _ => ⟨rfl, rfl⟩, rfl⟩
    · cases (attempts_alike create_alike tried tried' obeys.2 obeys'.left.2).2
  · rcases ended' with ⟨failure', tried', rfl, rfl⟩ | ⟨accepted', tried', rfl⟩
    · cases (attempts_alike create_alike tried tried' obeys.left.2 obeys'.2).2
    · obtain ⟨alike, -⟩ := attempts_alike create_alike tried tried' obeys.left.2 obeys'.left.2
      obtain ⟨-, ⟨_, told⟩, -⟩ := obeys.right
      obtain ⟨-, ⟨_, told'⟩, -⟩ := obeys'.right
      obtain rfl : result = .ok () := told
      obtain rfl : result' = .ok () := told'
      exact ⟨(line.append alike).append ⟨rfl, rfl, rfl, rfl⟩, .ok, rfl⟩

theorem listTopics_paired :
    Paired timetable reconciler.listTopics other.listTopics start := by
  intro tally t t' result result' stop stop' goes goes' obeys obeys'
  obtain ⟨rfl, ended⟩ := goes_listTopics goes
  obtain ⟨rfl, ended'⟩ := goes_listTopics goes'
  unfold ListingTopics at ended ended'
  rw [retry] at ended'
  rcases ended with ⟨failure, tried, rfl⟩ | ⟨attempts, listing, message, tried, rfl, rfl⟩
  · rcases ended' with ⟨failure', tried', rfl⟩ | ⟨attempts', listing', message', tried', rfl, rfl⟩
    · obtain ⟨alike, same⟩ := attempts_alike list_alike tried tried' obeys obeys'
      cases same
      exact ⟨alike, .refl _, rfl⟩
    · cases (attempts_alike list_alike tried tried' obeys obeys'.left).2
  · rcases ended' with ⟨failure', tried', rfl⟩ | ⟨attempts', listing', message', tried', rfl, rfl⟩
    · cases (attempts_alike list_alike tried tried' obeys.left obeys').2
    · obtain ⟨alike, same⟩ := attempts_alike list_alike tried tried' obeys.left obeys'.left
      cases same
      exact ⟨alike.append ⟨rfl, rfl, rfl, rfl⟩, .ok, rfl⟩

end Requests

section Waiting

variable {policy : WaitPolicy} {waiting : Phase} {topic topic' : Option String}
  {spent spent' : Int → Fault} {result result' : Result Unit}

/-- A round goes alike whatever is waited for. -/
theorem Waits.alike (first : Waits policy phase waiting topic spent poll trace result after)
    (second : Waits policy phase waiting topic' spent' poll trace' result' after')
    (same : ∀ attempt, (Failure.of (spent attempt)).Resembles (.of (spent' attempt)))
    (obeys : timetable.Obeys tally trace) (obeys' : timetable.Obeys tally trace') :
    Alike trace trace' ∧ Agree result result' ∧ after = after' := by
  cases first with
  | spent used =>
    cases second with
    | spent => exact ⟨⟨rfl, rfl, rfl, rfl⟩, .error (same _), rfl⟩
    | cutShort within | overgrown within | told within => omega
  | cutShort within =>
    obtain ⟨-, -, ⟨_, woken⟩, -⟩ := obeys
    cases second with
    | spent used => omega
    | cutShort =>
      obtain ⟨-, -, ⟨_, woken'⟩, -⟩ := obeys'
      cases woken.trans woken'.symm
      exact ⟨⟨rfl, rfl, rfl, rfl⟩, .refl _, rfl⟩
    | overgrown | told =>
      obtain ⟨-, -, ⟨_, woken'⟩, -⟩ := obeys'
      cases woken.trans woken'.symm
  | overgrown within grown =>
    obtain ⟨-, -, ⟨_, woken⟩, -⟩ := obeys
    cases second with
    | spent used => omega
    | cutShort =>
      obtain ⟨-, -, ⟨_, woken'⟩, -⟩ := obeys'
      cases woken.trans woken'.symm
    | overgrown _ grown' =>
      cases grown.symm.trans grown'
      exact ⟨⟨rfl, rfl, rfl, rfl⟩, .refl _, rfl⟩
    | told _ grown' => cases grown.symm.trans grown'
  | told within grown =>
    obtain ⟨-, -, ⟨_, woken⟩, ⟨_, told⟩, -⟩ := obeys
    cases second with
    | spent used => omega
    | cutShort =>
      obtain ⟨-, -, ⟨_, woken'⟩, -⟩ := obeys'
      cases woken.trans woken'.symm
    | overgrown _ grown' => cases grown.symm.trans grown'
    | told _ grown' =>
      obtain ⟨-, -, -, ⟨_, told'⟩, -⟩ := obeys'
      cases grown.symm.trans grown'
      obtain rfl : result = result' := told.trans told'.symm
      exact ⟨⟨rfl, rfl, rfl, rfl⟩, .refl _, rfl⟩

end Waiting

section Registry

variable {result result' : Result Unit}

/-- Each probe is answered, and what the answer leads to. -/
theorem AwaitsRegistry.probed (awaits : AwaitsRegistry reconciler phase poll trace result after) :
    ∃ (answer : Result Bool) (rest : List Exchange), trace = ⟨.probe, answer⟩ :: rest ∧
      match answer with
      | .error failure => rest = [] ∧ result = .error failure
      | .ok true => rest = [] ∧ result = .ok ()
      | .ok false =>
        (∃ failure, Waits reconciler.wait phase .verifyingRegistry none .registryNotReady poll rest
          (.error failure) after ∧ result = .error failure) ∨
        ∃ waited more between, rest = waited ++ more ∧
          Waits reconciler.wait phase .verifyingRegistry none .registryNotReady poll waited
            (.ok ()) between ∧
          AwaitsRegistry reconciler phase between more result after := by
  cases awaits with
  | raised => exact ⟨_, [], rfl, rfl, rfl⟩
  | healthy => exact ⟨_, [], rfl, rfl, rfl⟩
  | stopped waits => exact ⟨.ok false, _, rfl, .inl ⟨_, waits, rfl⟩⟩
  | again waits more => exact ⟨.ok false, _, rfl, .inr ⟨_, _, _, rfl, waits, more⟩⟩

theorem AwaitsRegistry.alike (wait : other.wait = reconciler.wait)
    (first : AwaitsRegistry reconciler phase poll trace result after)
    (second : AwaitsRegistry other phase poll trace' result' after')
    (obeys : timetable.Obeys tally trace) (obeys' : timetable.Obeys tally trace') :
    Alike trace trace' ∧ Agree result result' := by
  induction first generalizing tally trace' result' after' with
  | raised | healthy =>
    obtain ⟨answer, rest, rfl, onward⟩ := second.probed
    obtain ⟨⟨_, told⟩, -⟩ := obeys
    obtain ⟨⟨_, told'⟩, -⟩ := obeys'
    cases told'.trans told.symm
    obtain ⟨rfl, rfl⟩ := onward
    exact ⟨⟨rfl, rfl, rfl, rfl⟩, .refl _⟩
  | stopped waits =>
    obtain ⟨answer, rest, rfl, onward⟩ := second.probed
    obtain ⟨⟨_, told⟩, obeys⟩ := obeys
    obtain ⟨⟨_, told'⟩, obeys'⟩ := obeys'
    cases told'.trans told.symm
    rcases onward with ⟨failure, waits', rfl⟩ | ⟨waited, more, between, rfl, waits', -⟩
    · rw [wait] at waits'
      obtain ⟨alike, agree, -⟩ := waits.alike waits' (fun _ => ⟨rfl, rfl⟩) obeys obeys'
      exact ⟨.append (.refl [⟨.probe, .ok false⟩]) alike, agree⟩
    · rw [wait] at waits'
      cases (waits.alike waits' (fun _ => ⟨rfl, rfl⟩) obeys obeys'.left).2.1
  | again waits more ih =>
    obtain ⟨answer, rest, rfl, onward⟩ := second.probed
    obtain ⟨⟨_, told⟩, obeys⟩ := obeys
    obtain ⟨⟨_, told'⟩, obeys'⟩ := obeys'
    cases told'.trans told.symm
    rcases onward with ⟨failure, waits', rfl⟩ | ⟨waited, more', between, rfl, waits', more'⟩
    · rw [wait] at waits'
      cases (waits.alike waits' (fun _ => ⟨rfl, rfl⟩) obeys.left obeys').2.1
    · rw [wait] at waits'
      obtain ⟨alike, -, rfl⟩ := waits.alike waits' (fun _ => ⟨rfl, rfl⟩) obeys.left obeys'.left
      have answered := obeys'.right
      rw [← alike.after] at answered
      obtain ⟨others, agree⟩ := ih more' obeys.right answered
      exact ⟨.append (.append (.refl [⟨.probe, .ok false⟩]) alike) others, agree⟩

theorem verifyRegistry_paired (wait : other.wait = reconciler.wait) :
    Paired timetable (reconciler.fresh reconciler.verifyRegistry)
      (other.fresh other.verifyRegistry) start := by
  intro tally t t' result result' stop stop' goes goes' obeys obeys'
  obtain ⟨after, polls⟩ := goes_fresh_iff.mp goes
  obtain ⟨after', polls'⟩ := goes_fresh_iff.mp goes'
  rw [wait] at polls'
  obtain ⟨rfl, ended⟩ := polls_verifyRegistry polls
  obtain ⟨rfl, ended'⟩ := polls_verifyRegistry polls'
  rcases ended with ⟨failure, awaits, rfl⟩ | ⟨probed, message, awaits, rfl, rfl⟩
  · rcases ended' with ⟨failure', awaits', rfl⟩ | ⟨probed', message', awaits', rfl, rfl⟩
    · obtain ⟨alike, agree⟩ := awaits.alike wait awaits' obeys obeys'
      exact ⟨alike, agree, rfl⟩
    · cases (awaits.alike wait awaits' obeys obeys'.left).2
  · rcases ended' with ⟨failure', awaits', rfl⟩ | ⟨probed', message', awaits', rfl, rfl⟩
    · cases (awaits.alike wait awaits' obeys.left obeys').2
    · obtain ⟨alike, agree⟩ := awaits.alike wait awaits' obeys.left obeys'.left
      exact ⟨alike.append ⟨rfl, rfl, rfl, rfl⟩, .ok, rfl⟩

end Registry

section Stages

variable {body body' : Work Unit} {stages stages' : List (Phase × Work Unit)}
  {result result' : Result Unit}

/-- A phase is refused in both runs or in neither. -/
theorem Stage.alike (bodies : Paired timetable body body' next)
    (first : Stage next body start trace result stop)
    (second : Stage next body' start trace' result' stop')
    (obeys : timetable.Obeys tally trace) (obeys' : timetable.Obeys tally trace') :
    Alike trace trace' ∧ Agree result result' ∧ stop = stop' := by
  cases first with
  | refused =>
    cases second with
    | refused => exact ⟨.refl _, .refl _, rfl⟩
    | untold | worked =>
      obtain ⟨⟨_, asked⟩, -⟩ := obeys
      obtain ⟨⟨_, asked'⟩, -⟩ := obeys'
      cases asked.trans asked'.symm
  | untold =>
    obtain ⟨-, -, ⟨_, told⟩, -⟩ := obeys
    cases told
  | worked goes =>
    cases second with
    | refused =>
      obtain ⟨⟨_, asked⟩, -⟩ := obeys
      obtain ⟨⟨_, asked'⟩, -⟩ := obeys'
      cases asked.trans asked'.symm
    | untold =>
      obtain ⟨-, -, ⟨_, told⟩, -⟩ := obeys'
      cases told
    | worked goes' =>
      obtain ⟨alike, agree, rfl⟩ := bodies goes goes' obeys.right obeys'.right
      exact ⟨.append (.refl _) alike, agree, rfl⟩

theorem Stages.alike (first : Stages stages start trace result stop)
    (second : Stages stages' start trace' result' stop')
    (bodies : List.Forall₂ (fun stage stage' => stage.1 = stage'.1 ∧
      Paired timetable stage.2 stage'.2 stage.1) stages stages')
    (obeys : timetable.Obeys tally trace) (obeys' : timetable.Obeys tally trace') :
    Alike trace trace' ∧ Agree result result' ∧ stop = stop' := by
  induction first generalizing tally stages' trace' result' stop' with
  | done =>
    cases bodies
    cases second
    exact ⟨.refl [], .ok, rfl⟩
  | broken stage =>
    obtain - | ⟨⟨rfl, paired⟩, -⟩ := bodies
    cases second with
    | broken stage' => exact stage.alike paired stage' obeys obeys'
    | more stage' => cases (stage.alike paired stage' obeys obeys'.left).2.1
  | more stage stages ih =>
    obtain - | ⟨⟨rfl, paired⟩, others⟩ := bodies
    cases second with
    | broken stage' => cases (stage.alike paired stage' obeys.left obeys').2.1
    | more stage' stages' =>
      obtain ⟨alike, -, rfl⟩ := stage.alike paired stage' obeys.left obeys'.left
      have onward := obeys'.right
      rw [← alike.after] at onward
      obtain ⟨rest, agree, rfl⟩ := ih stages' others obeys.right onward
      exact ⟨alike.append rest, agree, rfl⟩

/-- Where nobody listens, failing is brought to its end. -/
theorem fail_idles {failure : Failure} (goes : Goes (fail failure) start trace result stop)
    (obeys : timetable.Obeys tally trace) : Idles trace ∧ result = .ok () ∧ stop = .failed := by
  obtain ⟨rfl, message, ⟨cut, rfl, rfl⟩ | rfl⟩ := goes_fail goes
  · obtain ⟨-, -, ⟨_, told⟩, -⟩ := obeys
    cases told
  · obtain ⟨-, -, -, ⟨_, told⟩, -⟩ := obeys
    exact ⟨⟨rfl, rfl, rfl, rfl⟩, told, rfl⟩

theorem raisedAs_resembles {failure failure' : Failure} (resembles : failure.Resembles failure') :
    (raisedAs phase failure).Resembles (raisedAs phase failure') := by
  unfold raisedAs
  rw [← resembles.raw]
  split
  · exact ⟨rfl, rfl⟩
  · exact resembles

end Stages

end Reconciler

end ClusterReadiness
