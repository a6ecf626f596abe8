import ClusterReadiness.Proofs.Broker.Batches
import ClusterReadiness.Proofs.Reconciler.ClosedForm
import ClusterReadiness.Proofs.Reconciler.Streaks

/-!
# Creating topics on a cluster

Every attempt hands the whole batch on, also the topics that an earlier attempt created. Topics are
created as soon as the client reacts to one batch in such a way that all of them are there, and are
given up when the attempts are used up.
-/

namespace ClusterReadiness

def Request.isAnnouncement : Request → Bool
  | announce .. => true
  | _ => false

/-- Not a sleep that fails. -/
def Exchange.Rests : Exchange → Prop
  | ⟨.sleep _, .error _⟩ => False
  | _ => True

/-- Creation requests go to a broker behind a client that has been given these batches before, and
every sleep returns. -/
inductive Posts (script : Nat → Reaction) (timeout : Number) :
    List (List NewTopic) → List Exchange → List (List NewTopic) → Prop where
  | ended {sent : List (List NewTopic)} : Posts script timeout sent [] sent
  | called {sent last : List (List NewTopic)} {specs : List TopicSpec} {rest : List Exchange}
      (onward : Posts script timeout ((ClusterBroker.create script timeout specs).run sent).2 rest
        last) :
      Posts script timeout sent (⟨.createTopics specs,
        ((ClusterBroker.create script timeout specs).run sent).1⟩ :: rest) last
  | other {sent last : List (List NewTopic)} {exchange : Exchange} {rest : List Exchange}
      (other : exchange.request.isCreation = false) (rests : exchange.Rests)
      (onward : Posts script timeout sent rest last) :
      Posts script timeout sent (exchange :: rest) last

namespace Posts

variable {script : Nat → Reaction} {timeout : Number} {sent last : List (List NewTopic)}
  {first rest : List Exchange} {specs : List TopicSpec} {calls : Nat}

/-- Every program has a run over such a broker. -/
theorem exists_runs {α : Type} (script : Nat → Reaction) (timeout : Number) (program : Program α)
    (sent : List (List NewTopic)) :
    ∃ trace value last, Runs program trace value ∧ Posts script timeout sent trace last := by
  induction program generalizing sent with
  | done value => exact ⟨[], value, sent, .done value, .ended⟩
  | ask r next ih =>
    cases r with
    | createTopics specs =>
      obtain ⟨trace, value, last, run, posts⟩ := ih _ _
      exact ⟨_, value, last, .ask _ run, .called posts⟩
    | _ =>
      obtain ⟨trace, value, last, run, posts⟩ := ih (Reconciler.obliging [] _) sent
      exact ⟨_, value, last, .ask _ run, .other rfl trivial posts⟩

theorem split (posts : Posts script timeout sent (first ++ rest) last) :
    ∃ middle, Posts script timeout sent first middle ∧ Posts script timeout middle rest last := by
  induction first generalizing sent with
  | nil => exact ⟨sent, .ended, posts⟩
  | cons exchange first ih =>
    cases posts with
    | called onward =>
      obtain ⟨middle, before, after⟩ := ih onward
      exact ⟨middle, .called before, after⟩
    | other other rests onward =>
      obtain ⟨middle, before, after⟩ := ih onward
      exact ⟨middle, .other other rests before, after⟩

/-- A request is answered as the client reacts to its batch, which it has been given once more. -/
theorem reacted {answer : Result Unit} (countable : ClusterBroker.Countable specs)
    (posts : Posts script timeout (ClusterBroker.sentBy specs calls)
      (⟨.createTopics specs, answer⟩ :: rest) last) :
    answer = ClusterBroker.outcome specs (script calls) ∧
      Posts script timeout (ClusterBroker.sentBy specs (calls + 1)) rest last := by
  cases posts with
  | called onward =>
    rw [ClusterBroker.run_create_sentBy countable] at onward ⊢
    exact ⟨rfl, onward⟩
  | other other => cases other

theorem other_inv {exchange : Exchange} (posts : Posts script timeout sent (exchange :: rest) last)
    (other : exchange.request.isCreation = false) :
    exchange.Rests ∧ Posts script timeout sent rest last := by
  cases posts with
  | called => cases other
  | other _ rests onward => exact ⟨rests, onward⟩

/-- A client is given nothing unless topics are to be created. -/
theorem eq_of_uncreated (posts : Posts script timeout sent rest last)
    (uncreated : ∀ e ∈ rest, e.request.isCreation = false) : last = sent := by
  induction posts with
  | ended => rfl
  | called => cases uncreated _ (.head _)
  | other _ _ _ ih => exact ih fun e mem => uncreated e (.tail _ mem)

end Posts

namespace Reconciler

variable {policy : RetryPolicy} {script : Nat → Reaction} {timeout : Number}
  {sent last : List (List NewTopic)} {trace rest : List Exchange} {specs : List TopicSpec}
  {past made left : Nat} {outcome : Result Unit}

/-- Attempts that failed and then one more, after some that failed before, with the delays that the
policy has for them. -/
structure Makes (policy : RetryPolicy) (script : Nat → Reaction) (specs : List TopicSpec)
    (past made : Nat) (trace : List Exchange) : Prop where
  failed : ∀ n < made, ClusterBroker.outcome specs (script (past + n)) ≠ .ok ()
  called : (callsOf Request.isCreation trace).length = made + 1
  silent : callsOf Request.isAnnouncement trace = []
  slept : (delays trace).map Except.ok =
    (List.range' (past + 1) made).map fun n : Nat => policy.delayAfter n

theorem Makes.again {answer : Result Unit} {message : String} {pause : Number}
    (makes : Makes policy script specs (past + 1) made rest)
    (failed : ClusterBroker.outcome specs (script past) ≠ .ok ())
    (delay : policy.delayAfter (past + 1) = .ok pause) :
    Makes policy script specs past (made + 1) ([⟨.createTopics specs, answer⟩] ++
      [logged .warning message, ⟨.sleep pause, .ok ()⟩] ++ rest) where
  failed n less := by
    cases n with
    | zero => exact failed
    | succ n =>
      have later := makes.failed n (by omega)
      rwa [Nat.add_right_comm] at later
  called := congrArg (· + 1) makes.called
  silent := makes.silent
  slept := by
    have here : policy.delayAfter (past + 1 : Nat) = .ok pause := by exact_mod_cast delay
    rw [List.range'_succ, List.map_cons, ← makes.slept, here]
    rfl

/-- A retried creation request is made until the client reacts to it as it should, and is given up
after the last attempt. -/
theorem Attempts.makes {number : Int}
    (attempts : Attempts policy (Program.request (.createTopics specs)) number left trace outcome)
    (numbered : number = past + 1) (countable : ClusterBroker.Countable specs)
    (foreseen : ∀ n ≤ past + left, (script n).Foreseen (specs.map (·.name)))
    (timed : ∀ n : Nat, past < n → n ≤ past + left → ∃ pause, policy.delayAfter n = .ok pause)
    (posts : Posts script timeout (ClusterBroker.sentBy specs past) trace last) :
    ∃ made ≤ left, Makes policy script specs past made trace ∧
      last = ClusterBroker.sentBy specs (past + made + 1) ∧
      ((ClusterBroker.outcome specs (script (past + made)) = .ok () ∧ outcome = .ok ()) ∨
        made = left ∧ ∃ failure,
          ClusterBroker.outcome specs (script (past + made)) = .error failure ∧ outcome =
            .error (.because (.retryExhausted (past + made + 1) failure.fault) failure)) := by
  have here : past ≤ past + left := Nat.le_add_right _ _
  induction attempts generalizing past with
  | returned run =>
    obtain rfl := runs_request_iff.mp run
    obtain ⟨answer, ended⟩ := posts.reacted countable
    cases ended
    refine ⟨0, Nat.zero_le _, ?_, rfl, .inl ⟨answer.symm, rfl⟩⟩
    exact ⟨fun n less => absurd less (Nat.not_lt_zero n), rfl, rfl, rfl⟩
  | refused run final =>
    obtain rfl := runs_request_iff.mp run
    obtain ⟨answer, -⟩ := posts.reacted countable
    rw [ClusterBroker.outcome_retryable (foreseen past here) answer.symm] at final
    cases final
  | @exhausted number _ failure _ run =>
    obtain rfl := runs_request_iff.mp run
    obtain ⟨answer, ended⟩ := posts.reacted countable
    obtain rfl := ended.eq_of_uncreated (by simp [logged, Request.isCreation])
    refine ⟨0, Nat.le_refl 0, ?_, rfl, .inr ⟨rfl, failure, answer.symm, ?_⟩⟩
    · exact ⟨fun n less => absurd less (Nat.not_lt_zero n), rfl, rfl, rfl⟩
    · simp [numbered]
  | undelayed run _ delay =>
    obtain ⟨pause, timed⟩ := timed (past + 1) (by omega) (by omega)
    rw [numbered] at delay
    cases delay.symm.trans (by exact_mod_cast timed)
  | cutShort run =>
    obtain rfl := runs_request_iff.mp run
    obtain ⟨-, onward⟩ := posts.reacted countable
    obtain ⟨-, onward⟩ := onward.other_inv rfl
    obtain ⟨woken, -⟩ := onward.other_inv rfl
    exact woken.elim
  | @again number left _ rest _ _ _ _ run _ delay more ih =>
    obtain rfl := runs_request_iff.mp run
    obtain ⟨answer, onward⟩ := posts.reacted countable
    have failed : ClusterBroker.outcome specs (script past) ≠ .ok () := by
      rw [← answer]
      exact fun h => by cases h
    obtain ⟨-, onward⟩ := onward.other_inv rfl
    obtain ⟨-, onward⟩ := onward.other_inv rfl
    obtain ⟨made, within, makes, sent, ended⟩ := @ih (past + 1) (by rw [numbered]; simp)
      (fun n less => foreseen n (by omega)) (fun n more less => timed n (by omega) (by omega))
      onward (Nat.le_add_right _ _)
    rw [numbered] at delay
    have shift : past + 1 + made = past + (made + 1) := by omega
    have count : ((past + 1 : Nat) : Int) + made + 1 = past + (made + 1 : Nat) + 1 := by omega
    rw [shift] at sent ended
    rw [count] at ended
    refine ⟨made + 1, Nat.succ_le_succ within, makes.again failed delay, sent, ?_⟩
    rcases ended with returned | ⟨all, refused⟩
    · exact .inl returned
    · exact .inr ⟨congrArg (· + 1) all, refused⟩

section Phase

variable {reconciler : Reconciler} {start stop : Phase} {result : Result Unit}

variable (countable : ClusterBroker.Countable reconciler.topics)
  (foreseen : ∀ n < reconciler.retry.maxAttempts.toNat,
    (script n).Foreseen reconciler.topicNames)
  (timed : ∀ n : Nat, 1 ≤ n → n < reconciler.retry.maxAttempts.toNat →
    ∃ pause, reconciler.retry.delayAfter n = .ok pause)
include countable foreseen timed

/-- The first of the attempts that succeeds is the last; if none does, all of them are made. -/
theorem creatingTopics_makes (tried : CreatingTopics reconciler trace outcome)
    (posts : Posts script timeout [] trace last) :
    ∃ made < reconciler.retry.maxAttempts.toNat,
      Makes reconciler.retry script reconciler.topics 0 made trace ∧
      last = ClusterBroker.sentBy reconciler.topics (made + 1) ∧
      ((ClusterBroker.outcome reconciler.topics (script made) = .ok () ∧ outcome = .ok ()) ∨
        made + 1 = reconciler.retry.maxAttempts.toNat ∧ ∃ failure,
          ClusterBroker.outcome reconciler.topics (script made) = .error failure ∧
          outcome = .error (.because (.retryExhausted reconciler.retry.maxAttempts failure.fault)
            failure)) := by
  have whole := attempts_eq_spare reconciler.retry
  have from_none : Posts script timeout (ClusterBroker.sentBy reconciler.topics 0) trace last := by
    rw [ClusterBroker.sentBy_zero]
    exact posts
  obtain ⟨made, within, makes, sent, ended⟩ := tried.makes rfl countable
    (fun n less => foreseen n (by omega)) (fun n more less => timed n more (by omega)) from_none
  simp only [Nat.zero_add] at sent ended
  refine ⟨made, by omega, makes, sent, ended.imp_right ?_⟩
  rintro ⟨rfl, failure, answer, rfl⟩
  refine ⟨by omega, failure, answer, ?_⟩
  rw [whole]
  simp

/-- Creation is announced after the attempt that succeeds, and not at all if none does. -/
theorem createTopics_makes (goes : Goes reconciler.createTopics start trace result stop)
    (posts : Posts script timeout [] trace last) :
    ∃ made < reconciler.retry.maxAttempts.toNat,
      (∀ n < made, ClusterBroker.outcome reconciler.topics (script n) ≠ .ok ()) ∧
      last = ClusterBroker.sentBy reconciler.topics (made + 1) ∧
      (callsOf Request.isCreation trace).length = made + 1 ∧
      (delays trace).map Except.ok =
        (List.range' 1 made).map (fun n : Nat => reconciler.retry.delayAfter n) ∧
      ((ClusterBroker.outcome reconciler.topics (script made) = .ok () ∧
          callsOf Request.isAnnouncement trace =
            [⟨.announce start (.topicsCreated reconciler.topicNames), result⟩]) ∨
        made + 1 = reconciler.retry.maxAttempts.toNat ∧
          callsOf Request.isAnnouncement trace = [] ∧ ∃ failure,
            ClusterBroker.outcome reconciler.topics (script made) = .error failure ∧
            result = .error (givenUp reconciler.retry reconciler.creationGivenUp failure)) := by
  obtain ⟨-, message, attempts, ⟨raised, tried, rfl, rfl⟩ | ⟨accepted, tried, rfl⟩⟩ :=
    goes_createTopics goes
  · obtain ⟨-, posts⟩ := posts.other_inv rfl
    obtain ⟨made, within, ⟨failed, called, silent, slept⟩, sent, ended⟩ :=
      creatingTopics_makes countable foreseen timed tried posts
    simp only [Nat.zero_add] at failed slept
    refine ⟨made, within, failed, sent, called, slept, .inr ?_⟩
    rcases ended with ⟨-, h⟩ | ⟨all, failure, answer, h⟩
    · cases h
    · cases h
      exact ⟨all, silent, failure, answer, rfl⟩
  · obtain ⟨middle, before, after⟩ := posts.split
    obtain rfl := after.eq_of_uncreated (by simp [logged, Request.isCreation])
    obtain ⟨-, posts⟩ := before.other_inv rfl
    obtain ⟨made, within, ⟨failed, called, silent, slept⟩, sent, ended⟩ :=
      creatingTopics_makes countable foreseen timed tried posts
    simp only [Nat.zero_add] at failed slept
    refine ⟨made, within, failed, sent, ?_, ?_, .inl ?_⟩
    · rw [callsOf_append, List.length_append]
      exact congrArg (· + 0) called
    · rw [delays_append, List.map_append]
      exact (List.append_nil _).trans slept
    · rcases ended with ⟨answer, -⟩ | ⟨-, failure, -, h⟩
      · refine ⟨answer, ?_⟩
        rw [callsOf_append]
        exact congrArg (· ++ _) silent
      · cases h

omit countable foreseen timed

/-- One call of a broker behind a client returns exactly if the client takes the batch and every
topic is there, created or already existing; otherwise it names the first topic that is not there,
with what its delivery raised. Topics are created, and announced once, with the first attempt whose
call returns; if no attempt is left they are given up, and nothing is announced. -/
theorem createTopics_over_client (countable : ClusterBroker.Countable reconciler.topics)
    (foreseen : ∀ n < reconciler.retry.maxAttempts.toNat,
      (script n).Foreseen reconciler.topicNames)
    (timed : ∀ n : Nat, 1 ≤ n → n < reconciler.retry.maxAttempts.toNat →
      ∃ pause, reconciler.retry.delayAfter n = .ok pause) :
    let names := reconciler.topicNames
    let attempts := reconciler.retry.maxAttempts.toNat
    let settles (n : Nat) := ClusterBroker.Sendable reconciler.topics ∧ (script n).Settles names
    (∀ sent : List (List NewTopic), sent.length < attempts →
      let reply := ((ClusterBroker.create script timeout reconciler.topics).run sent).1
      (reply = .ok () ↔ settles sent.length) ∧
      ∀ fate, ClusterBroker.Sendable reconciler.topics → script sent.length = .returns fate →
        ¬ settles sent.length →
          ∃ name cause, names.eraseDups.find? (fun name => ¬ (fate name).Accepted) = some name ∧
            (fate name).raised? = some cause ∧
            reply = .error (ClusterBroker.refusal name cause)) ∧
    (∀ start, ∃ trace result stop last, Goes reconciler.createTopics start trace result stop ∧
      Posts script timeout [] trace last) ∧
    ∀ start trace result stop last, Goes reconciler.createTopics start trace result stop →
      Posts script timeout [] trace last →
      (∀ made < attempts, settles made → (∀ n < made, ¬ settles n) →
        callsOf Request.isAnnouncement trace = [⟨.announce start (.topicsCreated names), result⟩] ∧
        ((∀ e ∈ trace, e.Smooth) → result = .ok ()) ∧
        last = List.replicate (made + 1) (ClusterBroker.batch reconciler.topics) ∧
        (callsOf Request.isCreation trace).length = made + 1 ∧
        (delays trace).map Except.ok =
          (List.range' 1 made).map (fun n : Nat => reconciler.retry.delayAfter n)) ∧
      ((∀ n < attempts, ¬ settles n) →
        callsOf Request.isAnnouncement trace = [] ∧
        (∃ failure, ClusterBroker.outcome reconciler.topics (script (attempts - 1)) =
            .error failure ∧
          result = .error (givenUp reconciler.retry reconciler.creationGivenUp failure)) ∧
        last = ClusterBroker.sentBy reconciler.topics attempts ∧
        (callsOf Request.isCreation trace).length = attempts ∧
        (delays trace).map Except.ok =
          (List.range' 1 (attempts - 1)).map (fun n : Nat => reconciler.retry.delayAfter n)) := by
  intro names attempts settles
  have outcome_eq : ∀ n < attempts,
      (ClusterBroker.outcome reconciler.topics (script n) = .ok () ↔ settles n) :=
    fun n less => ClusterBroker.outcome_eq_ok_iff (foreseen n less)
  refine ⟨fun sent less => ?_, fun start => ?_, fun start trace result stop last goes posts => ?_⟩
  · rw [ClusterBroker.run_create countable]
    refine ⟨outcome_eq _ less, fun fate sendable reacts unsettled => ?_⟩
    have foreseen := foreseen _ less
    simp only [settles, reacts] at foreseen unsettled ⊢
    exact ClusterBroker.outcome_of_refused sendable foreseen
      fun settled => unsettled ⟨sendable, settled⟩
  · obtain ⟨trace, value, last, run, posts⟩ :=
      Posts.exists_runs script timeout (reconciler.createTopics.run.run start) []
    exact ⟨trace, value.1, value.2, last, run, posts⟩
  · obtain ⟨made, within, failed, sent, called, slept, ended⟩ :=
      createTopics_makes countable foreseen timed goes posts
    refine ⟨fun first less settled unsettled => ?_, fun unsettled => ?_⟩
    · -- No attempt before the first that settles returns, and none is made after one that returns.
      obtain rfl : first = made := by
        rcases Nat.lt_trichotomy first made with early | same | late
        · exact absurd ((outcome_eq first less).mpr settled) (failed first early)
        · exact same
        · rcases ended with ⟨answer, -⟩ | ⟨all, -⟩
          · exact absurd ((outcome_eq made within).mp answer) (unsettled made late)
          · omega
      rcases ended with ⟨-, told⟩ | ⟨-, -, failure, answer, -⟩
      · refine ⟨told, fun smooth => ?_, ?_, called, slept⟩
        · have among : (⟨.announce start (.topicsCreated names), result⟩ : Exchange) ∈ trace :=
            List.mem_of_mem_filter (told ▸ List.mem_singleton_self _)
          cases result with
          | ok _ => rfl
          | error failure => exact (smooth _ among).elim
        · rw [sent, ClusterBroker.sentBy_of_sendable settled.1]
      · rw [(outcome_eq first less).mpr settled] at answer
        cases answer
    · rcases ended with ⟨answer, -⟩ | ⟨all, silent, failure, answer, raised⟩
      · exact absurd ((outcome_eq made within).mp answer) (unsettled made within)
      · have whole : attempts = made + 1 := all.symm
        rw [whole, Nat.add_sub_cancel]
        exact ⟨silent, ⟨failure, answer, raised⟩, sent, called, slept⟩

/-- A client that is down at first, then refuses one topic, and then finds the other one created. -/
def recovering : Nat → Reaction
  | 0 => .raises (.of (.broker (.coded (-195) "down")))
  | 1 => .returns fun name =>
    if name = "payments" then .failed (.of (.broker (.coded 29 "denied"))) else .created
  | _ => .returns fun name =>
    if name = "payments" then .created else .failed (.of (.broker (.coded 36 "exists")))

theorem recovering_foreseen (names : List String) (n : Nat) : (recovering n).Foreseen names := by
  unfold recovering
  split
  · rfl
  · intro name _
    simp only
    split
    · exact .inl ⟨_, rfl⟩
    · trivial
  · intro name _
    simp only
    split
    · trivial
    · exact .inl ⟨_, rfl⟩

/-- The third batch settles, in which one topic is created and the other exists already. -/
theorem createTopics_over_client_recovering :
    let reconciler : Reconciler := ⟨ordersOnly.topics ++ [payments], .default, .default⟩
    ClusterBroker.Countable reconciler.topics ∧
    (∀ n < reconciler.retry.maxAttempts.toNat, (recovering n).Foreseen reconciler.topicNames) ∧
    (∀ n : Nat, 1 ≤ n → n < reconciler.retry.maxAttempts.toNat →
      ∃ pause, reconciler.retry.delayAfter n = .ok pause) ∧
    ∃ trace result stop last, Goes reconciler.createTopics .creatingTopics trace result stop ∧
      Posts recovering (.int 10) [] trace last ∧
      callsOf Request.isAnnouncement trace =
        [⟨.announce .creatingTopics (.topicsCreated ["orders", "payments"]), result⟩] ∧
      last = List.replicate 3 [⟨"orders", 1, 1⟩, ⟨"payments", 1, 1⟩] ∧
      (callsOf Request.isCreation trace).length = 3 := by
  intro reconciler
  have countable : ClusterBroker.Countable reconciler.topics := by
    unfold ClusterBroker.Countable
    decide
  have timed : ∀ n : Nat, 1 ≤ n → n < reconciler.retry.maxAttempts.toNat →
      ∃ pause, reconciler.retry.delayAfter n = .ok pause := by
    intro n more less
    have small : n < 3 := less
    have computed : (RetryPolicy.default.delayAfter n).toBool = true := by
      obtain rfl | rfl : n = 1 ∨ n = 2 := by omega
      · decide +kernel
      · decide +kernel
    cases delay : reconciler.retry.delayAfter n with
    | ok pause => exact ⟨pause, rfl⟩
    | error reason =>
      rw [show RetryPolicy.default.delayAfter n = _ from delay] at computed
      cases computed
  have foreseen : ∀ n < reconciler.retry.maxAttempts.toNat,
      (recovering n).Foreseen reconciler.topicNames := fun n _ => recovering_foreseen _ n
  obtain ⟨-, exist, each⟩ :=
    @createTopics_over_client recovering (.int 10) reconciler countable foreseen timed
  obtain ⟨trace, result, stop, last, goes, posts⟩ := exist .creatingTopics
  obtain ⟨told, -, sent, called, -⟩ := (each _ _ _ _ _ goes posts).1 2 (by decide)
    (by decide +kernel) (by decide +kernel)
  exact ⟨countable, foreseen, timed, trace, result, stop, last, goes, posts, told, sent, called⟩

end Phase

end Reconciler

end ClusterReadiness
