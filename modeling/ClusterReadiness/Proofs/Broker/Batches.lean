import ClusterReadiness.Broker.Cluster
import Mathlib.Tactic.Common

/-!
# What a batch of topics comes to

A client reacts to a batch as a whole, or tells of each of its topics what became of it. The batch
is settled if it was handed on and every one of its topics is there now, whoever created it.
Otherwise the first topic that is not there is reported, with what its delivery raised.
-/

namespace ClusterReadiness

namespace Delivery

/-- What waiting for the delivery raises, if it does. -/
def raised? : Delivery → Option Failure
  | created => none
  | failed failure => some failure
  | pending => some (.of (.timeout ""))

/-- The topic was created, or was already there. -/
def Accepted : Delivery → Prop
  | created => True
  | failed failure => ClusterBroker.isAlreadyThere failure.fault = true
  | pending => False

instance : DecidablePred Accepted
  | created => .isTrue trivial
  | failed failure => decEq (ClusterBroker.isAlreadyThere failure.fault) true
  | pending => .isFalse id

/-- A delivery fails with what the broker says, or with a timeout. -/
def Foreseen : Delivery → Prop
  | failed failure =>
    (∃ error, failure.fault = .broker error) ∨ ∃ text, failure.fault = .timeout text
  | _ => True

end Delivery

/-- What a client does when it is given a batch: it raises, or it takes the batch and says of every
name what becomes of it. -/
inductive Reaction where
  | raises (failure : Failure)
  | returns (fate : String → Delivery)

namespace Reaction

/-- One delivery for each name, in the order in which the names first appear. -/
def answer (topics : List NewTopic) : Reaction → Result (List (String × Delivery))
  | raises failure => .error failure
  | returns fate => .ok ((topics.map (·.name)).eraseDups.map fun name => (name, fate name))

/-- The client took the batch, and every topic is there. -/
def Settles (names : List String) : Reaction → Prop
  | raises _ => False
  | returns fate => ∀ name ∈ names, (fate name).Accepted

instance (names : List String) : DecidablePred (Settles names)
  | raises _ => .isFalse id
  | returns fate => inferInstanceAs (Decidable (∀ name ∈ names, (fate name).Accepted))

/-- No interrupt of either kind is raised, and deliveries fail in the ways of a client. -/
def Foreseen (names : List String) : Reaction → Prop
  | raises failure => failure.isRetryable = true
  | returns fate => ∀ name ∈ names, (fate name).Foreseen

end Reaction

namespace ClusterBroker

section Deliveries

variable {name : String} {delivery : Delivery} {deliveries : List (String × Delivery)}

/-- What is said of a topic whose delivery raised a failure. -/
def complaint (name : String) (cause : Failure) : String :=
  match cause.fault with
  | .broker _ => "topic " ++ name ++ ": " ++ cause.message
  | _ => "topic " ++ name ++ ": timed out"

/-- The admin call failed at a topic, because of what its delivery raised. -/
def refusal (name : String) (cause : Failure) : Failure :=
  .because (.adminCall createOperation (complaint name cause)) cause

theorem settle_of_accepted (name : String) (accepted : delivery.Accepted) :
    ∃ line, settle name delivery = .ok line := by
  cases delivery with
  | created => exact ⟨_, rfl⟩
  | pending => exact accepted.elim
  | failed failure =>
    obtain ⟨fault, causes⟩ := failure
    cases fault with
    | broker error => exact ⟨_, if_pos accepted⟩
    | _ => cases accepted

theorem settle_of_refused (name : String) (foreseen : delivery.Foreseen)
    (refused : ¬ delivery.Accepted) :
    ∃ cause, delivery.raised? = some cause ∧
      settle name delivery = .error (refusal name cause) := by
  cases delivery with
  | created => exact absurd trivial refused
  | pending => exact ⟨_, rfl, rfl⟩
  | failed failure =>
    obtain ⟨fault, causes⟩ := failure
    obtain ⟨error, rfl⟩ | ⟨text, rfl⟩ := foreseen
    · exact ⟨_, rfl, if_neg refused⟩
    · exact ⟨_, rfl, rfl⟩

/-- What waiting for the deliveries one after the other comes to, whatever is logged of it. -/
def verdict : List (String × Delivery) → Result Unit
  | [] => .ok ()
  | (name, delivery) :: rest => do
    let _ ← settle name delivery
    verdict rest

theorem settleAll_eq {m : Type → Type} [Monad m] [LawfulMonad m]
    (deliveries : List (String × Delivery)) :
    settleAll (fun _ _ => pure ()) deliveries = (pure (verdict deliveries) : m (Result Unit)) := by
  induction deliveries with
  | nil => rfl
  | cons head rest ih =>
    obtain ⟨name, delivery⟩ := head
    unfold settleAll verdict
    cases settle name delivery with
    | error failure => rfl
    | ok line =>
      simp only [pure_bind]
      exact ih

theorem verdict_of_accepted (accepted : ∀ d ∈ deliveries, d.2.Accepted) :
    verdict deliveries = .ok () := by
  induction deliveries with
  | nil => rfl
  | cons head rest ih =>
    obtain ⟨here, others⟩ := List.forall_mem_cons.mp accepted
    obtain ⟨line, settled⟩ := settle_of_accepted head.1 here
    rw [verdict, settled]
    exact ih others

/-- The first topic that is not there decides. -/
theorem verdict_of_refused {first : String × Delivery} (foreseen : first.2.Foreseen)
    (found : deliveries.find? (fun d => ¬ d.2.Accepted) = some first) :
    ∃ cause, first.2.raised? = some cause ∧
      verdict deliveries = .error (refusal first.1 cause) := by
  induction deliveries with
  | nil => cases found
  | cons head rest ih =>
    by_cases accepted : head.2.Accepted
    · rw [List.find?_cons_of_neg (by simpa using accepted)] at found
      obtain ⟨line, settled⟩ := settle_of_accepted head.1 accepted
      obtain ⟨cause, raised, ended⟩ := ih found
      refine ⟨cause, raised, ?_⟩
      rw [verdict, settled]
      exact ended
    · rw [List.find?_cons_of_pos (by simpa using accepted)] at found
      obtain rfl := Option.some.inj found
      obtain ⟨cause, raised, settled⟩ := settle_of_refused head.1 foreseen accepted
      refine ⟨cause, raised, ?_⟩
      rw [verdict, settled]
      rfl

end Deliveries

/-! ## One call -/

section Calls

/-- Names without a null character, which can be handed on. -/
def Sendable (specs : List TopicSpec) : Prop :=
  ∀ spec ∈ specs, spec.name.toList.contains '\x00' = false

instance (specs : List TopicSpec) : Decidable (Sendable specs) :=
  inferInstanceAs (Decidable (∀ spec ∈ specs, spec.name.toList.contains '\x00' = false))

/-- Counts that fit a signed 32-bit integer. -/
def Countable (specs : List TopicSpec) : Prop :=
  ∀ spec ∈ specs, spec.partitions < 2147483648 ∧ spec.replication < 2147483648

def batch (specs : List TopicSpec) : List NewTopic :=
  specs.map fun spec => ⟨spec.name, spec.partitions, spec.replication⟩

/-- What topics whose names cannot be handed on are refused with. -/
def unsendable : Failure := .of (.invalidValue "embedded null character")

/-- A client that reacts by how many batches it has been given, and keeps them in order. -/
def scripted (script : Nat → Reaction) : ClusterClient (StateM (List (List NewTopic))) where
  createTopics topics _ _ := do
    let sent ← get
    set (sent ++ [topics])
    return (script sent.length).answer topics
  listTopics _ := return .ok []

/-- One call of the broker behind such a client. -/
def create (script : Nat → Reaction) (timeout : Number) (specs : List TopicSpec) :
    StateM (List (List NewTopic)) (Result Unit) :=
  createTopics (scripted script) (fun _ _ => pure ()) timeout specs

/-- What the call is answered if the client reacts so. -/
def outcome (specs : List TopicSpec) (reaction : Reaction) : Result Unit :=
  if Sendable specs then
    match reaction.answer (batch specs) with
    | .ok deliveries => verdict deliveries
    | .error failure =>
      if announcesCreate failure.fault then
        .error (.because (.adminCall createOperation failure.message) failure)
      else .error failure
  else .error unsendable

/-- The batches that a client has been given after so many calls. -/
def sentBy (specs : List TopicSpec) (calls : Nat) : List (List NewTopic) :=
  if Sendable specs then List.replicate calls (batch specs) else []

variable {specs : List TopicSpec} {reaction : Reaction} {failure : Failure}
  {fate : String → Delivery}

@[simp] theorem sentBy_zero : sentBy specs 0 = [] := ite_self []

theorem sentBy_of_sendable (sendable : Sendable specs) (calls : Nat) :
    sentBy specs calls = List.replicate calls (batch specs) :=
  if_pos sendable

theorem count_eq_ok {n : Int} (small : n < 2147483648) : NewTopic.count n = .ok n := if_pos small

theorem mapM_ofSpec (countable : Countable specs) : specs.mapM NewTopic.ofSpec =
    if Sendable specs then .ok (batch specs) else .error unsendable := by
  induction specs with
  | nil => rfl
  | cons spec rest ih =>
    obtain ⟨⟨partitions, replication⟩, others⟩ := List.forall_mem_cons.mp countable
    rw [List.mapM_cons, ih others]
    by_cases null : spec.name.toList.contains '\x00' = true
    · have unsent : ¬ Sendable (spec :: rest) := fun sendable => by
        rw [sendable spec (.head _)] at null
        cases null
      simp only [NewTopic.ofSpec, null, if_neg unsent]
      rfl
    · have plain : spec.name.toList.contains '\x00' = false := Bool.eq_false_iff.mpr null
      have sendable_iff : Sendable (spec :: rest) ↔ Sendable rest :=
        List.forall_mem_cons.trans (and_iff_right plain)
      simp only [NewTopic.ofSpec, plain, count_eq_ok partitions, count_eq_ok replication,
        sendable_iff]
      by_cases sendable : Sendable rest
      · simp only [if_pos sendable]
        rfl
      · simp only [if_neg sendable]
        rfl

/-- A call hands the batch on once, if it can be, and is answered by how the client reacts. -/
theorem run_create (countable : Countable specs) (script : Nat → Reaction) (timeout : Number)
    (sent : List (List NewTopic)) : (create script timeout specs).run sent =
      (outcome specs (script sent.length),
        if Sendable specs then sent ++ [batch specs] else sent) := by
  unfold create createTopics outcome
  rw [mapM_ofSpec countable]
  by_cases sendable : Sendable specs
  · have asked : ((scripted script).createTopics (batch specs) timeout timeout).run sent =
        ((script sent.length).answer (batch specs), sent ++ [batch specs]) := rfl
    simp only [if_pos sendable]
    rw [StateT.run_bind, asked]
    cases (script sent.length).answer (batch specs) with
    | ok deliveries =>
      simp only [settleAll_eq]
      rfl
    | error failure =>
      change StateT.run (if announcesCreate failure.fault = true then _ else _) _ = _
      by_cases announced : announcesCreate failure.fault = true
      · simp only [if_pos announced]
        rfl
      · simp only [if_neg announced]
        rfl
  · simp only [if_neg sendable]
    rfl

theorem run_create_sentBy (countable : Countable specs) (script : Nat → Reaction)
    (timeout : Number) (calls : Nat) : (create script timeout specs).run (sentBy specs calls) =
      (outcome specs (script calls), sentBy specs (calls + 1)) := by
  rw [run_create countable, sentBy, sentBy]
  by_cases sendable : Sendable specs
  · simp only [if_pos sendable, List.length_replicate, List.replicate_succ']
  · simp only [if_neg sendable, outcome]

theorem names_batch : (batch specs).map (·.name) = specs.map (·.name) := by
  simp [batch]

theorem outcome_of_settled (sendable : Sendable specs)
    (settled : (Reaction.returns fate).Settles (specs.map (·.name))) :
    outcome specs (.returns fate) = .ok () := by
  simp only [outcome, if_pos sendable, Reaction.answer, names_batch]
  refine verdict_of_accepted (List.forall_mem_map.mpr fun name mem => ?_)
  exact settled name (List.mem_eraseDups.mp mem)

/-- If the client took the batch, the first topic that is not there is reported. -/
theorem outcome_of_refused (sendable : Sendable specs)
    (foreseen : (Reaction.returns fate).Foreseen (specs.map (·.name)))
    (unsettled : ¬ (Reaction.returns fate).Settles (specs.map (·.name))) :
    ∃ name cause, (specs.map (·.name)).eraseDups.find? (fun name => ¬ (fate name).Accepted) =
        some name ∧ (fate name).raised? = some cause ∧
      outcome specs (.returns fate) = .error (refusal name cause) := by
  have refused : ∃ name ∈ (specs.map (·.name)).eraseDups, ¬ (fate name).Accepted := by
    by_contra none
    refine unsettled fun name mem => ?_
    by_contra refused
    exact none ⟨name, List.mem_eraseDups.mpr mem, refused⟩
  obtain ⟨other, mem, failing⟩ := refused
  obtain ⟨name, found⟩ : ∃ name, (specs.map (·.name)).eraseDups.find?
      (fun name => ¬ (fate name).Accepted) = some name :=
    Option.isSome_iff_exists.mp (List.find?_isSome.mpr ⟨other, mem, by simpa using failing⟩)
  have among := List.mem_eraseDups.mp (List.mem_of_find?_eq_some found)
  have first : ((specs.map (·.name)).eraseDups.map fun name => (name, fate name)).find?
      (fun d => ¬ d.2.Accepted) = some (name, fate name) := by
    rw [List.find?_map]
    exact congrArg _ found
  obtain ⟨cause, raised, failed⟩ := verdict_of_refused (foreseen name among) first
  refine ⟨name, cause, found, raised, ?_⟩
  simpa only [outcome, if_pos sendable, Reaction.answer, names_batch] using failed

/-- The call returns exactly if the client took the batch and every topic is there. -/
theorem outcome_eq_ok_iff (foreseen : reaction.Foreseen (specs.map (·.name))) :
    outcome specs reaction = .ok () ↔
      Sendable specs ∧ reaction.Settles (specs.map (·.name)) := by
  by_cases sendable : Sendable specs
  · cases reaction with
    | raises failure =>
      have failed : outcome specs (.raises failure) ≠ .ok () := by
        simp only [outcome, if_pos sendable, Reaction.answer]
        split <;> exact nofun
      exact ⟨fun settled => absurd settled failed, fun settled => settled.2.elim⟩
    | returns fate =>
      by_cases settled : (Reaction.returns fate).Settles (specs.map (·.name))
      · refine ⟨fun _ => ⟨sendable, settled⟩, fun _ => ?_⟩
        exact outcome_of_settled sendable settled
      · obtain ⟨name, cause, -, -, failed⟩ := outcome_of_refused sendable foreseen settled
        rw [failed]
        exact ⟨nofun, fun given => absurd given.2 settled⟩
  · simp only [outcome, if_neg sendable]
    exact ⟨nofun, fun given => absurd given.1 sendable⟩

/-- Whatever a call fails with, it may be made again. -/
theorem outcome_retryable (foreseen : reaction.Foreseen (specs.map (·.name)))
    (failed : outcome specs reaction = .error failure) : failure.isRetryable = true := by
  by_cases sendable : Sendable specs
  · cases reaction with
    | raises raised =>
      simp only [outcome, if_pos sendable, Reaction.answer] at failed
      split at failed <;> cases failed
      · rfl
      · exact foreseen
    | returns fate =>
      by_cases settled : (Reaction.returns fate).Settles (specs.map (·.name))
      · rw [outcome_of_settled sendable settled] at failed
        cases failed
      · obtain ⟨name, cause, -, -, refused⟩ := outcome_of_refused sendable foreseen settled
        rw [refused] at failed
        cases failed
        rfl
  · simp only [outcome, if_neg sendable] at failed
    cases failed
    rfl

end Calls

end ClusterBroker

end ClusterReadiness
