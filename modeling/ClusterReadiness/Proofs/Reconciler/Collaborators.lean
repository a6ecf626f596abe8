import ClusterReadiness.Proofs.Broker.Appearance
import ClusterReadiness.Proofs.Reconciler.Bounds
import ClusterReadiness.Proofs.Reconciler.RegistryBudget
import ClusterReadiness.Registry.InMemory

/-!
# Runs against collaborators kept in memory

The broker and the registry move on with every call that is made of them, and nothing else that is
asked for fails. What a run finds in its listings and its probes is then known before it begins.
-/

namespace ClusterReadiness

/-- The broker and the registry that a run is made against. -/
structure Collaborators where
  broker : InMemoryBroker
  registry : InMemoryRegistry

namespace Collaborators

/-- What a request leaves behind. -/
def after (there : Collaborators) : Request → Collaborators
  | .createTopics specs => { there with broker := (there.broker.createTopics specs).1 }
  | .listTopics => { there with broker := there.broker.listTopics.1 }
  | .probe => { there with registry := there.registry.probe.1 }
  | _ => there

/-- No sleep and no announcement fails, and no shutdown is asked for. -/
def answer (there : Collaborators) : (r : Request) → r.Answer
  | .listTopics => Except.ok there.broker.listTopics.2
  | .probe => Except.ok there.registry.probe.2
  | r => Reconciler.obliging [] r

/-- The time is for others to tell. -/
def Answers (there : Collaborators) (exchange : Exchange) : Prop :=
  exchange.request ≠ .clock → exchange.answer = there.answer exchange.request

theorem Answers.eq {there : Collaborators} {request : Request} {answer : request.Answer}
    (answers : there.Answers ⟨request, answer⟩) (timeless : request ≠ .clock) :
    answer = there.answer request :=
  answers timeless

end Collaborators

/-- Each request is answered by the collaborators as the requests before it have left them. -/
inductive Against : Collaborators → List Exchange → Collaborators → Prop where
  | ended {there : Collaborators} : Against there [] there
  | more {there last : Collaborators} {exchange : Exchange} {rest : List Exchange}
      (answers : there.Answers exchange)
      (onward : Against (there.after exchange.request) rest last) :
      Against there (exchange :: rest) last

/-- What an exchange does to the broker. -/
def Exchange.operation? (exchange : Exchange) : Option InMemoryBroker.Operation :=
  match exchange.request with
  | .createTopics specs => some (.create specs)
  | .listTopics => some .list
  | _ => none

/-- The history that a trace is for the broker. -/
def operations (trace : List Exchange) : List InMemoryBroker.Operation :=
  trace.filterMap Exchange.operation?

/-- The listing that a broker answers with when it is listed for the given time, the first time
being one. -/
def InMemoryBroker.shown (broker : InMemoryBroker) (position : Nat) : Listing :=
  (broker.after (List.replicate (position - 1) .list)).listTopics.2

/-- The probes that a healthy registry still fails. -/
def InMemoryRegistry.away (registry : InMemoryRegistry) : Nat :=
  (registry.healthyAfter - registry.probeCalls).toNat

namespace Against

variable {α : Type} {there last : Collaborators} {trace first rest : List Exchange}

theorem append_iff : Against there (first ++ rest) last ↔
    ∃ middle, Against there first middle ∧ Against middle rest last := by
  induction first generalizing there with
  | nil =>
    constructor
    · exact fun against => ⟨there, .ended, against⟩
    · rintro ⟨_, ⟨⟩, onward⟩
      exact onward
  | cons exchange first ih =>
    constructor
    · rintro (_ | ⟨answers, onward⟩)
      obtain ⟨middle, before, after⟩ := ih.mp onward
      exact ⟨middle, .more answers before, after⟩
    · rintro ⟨middle, _ | ⟨answers, before⟩, after⟩
      exact .more answers (ih.mpr ⟨middle, before, after⟩)

/-- Every program has a run against given collaborators. -/
theorem exists_runs (program : Program α) (there : Collaborators) :
    ∃ trace value last, Runs program trace value ∧ Against there trace last := by
  induction program generalizing there with
  | done value => exact ⟨[], value, there, .done value, .ended⟩
  | ask r next ih =>
    obtain ⟨trace, value, last, run, against⟩ := ih (there.answer r) (there.after r)
    exact ⟨_, value, last, .ask _ run, .more (fun _ => rfl) against⟩

/-- What holds of every answer of collaborators holds throughout. -/
theorem forall_mem {P : Exchange → Prop}
    (each : ∀ (there : Collaborators) exchange, there.Answers exchange → P exchange)
    (against : Against there trace last) : ∀ e ∈ trace, P e := by
  induction against with
  | ended => simp
  | more answers _ ih => exact List.forall_mem_cons.mpr ⟨each _ _ answers, ih⟩

/-- Nothing fails. -/
theorem fine (against : Against there trace last) : ∀ e ∈ trace, e.failure? = none := by
  refine forall_mem (fun there exchange answers => ?_) against
  obtain ⟨request, answer⟩ := exchange
  cases request with
  | clock | record | isInterrupted => rfl
  | _ =>
    obtain rfl := answers.eq (by simp)
    rfl

theorem uninterrupted (against : Against there trace last) :
    (⟨.isInterrupted, true⟩ : Exchange) ∉ trace := by
  intro among
  refine forall_mem (P := (· ≠ ⟨.isInterrupted, true⟩)) ?_ against _ among rfl
  rintro there exchange answers rfl
  cases answers.eq (by simp)

/-- Nobody moves unless called. -/
theorem eq_of_quiet (against : Against there trace last)
    (quiet : ∀ e ∈ trace, ¬ e.request.IsPortCall) : last = there := by
  induction against with
  | ended => rfl
  | @more there last exchange rest answers _ ih =>
    obtain ⟨here, others⟩ := List.forall_mem_cons.mp quiet
    obtain ⟨request, answer⟩ := exchange
    cases request with
    | createTopics | listTopics | probe => exact absurd trivial here
    | _ => exact ih others

section Broker

theorem broker_eq (against : Against there trace last) :
    last.broker = there.broker.after (operations trace) := by
  induction against with
  | ended => rfl
  | @more there last exchange rest answers _ ih =>
    obtain ⟨request, answer⟩ := exchange
    cases request <;> exact ih

variable (kept : ∀ e ∈ trace, e.request.isCreation = false)
include kept

/-- If nothing is created, all that happens to the broker is that it is listed. -/
theorem operations_eq : operations trace =
    List.replicate (callsOf Request.isListing trace).length .list := by
  induction trace with
  | nil => rfl
  | cons exchange rest ih =>
    obtain ⟨here, others⟩ := List.forall_mem_cons.mp kept
    obtain ⟨request, answer⟩ := exchange
    cases request with
    | createTopics => cases here
    | listTopics => exact congrArg (.list :: ·) (ih others)
    | _ => exact ih others

/-- The listings are those that the broker shows one time after the other. -/
theorem follows (against : Against there trace last) : Follows there.broker.shown 1 trace := by
  induction against with
  | ended => exact fun k listing h => by cases h
  | @more there last exchange rest answers _ ih =>
    obtain ⟨here, others⟩ := List.forall_mem_cons.mp kept
    intro k listing found
    obtain ⟨request, answer⟩ := exchange
    cases request with
    | createTopics => cases here
    | listTopics =>
      obtain rfl := answers.eq (by simp)
      cases k with
      | zero =>
        cases found
        rfl
      | succ k =>
        -- The rest is answered by the broker listed once more.
        rw [ih others k listing found, Nat.add_comm 1 (k + 1), Nat.add_comm 1 k]
        rfl
    | _ => exact ih others k listing found

end Broker

section Registry

theorem registry_eq (against : Against there trace last)
    (kept : ∀ e ∈ trace, e.request.isProbe = false) : last.registry = there.registry := by
  induction against with
  | ended => rfl
  | @more there last exchange rest answers _ ih =>
    obtain ⟨here, others⟩ := List.forall_mem_cons.mp kept
    obtain ⟨request, answer⟩ := exchange
    cases request with
    | probe => cases here
    | _ => exact ih others

/-- A healthy registry fails the probes that it is away by, and no other. -/
theorem probed (against : Against there trace last) (healthy : there.registry.healthy = true)
    {k : Nat} {found : Bool} (probed : (healths trace)[k]? = some found) :
    found = decide (there.registry.away ≤ k) := by
  induction against generalizing k with
  | ended => cases probed
  | @more there last exchange rest answers _ ih =>
    obtain ⟨request, answer⟩ := exchange
    cases request with
    | probe =>
      obtain rfl := answers.eq (by simp)
      cases k with
      | zero =>
        cases probed
        show (there.registry.healthy && decide _) = _
        rw [healthy, Bool.true_and, InMemoryRegistry.away]
        exact decide_eq_decide.mpr (by omega)
      | succ k =>
        rw [ih healthy probed]
        refine decide_eq_decide.mpr ?_
        simp only [Collaborators.after, InMemoryRegistry.probe, InMemoryRegistry.away]
        omega
    | _ => exact ih healthy probed

end Registry

end Against

end ClusterReadiness
