import ClusterReadiness.Rehearsal.Stage
import Mathlib.Order.Defs.Unbundled
import Mathlib.Tactic.Common

/-!
# Signals that arrive during port calls

Ports may answer as they like and keep books of their own. What the run relies on they change only
by the signals that arrive while they are at work: those go to the handlers in force, and a sleeper
that was interrupted stays interrupted. The rehearsed ports, which follow scripts, are of this kind.
-/

namespace ClusterReadiness

namespace Surroundings

/-- Whatever happens meanwhile, the handlers and an HTTP client stay the same, and the sleeper stays
interrupted if it is. -/
structure Onward (before after : Surroundings) : Prop where
  signals : after.signals = before.signals
  client : ∀ client, before.registry = .http client → after.registry = .http client
  interrupted : before.isInterrupted = true → after.isInterrupted = true

instance : IsPreorder Surroundings Onward where
  refl _ := ⟨rfl, fun _ same => same, id⟩
  trans _ _ _ first second :=
    ⟨second.signals.trans first.signals, fun client same => second.client client
      (first.client client same), fun set => second.interrupted (first.interrupted set)⟩

/-- Both signals are routed to the sleeper. -/
def Routed (surroundings : Surroundings) : Prop :=
  ∀ signal, ∃ sleeper, surroundings.signals.handler signal = .interrupts sleeper

theorem Onward.routed {before after : Surroundings} (onward : before.Onward after)
    (routed : before.Routed) : after.Routed := by
  intro signal
  rw [onward.signals]
  exact routed signal

end Surroundings

namespace Rehearsed

variable {α β : Type} {signals : List Signal} {action : Rehearsed α} {before : Surroundings}

/-- An action during which the given signals arrive: any of them interrupts the sleeper, if they are
routed to it. -/
structure Raises (before : Surroundings) (signals : List Signal) (action : Rehearsed α) : Prop where
  onward : before.Onward (action.run before).2
  reaches : signals ≠ [] → before.Routed → (action.run before).2.isInterrupted = true

/-- Nothing is said of signals that may arrive. -/
def Plain (action : Rehearsed α) : Prop := ∀ before, Raises before [] action

theorem Raises.of_onward (onward : before.Onward (action.run before).2) :
    Raises before [] action :=
  ⟨onward, fun some => absurd rfl some⟩

theorem Raises.nil (raises : Raises before signals action) : Raises before [] action :=
  .of_onward raises.onward

theorem Raises.bind {next : α → Rehearsed β} (first : Raises before signals action)
    (later : ∀ value, Plain (next value)) : Raises before signals (action >>= next) where
  onward := trans_of _ first.onward (later _ _).onward
  reaches some routed := (later _ _).onward.interrupted (first.reaches some routed)

theorem Raises.after {next : α → Rehearsed β} (first : Plain action)
    (later : ∀ value after, Raises after signals (next value)) :
    Raises before signals (action >>= next) where
  onward := trans_of _ (first before).onward (later _ _).onward
  reaches some routed := (later _ _).reaches some ((first before).onward.routed routed)

/-- The signals of the outcome that a script has next. -/
def arriving (script : List (Outcome α)) : List Signal :=
  ((Outcome.next? script).bind fun next => next.1.signal).toList

section Ports

/-- The signals that arrive during a port call, as the scripts have them. -/
def raised (s : Surroundings) : Request → List Signal
  | .createTopics specs => match s.broker with
    | .memory _ => []
    | .scripted create _ => arriving create
    | .cluster _ => match specs.mapM NewTopic.ofSpec with
      | .ok _ => arriving s.client.create
      | .error _ => []
  | .listTopics => match s.broker with
    | .memory _ => []
    | .scripted _ list => arriving list
    | .cluster _ => arriving s.client.list
  | .probe => match s.registry with
    | .memory _ => []
    | .scripted script => arriving script
    | .http registry => match Url.parse registry.healthPath with
      | .ok _ => if registry.closed then [] else arriving s.responses
      | .error _ => []
  | _ => []

end Ports

section Others

end Others

end Rehearsed

namespace Ports

/-- How many port calls there were. -/
def made (surroundings : Surroundings) : Nat :=
  surroundings.calls.create + surroundings.calls.list + surroundings.calls.probe

section Answering

/-- What happens at a port call, told by its number: the signals that arrive, and the answer. -/
abbrev Behaviour := Nat → (r : Request) → List Signal × r.Answer

variable (behaviour : Behaviour)

end Answering

end Ports

end ClusterReadiness
