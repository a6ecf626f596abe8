import ClusterReadiness.Proofs.Reconciler.Retries

/-!
# Runs of the single steps of a bootstrap

Changes of phase, the creation request, a listing request, and the way into the failed phase.
-/

namespace ClusterReadiness

namespace Reconciler

variable {reconciler : Reconciler} {start stop next : Phase} {trace : List Exchange}

section Phases

/-- A change of phase as it is logged and announced. -/
def changing (previous next : Phase) (answer : Result Unit) : List Exchange :=
  [logged .info ("reconciler state " ++ previous.text ++ " -> " ++ next.text),
    ⟨.announce next (.stateChanged previous next), answer⟩]

/-- What a shutdown asked for before a change of phase is raised as. -/
def shutdownBefore (next : Phase) : Failure :=
  .of (.interruptedWait ("shutdown requested before " ++ next.text))

/-- The part of a change of phase after the question whether to go on. -/
theorem goes_changing {result : Result Unit}
    (goes : Goes (do
      let previous ← get
      set next
      note .info ("reconciler state " ++ previous.text ++ " -> " ++ next.text)
      announce (.stateChanged previous next)) start trace result stop) :
    trace = changing start next result ∧ stop = next := by
  obtain ⟨rest, rfl, hannounce⟩ := goes_note_bind (goes_set_bind (goes_get_bind goes))
  obtain ⟨rfl, rfl⟩ := goes_announce_iff.mp hannounce
  exact ⟨rfl, rfl⟩

/-- Failing is never refused. -/
theorem goes_transition_failed {result : Result Unit}
    (goes : Goes (transition .failed) start trace result stop) :
    trace = changing start .failed result ∧ stop = .failed := by
  simp only [transition, ne_eq, not_true, if_false] at goes
  exact goes_changing goes

/-- Every other phase is entered unless a shutdown was asked for. -/
theorem goes_transition {result : Result Unit} (ahead : next ≠ .failed)
    (goes : Goes (transition next) start trace result stop) :
    (trace = [⟨.isInterrupted, true⟩] ∧ result = .error (shutdownBefore next) ∧ stop = start) ∨
      (trace = ⟨.isInterrupted, false⟩ :: changing start next result ∧ stop = next) := by
  simp only [transition, ne_eq, ahead, not_false_iff, if_true] at goes
  rcases goes_bind_iff.mp goes with ⟨_, hask, _⟩ | ⟨first, answer, middle, rest, hask, hrest, rfl⟩
  · obtain ⟨_, _, h, _⟩ := goes_isInterrupted_iff.mp hask
    cases h
  · obtain ⟨_, rfl, h, rfl⟩ := goes_isInterrupted_iff.mp hask
    cases h
    cases answer with
    | true =>
      rcases goes_bind_iff.mp hrest with ⟨_, hthrow, rfl⟩ | ⟨_, _, _, _, hthrow, _, _⟩
      · obtain ⟨rfl, h, rfl⟩ := goes_throw_iff.mp hthrow
        cases h
        exact .inl ⟨rfl, rfl, rfl⟩
      · obtain ⟨_, h, _⟩ := goes_throw_iff.mp hthrow
        cases h
    | false =>
      obtain ⟨rfl, rfl⟩ := goes_changing hrest
      exact .inr ⟨rfl, rfl⟩

/-- The failure is announced under the phase it arose in, after the change to the failed phase. -/
theorem goes_fail {failure : Failure} {result : Result Unit}
    (goes : Goes (fail failure) start trace result stop) :
    stop = .failed ∧ ∃ message,
      (∃ cut, trace = logged .error message :: changing start .failed (.error cut) ∧
        result = .error cut) ∨
      trace = logged .error message :: changing start .failed (.ok ()) ++
        [⟨.announce .failed (.failed start failure.name failure.message), result⟩] := by
  obtain ⟨rest, rfl, hrest⟩ := goes_note_bind (goes_get_bind goes)
  rcases goes_bind_iff.mp hrest with ⟨cut, hmove, rfl⟩ | ⟨first, _, middle, last, hmove, hlast, rfl⟩
  · obtain ⟨rfl, rfl⟩ := goes_transition_failed hmove
    exact ⟨rfl, _, .inl ⟨cut, rfl, rfl⟩⟩
  · obtain ⟨rfl, rfl⟩ := goes_transition_failed hmove
    obtain ⟨rfl, rfl⟩ := goes_announce_iff.mp hlast
    exact ⟨rfl, _, .inr rfl⟩

end Phases

section Requests

/-- What exhausted creation requests are raised as. -/
def creationGivenUp (reconciler : Reconciler) : Fault :=
  .topicCreation ("max number of retries reached for creating topics " ++
    Text.quotedList reconciler.topicNames)

/-- What exhausted listing requests are raised as. -/
def listingGivenUp : Fault := .topicListing "max number of retries reached for reading topics"

/-- A call asks one thing of the broker or the registry. -/
def Calls {α : Type} (asks : Program α) : Prop :=
  ∀ t result, Runs asks t result → ∃ call : Exchange, t = [call] ∧ call.request.IsPortCall

theorem calls_createTopics {specs : List TopicSpec} :
    Calls (Program.request (.createTopics specs)) := by
  intro t result run
  exact ⟨_, runs_request_iff.mp run, trivial⟩

theorem calls_listTopics : Calls (Program.request .listTopics) := by
  intro t result run
  exact ⟨_, runs_request_iff.mp run, trivial⟩

/-- The retried creation request of a reconciler. -/
abbrev CreatingTopics (reconciler : Reconciler) (trace : List Exchange) (outcome : Result Unit) :
    Prop :=
  Attempts reconciler.retry (Program.request (.createTopics reconciler.topics)) 1
    (spare reconciler.retry) trace outcome

/-- One retried listing request of a reconciler. -/
abbrev ListingTopics (reconciler : Reconciler) (trace : List Exchange)
    (outcome : Result Listing) : Prop :=
  Attempts reconciler.retry (Program.request .listTopics) 1 (spare reconciler.retry) trace outcome

/-- Creation is announced once a request was accepted. -/
theorem goes_createTopics {result : Result Unit}
    (goes : Goes reconciler.createTopics start trace result stop) :
    stop = start ∧ ∃ message attempts,
      (∃ failure, CreatingTopics reconciler attempts (.error failure) ∧
        trace = logged .info message :: attempts ∧
        result = surfacing reconciler.creationGivenUp (.error failure)) ∨
      ∃ accepted, CreatingTopics reconciler attempts (.ok ()) ∧
        trace = logged .info message :: attempts ++ [logged .info accepted,
          ⟨.announce start (.topicsCreated reconciler.topicNames), result⟩] := by
  obtain ⟨rest, rfl, hrest⟩ := goes_note_bind goes
  rcases goes_bind_iff.mp hrest with ⟨_, hcall, rfl⟩ | ⟨first, _, middle, last, hcall, hlast, rfl⟩
  · obtain ⟨outcome, attempts, raised, rfl⟩ := goes_retried hcall
    cases outcome with
    | ok value => cases raised
    | error failure => exact ⟨rfl, _, rest, .inl ⟨failure, attempts, rfl, raised⟩⟩
  · obtain ⟨outcome, attempts, raised, rfl⟩ := goes_retried hcall
    obtain rfl := eq_ok_of_surfacing raised
    obtain ⟨_, rfl, hannounce⟩ := goes_note_bind hlast
    obtain ⟨rfl, rfl⟩ := goes_announce_iff.mp hannounce
    exact ⟨rfl, _, first, .inr ⟨_, attempts, rfl⟩⟩

/-- A listing request goes as its attempts do. -/
theorem goes_listTopics {result : Result Listing}
    (goes : Goes reconciler.listTopics start trace result stop) :
    stop = start ∧
      ((∃ failure, ListingTopics reconciler trace (.error failure) ∧
        result = surfacing listingGivenUp (.error failure)) ∨
      ∃ attempts listing message, ListingTopics reconciler attempts (.ok listing) ∧
        result = .ok listing ∧ trace = attempts ++ [logged .debug message]) := by
  rcases goes_bind_iff.mp goes with
    ⟨_, hcall, rfl⟩ | ⟨first, listing, middle, last, hcall, hlast, rfl⟩
  · obtain ⟨outcome, attempts, raised, rfl⟩ := goes_retried hcall
    cases outcome with
    | ok value => cases raised
    | error failure => exact ⟨rfl, .inl ⟨failure, attempts, raised⟩⟩
  · obtain ⟨outcome, attempts, raised, rfl⟩ := goes_retried hcall
    obtain rfl := eq_ok_of_surfacing raised
    obtain ⟨_, rfl, hpure⟩ := goes_note_bind hlast
    obtain ⟨rfl, rfl, rfl⟩ := goes_pure_iff.mp hpure
    exact ⟨rfl, .inr ⟨first, listing, _, attempts, rfl, rfl⟩⟩

end Requests

end Reconciler

end ClusterReadiness
