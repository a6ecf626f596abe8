import ClusterReadiness.Proofs.Reconciler.Stages

/-!
# Port calls of a run

Which requests the work of a phase may make, which exchanges are calls of the broker or the
registry, and what such calls must have answered when the work of a phase succeeds.
-/

namespace ClusterReadiness

instance : DecidablePred Request.IsPortCall
  | .createTopics _ | .listTopics | .probe => isTrue trivial
  | .sleep _ | .isInterrupted | .clock | .announce .. | .record .. => isFalse id

/-- The calls of the broker and the registry among some exchanges. -/
def portCalls (trace : List Exchange) : List Exchange :=
  trace.filter fun exchange => decide exchange.request.IsPortCall

section PortCalls

variable {trace : List Exchange}

@[simp] theorem portCalls_nil : portCalls [] = [] := rfl

@[simp] theorem portCalls_append {first rest : List Exchange} :
    portCalls (first ++ rest) = portCalls first ++ portCalls rest :=
  List.filter_append ..

@[simp] theorem portCalls_cons {exchange : Exchange} :
    portCalls (exchange :: trace) =
      if exchange.request.IsPortCall then exchange :: portCalls trace else portCalls trace := by
  simp [portCalls, List.filter_cons]

theorem portCalls_eq_nil (none : ∀ e ∈ trace, ¬ e.request.IsPortCall) : portCalls trace = [] := by
  simpa [portCalls] using none

theorem mem_portCalls {exchange : Exchange} :
    exchange ∈ portCalls trace ↔ exchange ∈ trace ∧ exchange.request.IsPortCall := by
  simp [portCalls]

end PortCalls

/-- News of a run that goes on, and not of its end or the way there. -/
def Happening.IsOngoing : Happening → Prop
  | .stateChanged _ current => current ≠ .failed
  | .topicsCreated _ | .topicVisible .. | .waitRetry .. => True
  | .ready .. | .failed .. | .foreign _ => False

namespace Reconciler

variable {reconciler : Reconciler} {start stop phase : Phase} {trace : List Exchange}
  {poll after : PollState}

section Concerns

/-- What the work of a phase may ask for: one kind of port call, and to announce, in that phase,
that the run goes on. -/
def Concerns (phase : Phase) (call : Request) : Request → Prop
  | .announce told happening => told = phase ∧ happening.IsOngoing
  | .record .. | .sleep _ => True
  | request => request = call

variable {call request : Request}

theorem concerns_call (port : call.IsPortCall) : Concerns phase call call := by
  cases call <;> first | rfl | cases port

theorem Concerns.eq_call (concerns : Concerns phase call request) (port : request.IsPortCall) :
    request = call := by
  cases request with
  | createTopics | listTopics | probe => exact concerns
  | _ => cases port

/-- Retrying adds log lines and sleeps to the calls. -/
theorem Attempts.concerns {policy : RetryPolicy} {call : Request} {α : Type}
    {asks : Program (Result α)} {number : Int} {left : Nat} {outcome : Result α}
    (attempts : Attempts policy asks number left trace outcome)
    (calls : ∀ t result, Runs asks t result → ∀ e ∈ t, Concerns phase call e.request) :
    ∀ e ∈ trace, Concerns phase call e.request :=
  attempts.forall_mem calls (fun _ => trivial) fun _ _ => trivial

theorem createTopics_concerns {result : Result Unit}
    (goes : Goes reconciler.createTopics start trace result stop) :
    ∀ e ∈ trace, Concerns start (.createTopics reconciler.topics) e.request := by
  have calls : ∀ t result, Runs (Program.request (.createTopics reconciler.topics)) t result →
      ∀ e ∈ t, Concerns start (.createTopics reconciler.topics) e.request := by
    intro t result run e he
    rw [runs_request_iff.mp run, List.mem_singleton] at he
    rw [he]
    exact concerns_call trivial
  obtain ⟨-, message, attempts, h⟩ := goes_createTopics goes
  rcases h with ⟨failure, tried, rfl, -⟩ | ⟨accepted, tried, rfl⟩
  · intro e he
    rcases List.mem_cons.mp he with rfl | he
    · trivial
    · exact tried.concerns calls e he
  · intro e he
    simp only [List.cons_append, List.mem_cons, List.mem_append, List.not_mem_nil, or_false] at he
    rcases he with rfl | he | rfl | rfl
    · trivial
    · exact tried.concerns calls e he
    · trivial
    · exact ⟨rfl, trivial⟩

theorem listTopics_concerns {result : Result Listing}
    (goes : Goes reconciler.listTopics start trace result stop) :
    ∀ e ∈ trace, Concerns phase .listTopics e.request := by
  have calls : ∀ t result, Runs (Program.request .listTopics) t result →
      ∀ e ∈ t, Concerns phase .listTopics e.request := by
    intro t result run e he
    rw [runs_request_iff.mp run, List.mem_singleton] at he
    rw [he]
    exact concerns_call trivial
  obtain ⟨-, ⟨failure, tried, -⟩ | ⟨attempts, listing, message, tried, -, rfl⟩⟩ :=
    goes_listTopics goes
  · exact tried.concerns calls
  · intro e he
    rcases List.mem_append.mp he with he | he
    · exact tried.concerns calls e he
    · rw [List.mem_singleton.mp he]
      trivial

/-- A round makes no port call at all. -/
theorem Waits.concerns {policy : WaitPolicy} {waiting : Phase} {topic : Option String}
    {spent : Int → Fault} {result : Result Unit}
    (waits : Waits policy phase waiting topic spent poll trace result after) :
    ∀ e ∈ trace, Concerns phase call e.request := by
  cases waits <;> simp [Concerns, Happening.IsOngoing, logged]

theorem AwaitsTopic.concerns {name : String} {listing : Listing} {result : Result Listing}
    (awaits : AwaitsTopic reconciler phase name poll listing trace result after) :
    ∀ e ∈ trace, Concerns phase .listTopics e.request := by
  induction awaits with
  | present listed => simp
  | stopped missing waits => exact waits.concerns
  | unlisted missing waits goes =>
    exact List.forall_mem_append.mpr ⟨waits.concerns, listTopics_concerns goes⟩
  | again missing waits goes more ih =>
    rw [List.forall_mem_append, List.forall_mem_append]
    exact ⟨⟨waits.concerns, listTopics_concerns goes⟩, ih⟩

theorem AwaitsTopics.concerns {specs : List TopicSpec} {listing : Listing} {result : Result Unit}
    (awaits : AwaitsTopics reconciler phase specs poll listing trace result after) :
    ∀ e ∈ trace, Concerns phase .listTopics e.request := by
  induction awaits with
  | done => simp
  | stopped awaits => exact awaits.concerns
  | untold awaits =>
    refine List.forall_mem_append.mpr ⟨awaits.concerns, ?_⟩
    simp [Concerns, Happening.IsOngoing, logged]
  | seen awaits others ih =>
    rw [List.forall_mem_append, List.forall_mem_append]
    exact ⟨⟨awaits.concerns, by simp [Concerns, Happening.IsOngoing, logged]⟩, ih⟩

theorem verifyTopics_concerns {result : Result Unit}
    (goes : Goes (reconciler.fresh reconciler.verifyTopics) start trace result stop) :
    ∀ e ∈ trace, Concerns start .listTopics e.request := by
  obtain ⟨after, polls⟩ := goes_fresh_iff.mp goes
  obtain ⟨-, ⟨failure, asks, -, -⟩ | ⟨asked, listing, rest, asks, awaits, rfl⟩⟩ :=
    polls_verifyTopics polls
  · exact listTopics_concerns asks
  · exact List.forall_mem_append.mpr ⟨listTopics_concerns asks, awaits.concerns⟩

theorem AwaitsRegistry.concerns {result : Result Unit}
    (awaits : AwaitsRegistry reconciler phase poll trace result after) :
    ∀ e ∈ trace, Concerns phase .probe e.request := by
  induction awaits with
  | raised | healthy =>
    intro e he
    rw [List.mem_singleton.mp he]
    exact concerns_call trivial
  | stopped waits => exact List.forall_mem_cons.mpr ⟨concerns_call trivial, waits.concerns⟩
  | again waits more ih =>
    rw [List.cons_append, List.forall_mem_cons, List.forall_mem_append]
    exact ⟨concerns_call trivial, waits.concerns, ih⟩

theorem polls_verifyRegistry_concerns {result : Result Unit}
    (polls : Polls reconciler.verifyRegistry poll start trace result after stop) :
    ∀ e ∈ trace, Concerns start .probe e.request := by
  obtain ⟨-, ⟨failure, awaits, -⟩ | ⟨probed, message, awaits, rfl, -⟩⟩ :=
    polls_verifyRegistry polls
  · exact awaits.concerns
  · refine List.forall_mem_append.mpr ⟨awaits.concerns, fun e he => ?_⟩
    rw [List.mem_singleton.mp he]
    trivial

theorem verifyRegistry_concerns {result : Result Unit}
    (goes : Goes (reconciler.fresh reconciler.verifyRegistry) start trace result stop) :
    ∀ e ∈ trace, Concerns start .probe e.request := by
  obtain ⟨after, polls⟩ := goes_fresh_iff.mp goes
  exact polls_verifyRegistry_concerns polls

theorem pure_concerns (trace : List Exchange) (result : Result Unit) (stop : Phase)
    (goes : Goes (pure ()) phase trace result stop) :
    ∀ e ∈ trace, Concerns phase call e.request := by
  obtain ⟨rfl, -, -⟩ := goes_pure_iff.mp goes
  simp

/-- Entering a phase asks for the shutdown flag, and is announced in the phase entered. -/
theorem Stage.concerns {next : Phase} {body : Work Unit} {result : Result Unit}
    (stage : Stage next body start trace result stop) (ahead : next ≠ .failed)
    (bodies : ∀ t r s, Goes body next t r s → ∀ e ∈ t, Concerns next call e.request) :
    ∀ e ∈ trace, Concerns next call e.request ∨ e.request = .isInterrupted := by
  cases stage with
  | refused => simp
  | untold => simp [changing, Concerns, Happening.IsOngoing, ahead, logged]
  | worked goes =>
    intro e he
    rcases List.mem_append.mp he with he | he
    · simp only [changing, List.mem_cons, List.not_mem_nil, or_false] at he
      rcases he with rfl | rfl | rfl
      · exact .inr rfl
      · exact .inl trivial
      · exact .inl ⟨rfl, ahead⟩
    · exact .inl (bodies _ _ _ goes e he)

/-- The port call that the work of a phase makes. -/
def portOf (reconciler : Reconciler) : Phase → Request
  | .creatingTopics => .createTopics reconciler.topics
  | .verifyingTopics => .listTopics
  | _ => .probe

variable {next : Phase} {body : Work Unit} {result : Result Unit}
  (mem : (next, body) ∈ reconciler.topicStages ++ reconciler.lastStages)
  (stage : Stage next body start trace result stop)
include mem stage

/-- Each stage of a run asks for what concerns the phase that it enters. -/
theorem stage_concerns : ∀ e ∈ trace,
    Concerns next (reconciler.portOf next) e.request ∨ e.request = .isInterrupted := by
  simp only [topicStages, lastStages, List.cons_append, List.nil_append, List.mem_cons,
    Prod.mk.injEq, List.not_mem_nil, or_false] at mem
  rcases mem with ⟨rfl, rfl⟩ | ⟨rfl, rfl⟩ | ⟨rfl, rfl⟩ | ⟨rfl, rfl⟩
  · exact stage.concerns (by decide) fun _ _ _ goes => createTopics_concerns goes
  · exact stage.concerns (by decide) fun _ _ _ goes => verifyTopics_concerns goes
  · exact stage.concerns (by decide) fun _ _ _ goes => verifyRegistry_concerns goes
  · exact stage.concerns (by decide) pure_concerns

/-- A stage makes port calls of one kind only. -/
theorem stage_calls : ∀ e ∈ portCalls trace, e.request = reconciler.portOf next := by
  intro e he
  obtain ⟨hmem, hport⟩ := mem_portCalls.mp he
  rcases stage_concerns mem stage e hmem with concerns | asks
  · exact concerns.eq_call hport
  · rw [asks] at hport
    exact hport.elim

/-- A stage announces in the phase that it enters, and that the run goes on. -/
theorem stage_announces : ∀ e ∈ trace, ∀ told happening, e.request = .announce told happening →
    told = next ∧ happening.IsOngoing := by
  intro e he told happening news
  rcases stage_concerns mem stage e he with concerns | asks
  · rw [news] at concerns
    exact concerns
  · rw [news] at asks
    cases asks

end Concerns

section Success

/-- The last creation request was accepted. -/
theorem createTopics_accepted (goes : Goes reconciler.createTopics start trace (.ok ()) stop) :
    ∃ earlier, portCalls trace =
      earlier ++ [⟨.createTopics reconciler.topics, .ok ()⟩] := by
  obtain ⟨-, message, attempts, ⟨failure, _, _, h⟩ | ⟨accepted, tried, rfl⟩⟩ :=
    goes_createTopics goes
  · cases eq_ok_of_surfacing h
  · obtain ⟨before, last, rfl, called⟩ := tried.last_call
    obtain rfl := runs_request_iff.mp called
    refine ⟨portCalls before, ?_⟩
    simp [logged, Request.IsPortCall]

theorem listTopics_returned {listing : Listing}
    (goes : Goes reconciler.listTopics start trace (.ok listing) stop) :
    (⟨.listTopics, .ok listing⟩ : Exchange) ∈ trace := by
  obtain ⟨-, ⟨failure, _, h⟩ | ⟨attempts, other, message, tried, h, rfl⟩⟩ := goes_listTopics goes
  · cases eq_ok_of_surfacing h
  · cases h
    obtain ⟨before, last, rfl, called⟩ := tried.last_call
    obtain rfl := runs_request_iff.mp called
    simp

/-- The topic is in the listing that its wait comes to, which is the one it began with or was
returned meanwhile. -/
theorem AwaitsTopic.listed {name : String} {listing next : Listing}
    (awaits : AwaitsTopic reconciler phase name poll listing trace (.ok next) after) :
    name ∈ next ∧ (next = listing ∨ (⟨.listTopics, .ok next⟩ : Exchange) ∈ trace) := by
  generalize hresult : Except.ok next = result at awaits
  induction awaits with
  | present listed =>
    cases hresult
    exact ⟨listed, .inl rfl⟩
  | again missing waits goes more ih =>
    obtain ⟨hname, h⟩ := ih hresult
    subst hresult
    refine ⟨hname, .inr ?_⟩
    rcases h with rfl | h
    · exact List.mem_append_left _ (List.mem_append_right _ (listTopics_returned goes))
    · exact List.mem_append_right _ h
  | _ => cases hresult

theorem AwaitsTopics.listed {specs : List TopicSpec} {listing : Listing}
    (awaits : AwaitsTopics reconciler phase specs poll listing trace (.ok ()) after) :
    ∀ spec ∈ specs, ∃ next, spec.name ∈ next ∧
      (next = listing ∨ (⟨.listTopics, .ok next⟩ : Exchange) ∈ trace) := by
  generalize hresult : Except.ok () = result at awaits
  induction awaits with
  | done => simp
  | seen awaits others ih =>
    rename_i shown _ _ _ _
    obtain ⟨hname, h⟩ := awaits.listed
    refine List.forall_mem_cons.mpr ⟨⟨shown, hname, ?_⟩, fun spec hspec => ?_⟩
    · exact h.imp_right fun h => List.mem_append_left _ (List.mem_append_left _ h)
    · obtain ⟨next, hnext, rfl | hmem⟩ := ih hresult spec hspec
      · exact ⟨_, hnext, h.imp_right fun h => List.mem_append_left _ (List.mem_append_left _ h)⟩
      · exact ⟨next, hnext, .inr (List.mem_append_right _ hmem)⟩
  | _ => cases hresult

/-- Every declared topic was seen in a listing. -/
theorem verifyTopics_listed
    (goes : Goes (reconciler.fresh reconciler.verifyTopics) start trace (.ok ()) stop) :
    ∀ spec ∈ reconciler.topics, ∃ listing, spec.name ∈ listing ∧
      (⟨.listTopics, .ok listing⟩ : Exchange) ∈ trace := by
  obtain ⟨after, polls⟩ := goes_fresh_iff.mp goes
  obtain ⟨-, ⟨failure, _, h, _⟩ | ⟨asked, listing, rest, asks, awaits, rfl⟩⟩ :=
    polls_verifyTopics polls
  · cases h
  · intro spec hspec
    obtain ⟨next, hnext, rfl | hmem⟩ := awaits.listed spec hspec
    · exact ⟨_, hnext, List.mem_append_left _ (listTopics_returned asks)⟩
    · exact ⟨next, hnext, List.mem_append_right _ hmem⟩

theorem AwaitsRegistry.healthy_last
    (awaits : AwaitsRegistry reconciler phase poll trace (.ok ()) after) :
    ∃ before, trace = before ++ [⟨.probe, .ok true⟩] := by
  generalize hresult : Except.ok () = result at awaits
  induction awaits with
  | healthy => exact ⟨[], rfl⟩
  | again waits more ih =>
    obtain ⟨before, rfl⟩ := ih hresult
    exact ⟨_, (List.append_assoc ..).symm⟩
  | _ => cases hresult

/-- The last probe found the registry healthy, and only a log line follows. -/
theorem verifyRegistry_healthy
    (goes : Goes (reconciler.fresh reconciler.verifyRegistry) start trace (.ok ()) stop) :
    ∃ before message, trace = before ++ [⟨.probe, .ok true⟩, logged .info message] := by
  obtain ⟨after, polls⟩ := goes_fresh_iff.mp goes
  obtain ⟨-, ⟨failure, _, h⟩ | ⟨probed, message, awaits, rfl, -⟩⟩ := polls_verifyRegistry polls
  · cases h
  · obtain ⟨before, rfl⟩ := awaits.healthy_last
    exact ⟨before, message, by simp⟩

end Success

end Reconciler

end ClusterReadiness
