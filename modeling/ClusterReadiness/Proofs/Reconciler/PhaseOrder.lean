import ClusterReadiness.Proofs.Reconciler.PortCalls

/-!
# The order of phases

No phase overtakes another: whatever the broker, the registry, the sleeper and the listeners answer,
topics are created before they are listed, and all are listed before the registry is probed. The
ready phase is entered only on a healthy registry.
-/

namespace ClusterReadiness

namespace Reconciler

variable {reconciler : Reconciler} {start stop next : Phase} {body : Work Unit}
  {trace : List Exchange} {result : Result Unit}

section Order

/-- Port calls in three blocks, none of which begins before the one ahead of it is through. -/
structure InOrder (reconciler : Reconciler) (creations listings probes : List Exchange) : Prop where
  creating : ∀ call ∈ creations, call.request = .createTopics reconciler.topics
  listing : ∀ call ∈ listings, call.request = .listTopics
  probing : ∀ call ∈ probes, call.request = .probe
  created : reconciler.topics ≠ [] → listings ≠ [] →
    creations.getLast? = some ⟨.createTopics reconciler.topics, .ok ()⟩
  listed : probes ≠ [] → ∀ spec ∈ reconciler.topics, ∃ listing, spec.name ∈ listing ∧
    (⟨.listTopics, .ok listing⟩ : Exchange) ∈ listings
  undeclared : reconciler.topics = [] → creations = [] ∧ listings = []

/-- The port calls of a trace, in blocks. -/
def CallsInOrder (reconciler : Reconciler) (trace : List Exchange) : Prop :=
  ∃ creations listings probes, portCalls trace = creations ++ listings ++ probes ∧
    InOrder reconciler creations listings probes

/-- A stage that succeeds has done its work. -/
theorem Stage.succeeds (stage : Stage next body start trace (.ok ()) stop) :
    ∃ work, Goes body next work (.ok ()) stop ∧
      trace = ⟨.isInterrupted, false⟩ :: changing start next (.ok ()) ++ work := by
  cases stage with
  | worked goes => exact ⟨_, goes, rfl⟩

/-- The last stages only probe. -/
theorem lastStages_calls (stages : Stages reconciler.lastStages start trace result stop) :
    ∀ e ∈ portCalls trace, e.request = .probe := by
  intro e he
  obtain ⟨hmem, hport⟩ := mem_portCalls.mp he
  refine stages.forall_mem (P := fun e => e.request.IsPortCall → e.request = .probe) ?_ e hmem hport
  intro next body mem s t r p stage e he hport
  have called := stage_calls (List.mem_append_right reconciler.topicStages mem) stage e
    (mem_portCalls.mpr ⟨he, hport⟩)
  simp only [lastStages, List.mem_cons, Prod.mk.injEq, List.not_mem_nil, or_false] at mem
  rcases mem with ⟨rfl, -⟩ | ⟨rfl, -⟩
  · exact called
  · exact called

theorem workPhases_inOrder (goes : Goes reconciler.workPhases start trace result stop) :
    CallsInOrder reconciler trace := by
  rcases goes_workPhases goes with ⟨empty, message, rest, rfl, stages⟩ | ⟨declared, stages⟩
  · refine ⟨[], [], portCalls rest, by simp [logged, Request.IsPortCall], ?_⟩
    exact ⟨by simp, by simp, lastStages_calls stages, fun h => absurd empty h, by simp [empty],
      fun _ => ⟨rfl, rfl⟩⟩
  · cases stages with
    | broken stage =>
      have creating := stage_calls (.head _) stage
      exact ⟨portCalls trace, [], [], by simp, creating, by simp, by simp, by simp, by simp,
        fun h => absurd h declared⟩
    | more stage others =>
      rename_i between created rest
      have creating := stage_calls (.head _) stage
      obtain ⟨work, done, rfl⟩ := stage.succeeds
      obtain ⟨earlier, accepted⟩ := createTopics_accepted done
      have lastCreation : (portCalls (⟨.isInterrupted, false⟩ ::
          changing start .creatingTopics (.ok ()) ++ work)).getLast? =
            some ⟨.createTopics reconciler.topics, .ok ()⟩ := by
        simp [accepted, changing, logged, Request.IsPortCall]
      cases others with
      | broken second =>
        have listing := stage_calls (.tail _ (.head _)) second
        exact ⟨_, portCalls rest, [], by rw [portCalls_append, List.append_nil], creating, listing,
          by simp, fun _ _ => lastCreation, by simp, fun h => absurd h declared⟩
      | more second last =>
        rename_i listed probing
        have listing := stage_calls (.tail _ (.head _)) second
        obtain ⟨shown, verified, rfl⟩ := second.succeeds
        refine ⟨_, _, portCalls probing, by simp only [portCalls_append, List.append_assoc],
          creating, listing, lastStages_calls last, fun _ _ => lastCreation, ?_,
          fun h => absurd h declared⟩
        intro _ spec hspec
        obtain ⟨listing, hname, hmem⟩ := verifyTopics_listed verified spec hspec
        exact ⟨listing, hname, mem_portCalls.mpr ⟨List.mem_append_right _ hmem, trivial⟩⟩

end Order

section Ready

/-- Nothing is announced in the ready phase. -/
def Unready (trace : List Exchange) : Prop :=
  ∀ e ∈ trace, ∀ happening, e.request ≠ .announce .ready happening

/-- The port calls of a trace, and the questions whether to shut down. -/
def checks (trace : List Exchange) : List Exchange :=
  trace.filter fun exchange =>
    decide (exchange.request.IsPortCall ∨ exchange.request = .isInterrupted)

/-- The last port call found the registry healthy, and the flag was then seen to be unset. -/
def Earned (past : List Exchange) : Prop :=
  ∃ earlier, checks past = earlier ++ [⟨.probe, .ok true⟩, ⟨.isInterrupted, false⟩]

/-- A trace in which the ready phase is entered, and the news of it told. -/
def EntersReady (trace : List Exchange) : Prop :=
  ∃ earlier message entered, trace = earlier ++ [⟨.probe, .ok true⟩, logged .info message] ++
      ⟨.isInterrupted, false⟩ :: entered ∧
    Unready earlier ∧ checks entered = [] ∧
    ∃ previous answer, (⟨.announce .ready (.stateChanged previous .ready), answer⟩ : Exchange) ∈
      entered

@[simp] theorem checks_nil : checks [] = [] := rfl

@[simp] theorem checks_cons {exchange : Exchange} : checks (exchange :: trace) =
    if exchange.request.IsPortCall ∨ exchange.request = .isInterrupted then
      exchange :: checks trace else checks trace := by
  simp [checks, List.filter_cons]

@[simp] theorem checks_append {first rest : List Exchange} :
    checks (first ++ rest) = checks first ++ checks rest := List.filter_append ..

theorem portCalls_of_checks (quiet : checks trace = []) : portCalls trace = [] := by
  refine portCalls_eq_nil fun e he port => ?_
  have checked : e ∈ checks trace := List.mem_filter.mpr ⟨he, by simp [port]⟩
  rw [quiet] at checked
  cases checked

theorem Unready.append {first rest : List Exchange} (hfirst : Unready first)
    (hrest : Unready rest) : Unready (first ++ rest) :=
  List.forall_mem_append.mpr ⟨hfirst, hrest⟩

theorem Unready.entersReady {first rest : List Exchange} (hfirst : Unready first)
    (enters : EntersReady rest) : EntersReady (first ++ rest) := by
  obtain ⟨earlier, message, entered, rfl, unready, quiet, news⟩ := enters
  exact ⟨first ++ earlier, message, entered, by simp, hfirst.append unready, quiet, news⟩

theorem EntersReady.append {first rest : List Exchange} (enters : EntersReady first)
    (quiet : checks rest = []) : EntersReady (first ++ rest) := by
  obtain ⟨earlier, message, entered, rfl, unready, hquiet, previous, answer, news⟩ := enters
  refine ⟨earlier, message, entered ++ rest, by simp, unready, ?_, previous, answer,
    List.mem_append_left _ news⟩
  rw [checks_append, hquiet, quiet, List.nil_append]

/-- Whatever is announced in the ready phase is announced after it was entered. -/
theorem EntersReady.earned {before after : List Exchange} {happening : Happening}
    {answer : Result Unit} (enters : EntersReady trace)
    (split : trace = before ++ ⟨.announce .ready happening, answer⟩ :: after) : Earned before := by
  obtain ⟨earlier, message, entered, rfl, unready, quiet, -⟩ := enters
  have quietStart : Unready (earlier ++ [⟨.probe, .ok true⟩, logged .info message]) :=
    unready.append (by simp [Unready, logged])
  rcases List.append_eq_append_iff.mp split with ⟨middle, rfl, hrest⟩ | ⟨middle, hearly, hrest⟩
  · cases middle with
    | nil => cases hrest
    | cons question middle =>
      obtain ⟨rfl, rfl⟩ := List.cons.inj hrest
      have silent : checks middle = [] := (List.append_eq_nil_iff.mp
        (checks_append.symm.trans quiet)).1
      exact ⟨checks earlier, by simp [silent, logged, Request.IsPortCall]⟩
  · cases middle with
    | nil => cases hrest
    | cons other middle =>
      obtain ⟨rfl, -⟩ := List.cons.inj hrest
      have early : (⟨.announce .ready happening, answer⟩ : Exchange) ∈
          earlier ++ [⟨.probe, .ok true⟩, logged .info message] := by
        rw [hearly]
        exact List.mem_append_right _ (.head _)
      exact absurd rfl (quietStart _ early happening)

/-- A stage announces nothing in the ready phase if it enters another. -/
theorem stage_unready (mem : (next, body) ∈ reconciler.topicStages ++ reconciler.lastStages)
    (stage : Stage next body start trace result stop) (other : next ≠ .ready) : Unready trace := by
  intro e he happening news
  exact other (stage_announces mem stage e he .ready happening news).1.symm

theorem createTopics_keeps (goes : Goes reconciler.createTopics start trace result stop) :
    stop = start :=
  (goes_createTopics goes).1

theorem verifyTopics_keeps
    (goes : Goes (reconciler.fresh reconciler.verifyTopics) start trace result stop) :
    stop = start := by
  obtain ⟨after, polls⟩ := goes_fresh_iff.mp goes
  exact (polls_verifyTopics polls).1

theorem verifyRegistry_keeps
    (goes : Goes (reconciler.fresh reconciler.verifyRegistry) start trace result stop) :
    stop = start := by
  obtain ⟨after, polls⟩ := goes_fresh_iff.mp goes
  exact (polls_verifyRegistry polls).1

/-- The work of a stage keeps the phase that was entered. -/
theorem stage_keeps (mem : (next, body) ∈ reconciler.topicStages ++ reconciler.lastStages)
    (goes : Goes body next trace result stop) : stop = next := by
  simp only [topicStages, lastStages, List.cons_append, List.nil_append, List.mem_cons,
    Prod.mk.injEq, List.not_mem_nil, or_false] at mem
  rcases mem with ⟨rfl, rfl⟩ | ⟨rfl, rfl⟩ | ⟨rfl, rfl⟩ | ⟨rfl, rfl⟩
  · exact createTopics_keeps goes
  · exact verifyTopics_keeps goes
  · exact verifyRegistry_keeps goes
  · exact (goes_pure_iff.mp goes).2.2

/-- A stage ends in the phase that it enters, or in the phase before if it is not entered. -/
theorem stage_stop (mem : (next, body) ∈ reconciler.topicStages ++ reconciler.lastStages)
    (stage : Stage next body start trace result stop) : stop = next ∨ stop = start := by
  cases stage with
  | refused => exact .inr rfl
  | untold => exact .inl rfl
  | worked goes => exact .inl (stage_keeps mem goes)

/-- The ready phase is entered after a healthy probe, or not at all, and then the run fails. -/
def ReadyEarned (trace : List Exchange) (result : Result Unit) (stop : Phase) : Prop :=
  (Unready trace ∧ stop ≠ .ready ∧ result ≠ .ok ()) ∨ EntersReady trace

theorem Unready.readyEarned {first rest : List Exchange} (hfirst : Unready first)
    (earned : ReadyEarned rest result stop) : ReadyEarned (first ++ rest) result stop := by
  rcases earned with ⟨unready, unlike, failed⟩ | enters
  · exact .inl ⟨hfirst.append unready, unlike, failed⟩
  · exact .inr (hfirst.entersReady enters)

theorem lastStages_readyEarned (unlike : start ≠ .ready)
    (stages : Stages reconciler.lastStages start trace result stop) :
    ReadyEarned trace result stop := by
  have first : (.verifyingRegistry, reconciler.fresh reconciler.verifyRegistry) ∈
      reconciler.topicStages ++ reconciler.lastStages := List.mem_append_right _ (.head _)
  cases stages with
  | broken stage =>
    refine .inl ⟨stage_unready first stage (by decide), ?_, by simp⟩
    rcases stage_stop first stage with rfl | rfl
    · decide
    · exact unlike
  | more stage others =>
    have silent := stage_unready first stage (by decide)
    obtain ⟨work, done, rfl⟩ := stage.succeeds
    obtain rfl := verifyRegistry_keeps done
    obtain ⟨before, message, rfl⟩ := verifyRegistry_healthy done
    have entering : ∀ answer : Result Unit, EntersReady ((⟨.isInterrupted, false⟩ ::
        changing start .verifyingRegistry (.ok ()) ++
          (before ++ [⟨.probe, .ok true⟩, logged .info message])) ++
        ⟨.isInterrupted, false⟩ :: changing .verifyingRegistry .ready answer) := by
      intro answer
      refine ⟨_, message, changing .verifyingRegistry .ready answer, by rw [← List.append_assoc],
        fun e he => silent e ?_, by simp [changing, logged, Request.IsPortCall],
        .verifyingRegistry, answer, by simp [changing]⟩
      rw [← List.append_assoc]
      exact List.mem_append_left _ he
    cases others with
    | broken last =>
      cases last with
      | refused =>
        exact .inl ⟨silent.append (by simp [Unready]), by decide, by simp⟩
      | untold => exact .inr (entering _)
      | worked goes => cases (goes_pure_iff.mp goes).2.1
    | more last done =>
      cases done
      cases last with
      | worked goes =>
        obtain ⟨rfl, -, rfl⟩ := goes_pure_iff.mp goes
        exact .inr (by simpa using entering (.ok ()))

theorem workPhases_readyEarned (goes : Goes reconciler.workPhases .idle trace result stop) :
    ReadyEarned trace result stop := by
  rcases goes_workPhases goes with ⟨empty, message, rest, rfl, stages⟩ | ⟨declared, stages⟩
  · have silent : Unready [logged .info message] := by simp [Unready, logged]
    exact silent.readyEarned (lastStages_readyEarned (by decide) stages)
  · cases stages with
    | broken stage =>
      refine .inl ⟨stage_unready (.head _) stage (by decide), ?_, by simp⟩
      rcases stage_stop (.head _) stage with rfl | rfl <;> decide
    | more stage others =>
      refine (stage_unready (.head _) stage (by decide)).readyEarned ?_
      obtain ⟨work, done, -⟩ := stage.succeeds
      obtain rfl := createTopics_keeps done
      cases others with
      | broken second =>
        refine .inl ⟨stage_unready (.tail _ (.head _)) second (by decide), ?_, by simp⟩
        rcases stage_stop (.tail _ (.head _)) second with rfl | rfl <;> decide
      | more second last =>
        have silent := stage_unready (.tail _ (.head _)) second (by decide)
        obtain ⟨work, done, -⟩ := second.succeeds
        obtain rfl := verifyTopics_keeps done
        exact silent.readyEarned (lastStages_readyEarned (by decide) last)

/-- The way into the failed phase makes no port call and asks for no shutdown. -/
theorem fail_checks {failure : Failure} (goes : Goes (fail failure) start trace result stop) :
    checks trace = [] ∧ Unready trace := by
  obtain ⟨-, message, ⟨cut, rfl, -⟩ | rfl⟩ := goes_fail goes <;>
    simp [changing, logged, Request.IsPortCall, Unready]

end Ready

/-- In every run from the start the port calls come in three blocks, in order; whatever is announced
in the ready phase is announced when the last port call was a healthy probe and the shutdown flag
was then unset; and a run that ends in the ready phase has told so. -/
theorem ensureReady_in_order
    (goes : Goes reconciler.ensureReady .idle trace result stop) :
    CallsInOrder reconciler trace ∧
    (∀ before happening answer after,
      trace = before ++ ⟨.announce .ready happening, answer⟩ :: after → Earned before) ∧
    (stop = .ready → ∃ previous answer,
      (⟨.announce .ready (.stateChanged previous .ready), answer⟩ : Exchange) ∈ trace) := by
  cases goes_ensureReady goes with
  | failed worked fails =>
    rename_i started work closing failure phase told
    obtain ⟨creations, listings, probes, calls, inOrder⟩ := workPhases_inOrder worked
    obtain ⟨quiet, silent⟩ := fail_checks fails
    have clockFirst : Unready [⟨.clock, started⟩] := by simp [Unready]
    refine ⟨⟨creations, listings, probes, ?_, inOrder⟩, ?_, ?_⟩
    · simp [calls, portCalls_of_checks quiet, Request.IsPortCall]
    · intro before happening answer after split
      rcases workPhases_readyEarned worked with ⟨unready, -, -⟩ | enters
      · have nowhere := (clockFirst.append unready).append silent
        rw [List.singleton_append, split] at nowhere
        exact absurd rfl (nowhere _ (List.mem_append_right _ (.head _)) happening)
      · exact ((clockFirst.entersReady enters).append quiet).earned split
    · intro ready
      rw [(goes_fail fails).1] at ready
      cases ready
  | ready worked =>
    rename_i started ended work message
    obtain ⟨creations, listings, probes, calls, inOrder⟩ := workPhases_inOrder worked
    have clockFirst : Unready [⟨.clock, started⟩] := by simp [Unready]
    rcases workPhases_readyEarned worked with ⟨-, -, failed⟩ | enters
    · exact absurd rfl failed
    · refine ⟨⟨creations, listings, probes, ?_, inOrder⟩, ?_, fun _ => ?_⟩
      · simp [calls, logged, Request.IsPortCall]
      · intro before happening answer after split
        refine ((clockFirst.entersReady enters).append ?_).earned split
        simp [logged, Request.IsPortCall]
      · obtain ⟨_, _, _, rfl, _, _, previous, answer, news⟩ := enters
        exact ⟨previous, answer, by simp [news]⟩

theorem ensureReady_in_order_obliged :
    let run := Program.follow (fun _ => obliging ["orders"])
      (ordersOnly.ensureReady.run.run .idle) []
    run.2 = (.ok (), .ready) ∧ CallsInOrder ordersOnly run.1 ∧
    (∀ before happening answer after,
      run.1 = before ++ ⟨.announce .ready happening, answer⟩ :: after → Earned before) ∧
    ∃ previous answer,
      (⟨.announce .ready (.stateChanged previous .ready), answer⟩ : Exchange) ∈ run.1 := by
  intro run
  have ended : run.2 = (.ok (), .ready) := by decide +kernel
  have goes : Goes ordersOnly.ensureReady .idle run.1 run.2.1 run.2.2 := runs_follow _ _ _
  obtain ⟨ordered, earned, told⟩ := ensureReady_in_order goes
  exact ⟨ended, ordered, earned, told (by rw [ended])⟩

end Reconciler

end ClusterReadiness
