import ClusterReadiness.Proofs.Reconciler.PhaseGraph

/-!
# The log of a run

`FullLog` is the grammar of what a run announces that gets ready. Every run follows it: a run that
fails breaks off before the ready phase, moves to the failed phase and tells once what failed it and
where.
-/

namespace ClusterReadiness

namespace Reconciler

variable {α : Type} {reconciler : Reconciler} {start stop next phase : Phase} {body : Work Unit}
  {trace : List Exchange} {result : Result Unit} {others : List (Phase × Work Unit)}
  {names : List String} {log : List Happening}

section Grammar

/-- The way to the topic phase. -/
def opening (names : List String) : List Happening :=
  [.stateChanged .idle .creatingTopics, .topicsCreated names,
    .stateChanged .creatingTopics .verifyingTopics]

/-- All that a run announces that gets ready, with topics of these names declared. -/
inductive FullLog : List String → List Happening → Prop where
  | undeclared {waits : List Happening} {duration : Float} (registry : RegistryLog waits) :
      FullLog [] (.stateChanged .idle .verifyingRegistry :: waits ++
        [.stateChanged .verifyingRegistry .ready, .ready [] duration])
  | declared {names : List String} {seen waits : List Happening} {duration : Float}
      (some : names ≠ []) (topics : TopicLog names seen) (registry : RegistryLog waits) :
      FullLog names (opening names ++ seen ++
        .stateChanged .verifyingTopics .verifyingRegistry :: waits ++
        [.stateChanged .verifyingRegistry .ready, .ready names duration])

/-- The phase that a run is in which has announced so much. -/
def reached (log : List Happening) : Phase :=
  (changes log).foldl (fun _ change => change.2) .idle

theorem Leads.foldl_eq {steps : List (Phase × Phase)} (leads : Leads start steps stop) :
    steps.foldl (fun _ change => change.2) start = stop := by
  induction leads with
  | here => rfl
  | step _ ih => exact ih

/-- Nothing is permitted after the ready phase is entered. -/
theorem Leads.eq_ready {steps : List (Phase × Phase)} (leads : Leads start steps stop)
    (permitted : ∀ step ∈ steps, Permitted reconciler step.1 step.2)
    (entered : (phase, .ready) ∈ steps) : stop = .ready := by
  induction leads with
  | here => cases entered
  | @step start next stop steps more ih =>
    obtain ⟨-, others⟩ := List.forall_mem_cons.mp permitted
    rcases List.mem_cons.mp entered with h | h
    · cases h
      cases more with
      | here => rfl
      | step => exact absurd rfl (others _ (.head _)).left.1
    · exact ih others h

end Grammar

section Stages

/-- The change into a phase, then the log of its work, then the log of the stages after it. -/
def StageLog (start next : Phase) (BodyLog OthersLog : List Happening → Prop)
    (log : List Happening) : Prop :=
  ∃ body others, BodyLog body ∧ OthersLog others ∧
    log = .stateChanged start next :: (body ++ others)

theorem Stages.keeps_log {BodyLog OthersLog : List Happening → Prop}
    (run : Stages ((next, body) :: others) start trace result stop)
    (bodies : ∀ t r s, Goes body next t r s → s = next ∧ Keeps BodyLog t r)
    (onward : ∀ t r s, Stages others next t r s → Keeps OthersLog t r)
    (someBody : ∃ log, BodyLog log) (someOthers : ∃ log, OthersLog log) :
    Keeps (StageLog start next BodyLog OthersLog) trace result := by
  obtain ⟨bodyLog, hbody⟩ := someBody
  obtain ⟨othersLog, hothers⟩ := someOthers
  -- where the run breaks off, any logs of what is left would complete it
  cases run with
  | broken stage =>
    cases stage with
    | refused =>
      exact ⟨_, ⟨bodyLog, othersLog, hbody, hothers, rfl⟩, fun _ h => by cases h⟩
    | untold =>
      exact ⟨bodyLog ++ othersLog, ⟨bodyLog, othersLog, hbody, hothers, rfl⟩, fun _ h => by cases h⟩
    | @worked work _ _ goes =>
      obtain ⟨rfl, rest, kept, -⟩ := bodies _ _ _ goes
      refine ⟨rest ++ othersLog, ⟨_, othersLog, kept, hothers, ?_⟩, fun _ h => by cases h⟩
      rw [announcements_append, List.append_assoc, List.append_assoc]
      rfl
  | @more _ _ middle _ _ _ done more _ stage others =>
    cases stage with
    | @worked work _ _ goes =>
      obtain ⟨rfl, rest, kept, ended⟩ := bodies _ _ _ goes
      obtain rfl := ended () rfl
      obtain ⟨rest, onward, finished⟩ := onward _ _ _ others
      refine ⟨rest, ⟨_, _, kept, onward, ?_⟩, finished⟩
      rw [announcements_append, announcements_append, List.append_nil, List.append_assoc,
        List.append_assoc]
      rfl

/-- The log of the last stages. -/
def LastLog (start : Phase) : List Happening → Prop :=
  StageLog start .verifyingRegistry RegistryLog
    (StageLog .verifyingRegistry .ready (· = []) (· = []))

theorem exists_lastLog (start : Phase) : ∃ log, LastLog start log := by
  have waits : RegistryLog [] := fun _ mem => by cases mem
  exact ⟨_, [], _, waits, ⟨[], [], rfl, rfl, rfl⟩, rfl⟩

theorem lastStages_keeps_log (run : Stages reconciler.lastStages start trace result stop) :
    Keeps (LastLog start) trace result := by
  have waits : ∃ log, RegistryLog log := ⟨[], fun _ mem => by cases mem⟩
  have nothing : ∃ log : List Happening, log = [] := ⟨[], rfl⟩
  have entering : ∃ log, StageLog .verifyingRegistry .ready (· = []) (· = []) log :=
    ⟨_, [], [], rfl, rfl, rfl⟩
  refine run.keeps_log (fun t r s goes => ?_) (fun t r s last => ?_) waits entering
  · refine ⟨verifyRegistry_keeps goes, [], ?_, fun _ _ => rfl⟩
    rw [List.append_nil]
    exact verifyRegistry_keeps_log goes
  · refine last.keeps_log (fun t r s goes => ?_) (fun t r s done => ?_) nothing nothing
    · obtain ⟨rfl, -, rfl⟩ := goes_pure_iff.mp goes
      exact ⟨rfl, [], rfl, fun _ _ => rfl⟩
    · cases done
      exact ⟨[], rfl, fun _ _ => rfl⟩

/-- The log of the topic stages and the last ones. -/
def AllLog (names : List String) : List Happening → Prop :=
  StageLog .idle .creatingTopics (· = [.topicsCreated names])
    (StageLog .creatingTopics .verifyingTopics (TopicLog names) (LastLog .verifyingTopics))

theorem stages_keep_log
    (run : Stages (reconciler.topicStages ++ reconciler.lastStages) .idle trace result stop) :
    Keeps (AllLog reconciler.topicNames) trace result := by
  obtain ⟨seen, topics⟩ := exists_topicLog reconciler.topicNames
  obtain ⟨last, ended⟩ := exists_lastLog .verifyingTopics
  refine run.keeps_log (fun t r s goes => ?_) (fun t r s verifying => ?_) ⟨_, rfl⟩
    ⟨_, seen, last, topics, ended, rfl⟩
  · exact ⟨createTopics_keeps goes, createTopics_keeps_log goes⟩
  · refine verifying.keeps_log (fun t r s goes => ?_) (fun t r s last => ?_) ⟨seen, topics⟩
      ⟨last, ended⟩
    · exact ⟨verifyTopics_keeps goes, verifyTopics_keeps_log goes⟩
    · exact lastStages_keeps_log last

/-- The work of a run keeps the whole log but for its end. -/
theorem workPhases_keeps_log (goes : Goes reconciler.workPhases .idle trace result stop) :
    Keeps (fun log => ∀ duration,
      FullLog reconciler.topicNames (log ++ [.ready reconciler.topicNames duration])) trace
      result := by
  rcases goes_workPhases goes with ⟨none, message, rest, rfl, stages⟩ | ⟨declared, stages⟩
  · have unnamed : reconciler.topicNames = [] := by rw [topicNames, none]; rfl
    obtain ⟨more, ⟨waits, _, registry, ⟨_, _, rfl, rfl, rfl⟩, whole⟩, ended⟩ :=
      lastStages_keeps_log stages
    refine ⟨more, fun duration => ?_, ended⟩
    have full : FullLog [] (_ ++ [_, .ready [] duration]) := .undeclared registry
    rw [unnamed, announcements_logged, whole]
    simpa using full
  · have named : reconciler.topicNames ≠ [] := by simpa [topicNames] using declared
    obtain ⟨more, ⟨_, _, rfl, ⟨seen, _, topics, ⟨waits, _, registry, ⟨_, _, rfl, rfl, rfl⟩, rfl⟩,
      rfl⟩, whole⟩, ended⟩ := stages_keep_log stages
    refine ⟨more, fun duration => ?_, ended⟩
    have full : FullLog reconciler.topicNames (_ ++ [_, .ready _ duration]) :=
      .declared named topics registry
    rw [whole]
    simpa [opening] using full

end Stages

section Told

/-- Every announcement is made. -/
def Told (trace : List Exchange) : Prop :=
  ∀ phase happening answer, (⟨.announce phase happening, answer⟩ : Exchange) ∈ trace →
    answer = .ok ()

/-- Nothing is announced but a run's own news. -/
theorem ensureReady_own (goes : Goes reconciler.ensureReady .idle trace result stop)
    (object : ForeignObject) : .foreign object ∉ announcements trace := by
  have working : ∀ {work : List Exchange} {outcome : Result Unit} {phase : Phase} (started : Float),
      Goes reconciler.workPhases .idle work outcome phase →
        .foreign object ∉ announcements (⟨.clock, started⟩ :: work) := by
    intro work outcome phase started worked told
    obtain ⟨_, _, mem⟩ := mem_announcements.mp told
    exact started_ongoing started worked _ mem _ _ rfl
  cases goes_ensureReady goes with
  | failed worked fails =>
    rw [announcements_append, List.mem_append, not_or]
    refine ⟨working _ worked, ?_⟩
    obtain ⟨-, message, ⟨cut, rfl, -⟩ | rfl⟩ := goes_fail fails <;>
      simp [announcements, changing, logged]
  | ready worked =>
    rw [announcements_append, List.mem_append, not_or]
    refine ⟨working _ worked, ?_⟩
    simp [announcements, logged]

variable {ε σ : Type} {perform : ε → StateM σ (Result Unit)}
  {record : Level → String → StateM σ Unit}

/-- Callbacks that meet ordinary faults only let every announcement through. -/
theorem ensureReady_told (goes : Goes reconciler.ensureReady .idle trace result stop)
    (heard : Heard perform record trace) (ordinary : Router.Ordinary perform) : Told trace := by
  intro told happening answer mem
  obtain ⟨router, world, time, rfl⟩ := heard told happening answer mem
  have own : ∀ object, (Event.announced happening time).happening ≠ .foreign object := by
    rintro object rfl
    exact ensureReady_own goes object (mem_announcements.mpr ⟨_, _, mem⟩)
  exact Router.emit_ok own ordinary router world

/-- Failing tells the change to the failed phase and then what failed. -/
theorem fail_announces {failure : Failure} {closing : List Exchange} {told : Result Unit}
    (fails : Goes (fail failure) phase closing told stop) (all : Told closing) :
    told = .ok () ∧ announcements closing =
      [.stateChanged phase .failed, .failed phase failure.name failure.message] := by
  obtain ⟨rfl, message, ⟨cut, rfl, rfl⟩ | rfl⟩ := goes_fail fails
  · have made := all _ _ _ (.tail _ (.tail _ (.head _)))
    cases made
  · have last : (⟨.announce .failed (.failed phase failure.name failure.message), told⟩ :
        Exchange) ∈ logged .error message :: changing phase .failed (.ok ()) ++
          [⟨.announce .failed (.failed phase failure.name failure.message), told⟩] :=
      List.mem_append_right _ (.head _)
    exact ⟨all _ _ _ last, rfl⟩

end Told

section Runs

variable {ε σ : Type} {perform : ε → StateM σ (Result Unit)}
  {record : Level → String → StateM σ Unit}

/-- A run that returns has announced a full log. A run that fails has announced how a full log
begins, no further than to the ready phase, then the change to the failed phase, and last what it
raises and the phase in which that arose. -/
theorem ensureReady_log (goes : Goes reconciler.ensureReady .idle trace result stop)
    (heard : Heard perform record trace) (ordinary : Router.Ordinary perform) :
    (result = .ok () → FullLog reconciler.topicNames (announcements trace)) ∧
    ∀ failure, result = .error failure → ∃ told rest,
      FullLog reconciler.topicNames (told ++ rest) ∧
      (∀ previous, .stateChanged previous .ready ∉ told) ∧
      announcements trace = told ++ [.stateChanged (reached told) .failed,
        .failed (reached told) failure.name failure.message] := by
  have told := ensureReady_told goes heard ordinary
  cases goes_ensureReady goes with
  | @failed started work closing failure phase stop answer worked fails =>
    have way := workPhases_way worked
    obtain ⟨rfl, closed⟩ := fail_announces fails fun _ _ _ mem =>
      told _ _ _ (List.mem_append_right _ mem)
    obtain ⟨more, kept, -⟩ := workPhases_keeps_log worked
    -- the work fails in the ready phase only if the announcement of that phase fails
    have unready : phase ≠ .ready := by
      intro ready
      obtain ⟨previous, cut, mem⟩ := way.interrupted.mpr ⟨ready, fun h => by cases h⟩
      cases told _ _ _ (List.mem_append_left _ (.tail _ mem))
    have here : reached (announcements work) = phase := way.leads.foldl_eq
    refine ⟨fun h => (by cases h), fun raised h => ?_⟩
    cases h
    refine ⟨announcements work, more ++ [.ready reconciler.topicNames 0], ?_, ?_, ?_⟩
    · rw [← List.append_assoc]
      exact kept 0
    · intro previous entered
      exact unready (way.leads.eq_ready way.permitted (mem_changes.mpr entered))
    · rw [announcements_append, closed, here]
      rfl
  | @ready started ended work message stop answer worked =>
    have last := told stop (.ready reconciler.topicNames (ended - started)) result
      (List.mem_append_right _ (.tail _ (.tail _ (.head _))))
    subst last
    obtain ⟨more, kept, whole⟩ := workPhases_keeps_log worked
    obtain rfl := whole () rfl
    refine ⟨fun _ => ?_, fun _ h => by cases h⟩
    rw [announcements_append]
    have full := kept (ended - started)
    rw [List.append_nil] at full
    exact full

/-- A callback's own mistake, whatever it is to do to the world outside. -/
def stumble (_ : Unit) : StateM Unit (Result Unit) := pure (.error (.of (.runtime "stumbled")))

theorem stumble_ordinary : Router.Ordinary stumble := by
  intro effect world failure after failed
  cases failed
  rfl

/-- The callbacks of a router hear what is announced, and stumble; all else is answered as given. -/
def overheard (router : Router Unit) (answer : List Exchange → (r : Request) → r.Answer)
    (past : List Exchange) : (r : Request) → r.Answer
  | .announce _ happening =>
    (Router.ran (Router.emit stumble Router.unlogged (.announced happening 0)) router ()).1.1
  | r => answer past r

theorem heard_overheard {α : Type} {router : Router Unit}
    {answer : List Exchange → (r : Request) → r.Answer} {program : Program α}
    {past : List Exchange} : Heard stumble Router.unlogged
      (Program.follow (overheard router answer) program past).1 := by
  intro phase happening told mem
  obtain ⟨before, after, split⟩ := List.append_of_mem mem
  exact ⟨router, (), 0, Program.answer_of_follow_eq split⟩

/-- A topic that never shows up is waited for and given up, while a callback keeps failing. -/
theorem ensureReady_log_unlisted :
    let router : Router Unit :=
      ⟨[⟨"pager", "Scripted", [], .scripted [[.perform ()]]⟩], ["pager"], []⟩
    let run := Program.follow (overheard router fun _ => obliging [])
      (ordersOnly.ensureReady.run.run .idle) []
    let failure : Failure := .of (.topicNotReady "orders" 3)
    run.2 = (.error failure, .failed) ∧ (announcements run.1).length = 7 ∧
    ∃ told rest, FullLog ["orders"] (told ++ rest) ∧
      (∀ previous, .stateChanged previous .ready ∉ told) ∧
      announcements run.1 = told ++ [.stateChanged (reached told) .failed,
        .failed (reached told) failure.name failure.message] := by
  intro router run failure
  have ended : run.2 = (.error failure, .failed) := by decide +kernel
  have goes : Goes ordersOnly.ensureReady .idle run.1 run.2.1 run.2.2 := runs_follow _ _ _
  obtain ⟨-, failed⟩ := ensureReady_log goes heard_overheard stumble_ordinary
  exact ⟨ended, by decide +kernel, failed failure (by rw [ended])⟩

end Runs

end Reconciler

end ClusterReadiness
