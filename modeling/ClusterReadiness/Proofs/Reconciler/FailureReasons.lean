import ClusterReadiness.Proofs.Reconciler.Streaks

/-!
# Why a run fails

A run fails in one of few ways, each of which is told by what the surroundings answered: a request
was given up, a topic or the registry was not there in time, a sleep was cut short, or a shutdown
was asked for. All but one of them decide the run: when they are met, it fails in that way.
-/

namespace ClusterReadiness

namespace Reconciler

variable {reconciler : Reconciler} {start stop next phase : Phase} {body : Work Unit}
  {trace first rest : List Exchange} {result : Result Unit} {failure : Failure}
  {stages others : List (Phase × Work Unit)}

section Stages

/-- The kind of the calls that a phase makes. -/
def kindOf : Phase → Request → Bool
  | .creatingTopics => Request.isCreation
  | .verifyingTopics => Request.isListing
  | _ => Request.isProbe

theorem kindOf_port (phase : Phase) (request : Request) (is : kindOf phase request = true) :
    request.IsPortCall := by
  cases phase with
  | creatingTopics => exact Request.isCreation_port request is
  | verifyingTopics => exact Request.isListing_port request is
  | _ => exact Request.isProbe_port request is

/-- How the work of a phase fails. -/
def Fails (reconciler : Reconciler) (work : List Exchange) (failure : Failure) : Phase → Prop
  | .creatingTopics => Abandons reconciler reconciler.creationGivenUp work failure
  | .verifyingTopics => Unverified reconciler reconciler.topicNames 0 [] work failure
  | .verifyingRegistry => Unhealthy reconciler (.start reconciler.wait) work failure
  | _ => False

/-- Work that fails in a phase, with nothing of the kind before it. -/
structure BreaksOff (reconciler : Reconciler) (phase : Phase) (before work : List Exchange)
    (failure : Failure) : Prop where
  fails : Fails reconciler work failure phase
  settled : Settled (portCalls before)
  apart : callsOf (kindOf phase) before = []
  own : callsOf (kindOf phase) work = portCalls work

/-- How some stages fail, and in which phase: a shutdown is asked for ahead of the next one, or the
work of one breaks off. -/
inductive Founders (reconciler : Reconciler) (phases : List Phase) (trace : List Exchange)
    (failure : Failure) (phase : Phase) : Prop where
  | shutdown {next : Phase} (asked : (⟨.isInterrupted, true⟩ : Exchange) ∈ trace)
      (permitted : Permitted reconciler phase next) (ahead : next ≠ .failed)
      (raised : failure = shutdownBefore next) : Founders reconciler phases trace failure phase
  | work {before work : List Exchange} (among : phase ∈ phases) (split : trace = before ++ work)
      (breaks : BreaksOff reconciler phase before work failure) :
      Founders reconciler phases trace failure phase

theorem Founders.append_left {phases all : List Phase}
    (founders : Founders reconciler phases rest failure phase)
    (settled : Settled (portCalls first)) (more : ∀ p ∈ phases, p ∈ all)
    (apart : ∀ p ∈ phases, p ≠ .ready → callsOf (kindOf p) first = []) :
    Founders reconciler all (first ++ rest) failure phase := by
  cases founders with
  | shutdown asked permitted ahead raised =>
    exact .shutdown (List.mem_append_right _ asked) permitted ahead raised
  | @work before work among split breaks =>
    have whole : first ++ rest = (first ++ before) ++ work := by rw [split, List.append_assoc]
    have working : phase ≠ .ready := by
      rintro rfl
      exact breaks.fails.elim
    refine .work (more phase among) whole ⟨breaks.fails, ?_, ?_, breaks.own⟩
    · rw [portCalls_append]
      exact settled.append breaks.settled
    · rw [callsOf_append, apart phase among working, breaks.apart]
      rfl

/-- The exchanges with which a phase is entered. -/
def entering (previous next : Phase) : List Exchange :=
  ⟨.isInterrupted, false⟩ :: changing previous next (.ok ())

theorem entering_portCalls (previous next : Phase) : portCalls (entering previous next) = [] := rfl

/-- Exchanges without port calls have none of any kind. -/
theorem callsOf_eq_nil {kind : Request → Bool} (port : ∀ r, kind r = true → r.IsPortCall)
    (quiet : portCalls trace = []) : callsOf kind trace = [] := by
  refine List.filter_eq_nil_iff.mpr fun e mem counted => ?_
  have call : e ∈ portCalls trace := mem_portCalls.mpr ⟨mem, port _ counted⟩
  rw [quiet] at call
  cases call

variable (mem : (next, body) ∈ reconciler.topicStages ++ reconciler.lastStages)
include mem

theorem body_fails (goes : Goes body next trace (.error failure) stop)
    (foreseen : ∀ e ∈ trace, e.Foreseen) (told : Told trace) :
    Fails reconciler trace failure next := by
  rcases eq_of_mem_stages mem with ⟨rfl, rfl⟩ | ⟨rfl, rfl⟩ | ⟨rfl, rfl⟩ | ⟨rfl, rfl⟩
  · exact createTopics_abandons goes foreseen told
  · exact verifyTopics_unverified goes foreseen told
  · exact verifyRegistry_unhealthy goes foreseen told
  · cases (goes_pure_iff.mp goes).2.1

/-- The work of a stage that is entered is where the calls of the stage are. -/
theorem body_own (goes : Goes body next trace result stop) (working : next ≠ .ready) :
    callsOf (kindOf next) trace = portCalls trace := by
  have stage : Stage next body next (entering next next ++ trace) result stop := .worked goes
  have own : kindOf next (reconciler.portOf next) = true := by
    rcases eq_of_mem_stages mem with ⟨rfl, -⟩ | ⟨rfl, -⟩ | ⟨rfl, -⟩ | ⟨rfl, -⟩
    · rfl
    · rfl
    · rfl
    · exact absurd rfl working
  have quiet := entering_portCalls next next
  have calls := stage_callsOf (kindOf_port next) mem stage
  rw [if_pos own, callsOf_append, portCalls_append, quiet,
    callsOf_eq_nil (kindOf_port next) quiet] at calls
  exact calls

/-- A stage that succeeds has settled its calls. -/
theorem stage_settled (stage : Stage next body start trace (.ok ()) stop)
    (foreseen : ∀ e ∈ trace, e.Foreseen) : Settled (portCalls trace) := by
  obtain ⟨work, goes, rfl⟩ := stage.succeeds
  have quiet : portCalls (⟨.isInterrupted, false⟩ :: changing start next (.ok ())) = [] := rfl
  rw [portCalls_append, quiet, List.nil_append]
  have within := (List.forall_mem_append.mp foreseen).2
  rcases eq_of_mem_stages mem with ⟨rfl, rfl⟩ | ⟨rfl, rfl⟩ | ⟨rfl, rfl⟩ | ⟨rfl, rfl⟩
  · exact (createTopics_mended goes within).settled
  · exact (verifyTopics_mended goes within).settled
  · obtain ⟨earlier, calls⟩ := verifyRegistry_probed goes
    rw [calls]
    exact settled_append_singleton rfl
  · obtain ⟨rfl, -, -⟩ := goes_pure_iff.mp goes
    exact settled_nil

theorem stage_founders (stage : Stage next body start trace (.error failure) stop)
    (permitted : Permitted reconciler start next) (ahead : next ≠ .failed)
    (foreseen : ∀ e ∈ trace, e.Foreseen) (told : Told trace) :
    Founders reconciler [next] trace failure stop := by
  cases stage with
  | refused => exact .shutdown (.head _) permitted ahead rfl
  | untold => cases told _ _ _ (.tail _ (.tail _ (.head _)))
  | @worked work _ _ goes =>
    obtain rfl := stage_keeps mem goes
    have fails := body_fails mem goes (List.forall_mem_append.mp foreseen).2 told.right
    have working : stop ≠ .ready := by
      rintro rfl
      exact fails.elim
    have quiet := entering_portCalls start stop
    have settled : Settled (portCalls (entering start stop)) := by
      rw [quiet]
      exact settled_nil
    exact .work (.head _) rfl ⟨fails, settled, callsOf_eq_nil (kindOf_port stop) quiet,
      body_own mem goes working⟩

omit mem

/-- Stages in an order that the graph of phases allows, no two of which make calls of one kind. -/
inductive Ordered (reconciler : Reconciler) : Phase → List (Phase × Work Unit) → Prop where
  | nil {start : Phase} : Ordered reconciler start []
  | cons {start next : Phase} {body : Work Unit} {others : List (Phase × Work Unit)}
      (known : (next, body) ∈ reconciler.topicStages ++ reconciler.lastStages)
      (permitted : Permitted reconciler start next) (ahead : next ≠ .failed)
      (apart : ∀ later ∈ others.map Prod.fst, later ≠ .ready →
        later ≠ next ∧ kindOf later (reconciler.portOf next) = false)
      (more : Ordered reconciler next others) : Ordered reconciler start ((next, body) :: others)

theorem ordered_lastStages (permitted : Permitted reconciler start .verifyingRegistry) :
    Ordered reconciler start reconciler.lastStages := by
  refine .cons (List.mem_append_right _ (.head _)) permitted (by decide) ?_ ?_
  · simp
  · refine .cons (List.mem_append_right _ (.tail _ (.head _))) .ready (by decide) ?_ .nil
    simp

theorem ordered_stages (declared : reconciler.topics ≠ []) :
    Ordered reconciler .idle (reconciler.topicStages ++ reconciler.lastStages) := by
  refine .cons (.head _) (.creating declared) (by decide) ?_ ?_
  · simp [lastStages, kindOf, portOf, Request.isListing, Request.isProbe]
  · refine .cons (.tail _ (.head _)) .verifying (by decide) ?_ (ordered_lastStages .probing)
    simp [lastStages, kindOf, portOf, Request.isProbe]

theorem Ordered.known {stage : Phase × Work Unit} (ordered : Ordered reconciler start stages)
    (mem : stage ∈ stages) : stage ∈ reconciler.topicStages ++ reconciler.lastStages := by
  induction ordered with
  | nil => cases mem
  | cons known _ _ _ _ ih =>
    rcases List.mem_cons.mp mem with rfl | mem
    · exact known
    · exact ih mem

/-- A stage makes no calls of the kinds that later stages do. -/
theorem stage_apart (stage : Stage next body start trace result stop)
    (known : (next, body) ∈ reconciler.topicStages ++ reconciler.lastStages)
    (other : kindOf phase (reconciler.portOf next) = false) :
    callsOf (kindOf phase) trace = [] := by
  have calls := stage_callsOf (kindOf_port phase) known stage
  rwa [if_neg (by rw [other]; exact Bool.false_ne_true)] at calls

/-- The stage where a run breaks off. -/
theorem Stages.founders (run : Stages stages start trace (.error failure) stop)
    (ordered : Ordered reconciler start stages) (foreseen : ∀ e ∈ trace, e.Foreseen)
    (told : Told trace) : Founders reconciler (stages.map Prod.fst) trace failure stop := by
  generalize hresult : Except.error failure = result at run
  induction run with
  | done => cases hresult
  | broken stage =>
    cases hresult
    cases ordered with
    | cons known permitted ahead apart more =>
      have founders := stage_founders known stage permitted ahead foreseen told
      have quiet : Settled (portCalls []) := settled_nil
      exact founders.append_left quiet (by simp) fun _ _ _ => rfl
  | more stage _ ih =>
    cases ordered with
    | cons known permitted ahead apart more =>
      obtain ⟨first, others⟩ := List.forall_mem_append.mp foreseen
      obtain ⟨work, goes, -⟩ := stage.succeeds
      obtain rfl := stage_keeps known goes
      have founders := ih more others told.right hresult
      refine founders.append_left (stage_settled known stage first) (fun p mem => .tail _ mem) ?_
      intro later mem working
      exact stage_apart stage known (apart later mem working).2

/-- The work of a phase does not ask for a shutdown. -/
theorem body_unasked (goes : Goes body next trace result stop)
    (known : (next, body) ∈ reconciler.topicStages ++ reconciler.lastStages) :
    (⟨.isInterrupted, true⟩ : Exchange) ∉ trace := by
  have concerns : ∀ call : Request, call ≠ .isInterrupted →
      (∀ e ∈ trace, Concerns next call e.request) →
      (⟨.isInterrupted, true⟩ : Exchange) ∉ trace :=
    fun call other all mem => other (all _ mem).symm
  rcases eq_of_mem_stages known with ⟨rfl, rfl⟩ | ⟨rfl, rfl⟩ | ⟨rfl, rfl⟩ | ⟨rfl, rfl⟩
  · exact concerns _ (by simp) (createTopics_concerns goes)
  · exact concerns _ (by simp) (verifyTopics_concerns goes)
  · exact concerns _ (by simp) (verifyRegistry_concerns goes)
  · exact concerns .probe (by simp) (pure_concerns _ _ _ goes)

/-- A shutdown that is asked for ends the stages. -/
theorem Stages.refused (run : Stages stages start trace result stop)
    (ordered : Ordered reconciler start stages)
    (asked : (⟨.isInterrupted, true⟩ : Exchange) ∈ trace) :
    ∃ next, Permitted reconciler stop next ∧ next ≠ .failed ∧
      result = .error (shutdownBefore next) := by
  have entered : ∀ previous next answer, (⟨.isInterrupted, true⟩ : Exchange) ∉
      ⟨.isInterrupted, false⟩ :: changing previous next answer := by
    intro previous next answer mem
    simp only [changing, List.mem_cons, List.not_mem_nil, or_false] at mem
    rcases mem with h | h | h <;> cases h
  induction run with
  | done => cases asked
  | broken stage =>
    cases ordered with
    | cons known permitted ahead =>
      cases stage with
      | refused => exact ⟨_, permitted, ahead, rfl⟩
      | untold => exact absurd asked (entered _ _ _)
      | worked goes =>
        rcases List.mem_append.mp asked with mem | mem
        · exact absurd mem (entered _ _ _)
        · exact absurd mem (body_unasked goes known)
  | more stage _ ih =>
    cases ordered with
    | cons known _ _ _ more =>
      obtain ⟨work, goes, rfl⟩ := stage.succeeds
      obtain rfl := stage_keeps known goes
      rcases List.mem_append.mp asked with early | late
      · rcases List.mem_append.mp early with mem | mem
        · exact absurd mem (entered _ _ _)
        · exact absurd mem (body_unasked goes known)
      · exact ih more late

section Home

variable {home : Phase} {own : Work Unit}
  (here : (home, own) ∈ reconciler.topicStages ++ reconciler.lastStages)
  (working : home ≠ .ready)
include here working

/-- The calls of a phase are made in its own stage only. -/
theorem stage_elsewhere (known : (next, body) ∈ reconciler.topicStages ++ reconciler.lastStages)
    (stage : Stage next body start trace result stop) (other : next ≠ home) :
    callsOf (kindOf home) trace = [] := by
  by_cases ready : next = .ready
  · subst ready
    have none : (portCalls trace).length ≤ 0 := (stage_costs known stage).calls
    exact callsOf_eq_nil (kindOf_port home) (List.eq_nil_of_length_eq_zero (Nat.le_zero.mp none))
  · refine stage_apart stage known ?_
    rcases eq_of_mem_stages here with ⟨rfl, -⟩ | ⟨rfl, -⟩ | ⟨rfl, -⟩ | ⟨rfl, -⟩ <;>
      rcases eq_of_mem_stages known with ⟨rfl, -⟩ | ⟨rfl, -⟩ | ⟨rfl, -⟩ | ⟨rfl, -⟩ <;>
      first | rfl | exact absurd rfl other | exact absurd rfl ready | exact absurd rfl working

theorem Stages.elsewhere (run : Stages stages start trace result stop)
    (ordered : Ordered reconciler start stages) (other : home ∉ stages.map Prod.fst) :
    callsOf (kindOf home) trace = [] := by
  induction run with
  | done => rfl
  | broken stage =>
    cases ordered with
    | cons known =>
      exact stage_elsewhere here working known stage fun same => other (same ▸ .head _)
  | more stage _ ih =>
    cases ordered with
    | cons known _ _ _ more =>
      obtain ⟨work, goes, -⟩ := stage.succeeds
      obtain rfl := stage_keeps known goes
      rw [callsOf_append, ih more fun mem => other (.tail _ mem), List.append_nil]
      exact stage_elsewhere here working known stage fun same => other (same ▸ .head _)

variable {decides : List Exchange → Prop} (nothing : ¬ decides [])
  (there : ∀ t r s, Goes own home t r s → (∀ e ∈ t, e.Foreseen) → Told t →
    decides (portCalls t) → r = .error failure)
include nothing there

theorem stage_decided (stage : Stage home own start trace result stop)
    (foreseen : ∀ e ∈ trace, e.Foreseen) (told : Told trace)
    (evidence : decides (callsOf (kindOf home) trace)) : result = .error failure := by
  cases stage with
  | refused =>
    rw [callsOf_eq_nil (kindOf_port home) rfl] at evidence
    exact absurd evidence nothing
  | untold => cases told _ _ _ (.tail _ (.tail _ (.head _)))
  | @worked work _ _ goes =>
    have quiet := callsOf_eq_nil (kindOf_port home) (entering_portCalls start home)
    have calls : callsOf (kindOf home) (entering start home ++ work) = portCalls work := by
      rw [callsOf_append, quiet, body_own here goes working]
      rfl
    refine there _ _ _ goes (List.forall_mem_append.mp foreseen).2 told.right ?_
    rw [← calls]
    exact evidence

/-- What the calls of a phase decide about its own work, they decide about all stages. -/
theorem Stages.decided (run : Stages stages start trace result stop)
    (ordered : Ordered reconciler start stages)
    (unique : ∀ body, (home, body) ∈ stages → body = own)
    (foreseen : ∀ e ∈ trace, e.Foreseen) (told : Told trace)
    (evidence : decides (callsOf (kindOf home) trace)) : result = .error failure := by
  induction run with
  | done => exact absurd evidence nothing
  | @broken next _ _ body _ _ _ stage =>
    cases ordered with
    | cons known =>
      by_cases same : next = home
      · subst same
        obtain rfl := unique body (.head _)
        exact stage_decided here working nothing there stage foreseen told evidence
      · rw [stage_elsewhere here working known stage same] at evidence
        exact absurd evidence nothing
  | @more next _ middle _ body _ done _ _ stage rest ih =>
    cases ordered with
    | cons known _ _ apart more =>
      obtain ⟨work, goes, -⟩ := stage.succeeds
      obtain rfl := stage_keeps known goes
      obtain ⟨first, others⟩ := List.forall_mem_append.mp foreseen
      rw [callsOf_append] at evidence
      by_cases same : middle = home
      · subst same
        obtain rfl := unique body (.head _)
        have later := rest.elsewhere here working more fun mem => (apart _ mem working).1 rfl
        rw [later, List.append_nil] at evidence
        have told : Told done := told.left
        cases stage_decided here working nothing there stage first told evidence
      · rw [stage_elsewhere here working known stage same, List.nil_append] at evidence
        exact ih more (fun body mem => unique body (.tail _ mem)) others told.right evidence

end Home

end Stages

section Work

/-- The stages that a run goes through, in order, after what it says first. -/
theorem workPhases_ordered (goes : Goes reconciler.workPhases .idle trace result stop) :
    ∃ lines rest stages, trace = lines ++ rest ∧
      (∀ e ∈ lines, ∃ message, e = logged .info message) ∧
      Stages stages .idle rest result stop ∧ Ordered reconciler .idle stages := by
  rcases goes_workPhases goes with ⟨none, message, rest, rfl, stages⟩ | ⟨declared, stages⟩
  · refine ⟨[logged .info message], rest, _, rfl, ?_, stages, ordered_lastStages (.undeclared none)⟩
    exact List.forall_mem_singleton.mpr ⟨message, rfl⟩
  · exact ⟨[], trace, _, rfl, List.forall_mem_nil _, stages, ordered_stages declared⟩

theorem portCalls_lines {lines : List Exchange}
    (logs : ∀ e ∈ lines, ∃ message, e = logged .info message) : portCalls lines = [] := by
  refine portCalls_eq_nil fun e mem => ?_
  obtain ⟨message, rfl⟩ := logs e mem
  exact id

theorem workPhases_founders (goes : Goes reconciler.workPhases .idle trace (.error failure) stop)
    (foreseen : ∀ e ∈ trace, e.Foreseen) (told : Told trace) :
    ∃ phases, Founders reconciler phases trace failure stop := by
  obtain ⟨lines, rest, stages, rfl, logs, run, ordered⟩ := workPhases_ordered goes
  have founders := run.founders ordered (List.forall_mem_append.mp foreseen).2 told.right
  have quiet := portCalls_lines logs
  refine ⟨_, founders.append_left ?_ (fun _ mem => mem) fun p _ _ =>
    callsOf_eq_nil (kindOf_port p) quiet⟩
  rw [quiet]
  exact settled_nil

theorem workPhases_decided {home : Phase} {own : Work Unit} (decides : List Exchange → Prop)
    (goes : Goes reconciler.workPhases .idle trace result stop)
    (here : (home, own) ∈ reconciler.topicStages ++ reconciler.lastStages) (working : home ≠ .ready)
    (foreseen : ∀ e ∈ trace, e.Foreseen) (told : Told trace) (nothing : ¬ decides [])
    (there : ∀ t r s, Goes own home t r s → (∀ e ∈ t, e.Foreseen) → Told t →
      decides (portCalls t) → r = .error failure)
    (evidence : decides (callsOf (kindOf home) trace)) : result = .error failure := by
  obtain ⟨lines, rest, stages, rfl, logs, run, ordered⟩ := workPhases_ordered goes
  have quiet := callsOf_eq_nil (kindOf_port home) (portCalls_lines logs)
  rw [callsOf_append, quiet, List.nil_append] at evidence
  refine run.decided here working nothing there ordered ?_ (List.forall_mem_append.mp foreseen).2
    told.right evidence
  intro body mem
  rcases eq_of_mem_stages here with ⟨rfl, rfl⟩ | ⟨rfl, rfl⟩ | ⟨rfl, rfl⟩ | ⟨rfl, rfl⟩ <;>
    rcases eq_of_mem_stages (ordered.known mem) with ⟨h, rfl⟩ | ⟨h, rfl⟩ | ⟨h, rfl⟩ | ⟨h, rfl⟩ <;>
    first | rfl | cases h

theorem workPhases_refused (goes : Goes reconciler.workPhases .idle trace result stop)
    (asked : (⟨.isInterrupted, true⟩ : Exchange) ∈ trace) :
    ∃ next, Permitted reconciler stop next ∧ next ≠ .failed ∧
      result = .error (shutdownBefore next) := by
  obtain ⟨lines, rest, stages, rfl, logs, run, ordered⟩ := workPhases_ordered goes
  refine run.refused ordered ((List.mem_append.mp asked).resolve_left fun mem => ?_)
  obtain ⟨message, h⟩ := logs _ mem
  cases h

end Work

/-- Ahead of the failed phase the graph does not branch. -/
theorem Permitted.unique {other : Phase} (permitted : Permitted reconciler phase next)
    (also : Permitted reconciler phase other) (ahead : next ≠ .failed) (ahead' : other ≠ .failed) :
    next = other := by
  cases permitted with
  | failed => exact absurd rfl ahead
  | creating declared =>
    cases also with
    | creating => rfl
    | undeclared none => exact absurd none declared
    | failed => exact absurd rfl ahead'
  | undeclared none =>
    cases also with
    | creating declared => exact absurd none declared
    | undeclared => rfl
    | failed => exact absurd rfl ahead'
  | _ =>
    cases also with
    | failed => exact absurd rfl ahead'
    | _ => rfl

section Reasons

/-- What decides that a run fails, in which phase and with what: all creation calls failed, all
calls of one listing request did, all probes found the registry unhealthy, a sleep was cut short, or
a shutdown was asked for ahead of the next phase. -/
inductive Decided (reconciler : Reconciler) (trace : List Exchange) : Phase → Failure → Prop where
  | creation {last : Failure}
      (exhausts : Exhausts reconciler.retry.maxAttempts (callsOf Request.isCreation trace) last) :
      Decided reconciler trace .creatingTopics
        (givenUp reconciler.retry reconciler.creationGivenUp last)
  | listing {earlier failed later : List Exchange} {last : Failure}
      (calls : callsOf Request.isListing trace = earlier ++ failed ++ later)
      (settled : Settled earlier) (exhausts : Exhausts reconciler.retry.maxAttempts failed last) :
      Decided reconciler trace .verifyingTopics (givenUp reconciler.retry listingGivenUp last)
  | unhealthy {count : Nat}
      (probes : callsOf Request.isProbe trace = List.replicate count probedUnhealthy)
      (all : count = reconciler.wait.maxAttempts) :
      Decided reconciler trace .verifyingRegistry
        (.of (.registryNotReady reconciler.wait.maxAttempts))
  | cutShort {phase : Phase} {delay : Number} {cut : Failure}
      (mem : (⟨.sleep delay, .error cut⟩ : Exchange) ∈ trace) : Decided reconciler trace phase cut
  | shutdown {phase next : Phase} (asked : (⟨.isInterrupted, true⟩ : Exchange) ∈ trace)
      (left : .stateChanged phase .failed ∈ announcements trace)
      (permitted : Permitted reconciler phase next) (ahead : next ≠ .failed) :
      Decided reconciler trace phase (shutdownBefore next)

/-- A declared topic is not in the last listing, and there were as many as there are attempts. -/
def Unlisted (reconciler : Reconciler) (trace : List Exchange) (phase : Phase)
    (failure : Failure) : Prop :=
  phase = .verifyingTopics ∧ ∃ name ∈ reconciler.topicNames,
    failure = .of (.topicNotReady name reconciler.wait.maxAttempts) ∧
    ((listings trace).length : Int) = reconciler.wait.maxAttempts ∧
    ∃ last, (listings trace).getLast? = some last ∧ name ∉ last

/-- Not part of the work: neither a port call, nor a sleep, nor the question whether to go on. -/
def Aside : Request → Prop
  | .clock | .announce .. | .record .. => True
  | _ => False

theorem portCalls_aside (aside : ∀ e ∈ trace, Aside e.request) : portCalls trace = [] := by
  refine portCalls_eq_nil fun e mem port => ?_
  have off := aside e mem
  cases request : e.request with
  | createTopics | listTopics | probe =>
    rw [request] at off
    exact off
  | _ =>
    rw [request] at port
    exact port

/-- A run that is announced throughout is its work, and what is said before and after it. -/
theorem ensureReady_split (goes : Goes reconciler.ensureReady .idle trace result stop)
    (told : Told trace) : ∃ opening work closing outcome phase, trace = opening ++ work ++ closing ∧
      (∀ e ∈ opening, Aside e.request) ∧ (∀ e ∈ closing, Aside e.request) ∧
      Goes reconciler.workPhases .idle work outcome phase ∧
      announcements opening = [] ∧
      (∀ previous, .stateChanged previous .failed ∈ announcements closing → previous = phase) ∧
      ((outcome = .ok () ∧ result = .ok ()) ∨ ∃ failure, outcome = .error failure ∧
        result = .error (raisedAs phase failure) ∧
        announcements closing = [.stateChanged phase .failed,
          .failed phase (raisedAs phase failure).name (raisedAs phase failure).message]) := by
  cases goes_ensureReady goes with
  | @failed started work closing failure phase _ _ worked fails =>
    obtain ⟨rfl, closed⟩ := fail_announces fails told.right
    refine ⟨[⟨.clock, started⟩], work, closing, _, phase, rfl, ?_, ?_, worked, rfl, ?_,
      .inr ⟨failure, rfl, rfl, closed⟩⟩
    · exact List.forall_mem_singleton.mpr trivial
    · obtain ⟨-, message, ⟨cut, rfl, -⟩ | rfl⟩ := goes_fail fails <;>
        simp [changing, logged, Aside]
    · intro previous changed
      rw [closed] at changed
      simpa using changed
  | @ready started ended work message _ _ worked =>
    refine ⟨[⟨.clock, started⟩], work, _, _, stop, rfl, ?_, ?_, worked, rfl, ?_, .inl ⟨rfl, ?_⟩⟩
    · exact List.forall_mem_singleton.mpr trivial
    · simp [logged, Aside]
    · simp [announcements, logged]
    · exact told stop (.ready reconciler.topicNames (ended - started)) result
        (List.mem_append_right _ (.tail _ (.tail _ (.head _))))

theorem listings_eq_nil (none : callsOf Request.isListing trace = []) : listings trace = [] := by
  refine List.filterMap_eq_nil_iff.mpr fun e mem => ?_
  have other := List.filter_eq_nil_iff.mp none e mem
  obtain ⟨request, answer⟩ := e
  cases request with
  | listTopics => exact absurd rfl other
  | _ => rfl

/-- Work that breaks off is the reason why the run fails. -/
theorem BreaksOff.reason {before work closing : List Exchange}
    (breaks : BreaksOff reconciler phase before work failure) (quiet : portCalls closing = [])
    (timed : ¬ DelayRaised reconciler (before ++ work ++ closing)) :
    Decided reconciler (before ++ work ++ closing) phase failure ∨
      Unlisted reconciler (before ++ work ++ closing) phase failure := by
  obtain ⟨fails, settled, apart, own⟩ := breaks
  have after : callsOf (kindOf phase) closing = [] := callsOf_eq_nil (kindOf_port phase) quiet
  have calls : callsOf (kindOf phase) (before ++ work ++ closing) = portCalls work := by
    rw [callsOf_append, callsOf_append, apart, after, own, List.nil_append, List.append_nil]
  have short : Cut reconciler work failure →
      Decided reconciler (before ++ work ++ closing) phase failure := by
    intro cut
    cases (cut.append_left settled).append_right quiet with
    | slept mem => exact .cutShort mem
    | undelayed raised => exact absurd raised timed
  cases phase with
  | creatingTopics =>
    cases fails with
    | exhausted exhausts =>
      rw [← calls] at exhausts
      exact .inl (.creation exhausts)
    | cut cut => exact .inl (short cut)
  | verifyingTopics =>
    cases fails with
    | @abandoned earlier asked _ split mended abandons =>
      cases abandons with
      | exhausted exhausts =>
        have all : callsOf Request.isListing (before ++ work ++ closing) =
            portCalls earlier ++ portCalls asked ++ [] := by
          rw [List.append_nil, ← portCalls_append, ← split]
          exact calls
        exact .inl (.listing all mended.settled exhausts)
      | cut cut =>
        rw [split] at short
        exact .inl (split ▸ short (cut.append_left mended.settled))
    | @unlisted name mended declared missing all =>
      have same : listings (before ++ work ++ closing) = listings work := by
        rw [listings_append, listings_append, listings_eq_nil apart, listings_eq_nil after,
          List.nil_append, List.append_nil]
      refine .inr ⟨rfl, name, declared, rfl, ?_, ?_⟩
      · rw [same]
        omega
      · rw [same]
        have attempts := reconciler.wait.attempts_pos
        cases final : (listings work).getLast? with
        | none =>
          rw [List.getLast?_eq_none_iff.mp final, List.length_nil] at all
          omega
        | some last =>
          rw [List.getLastD_eq_getLast?, final] at missing
          exact ⟨last, rfl, missing⟩
  | verifyingRegistry =>
    cases fails with
    | spent probes all =>
      rw [← calls] at probes
      have counted : ((PollState.start reconciler.wait).attempt : Int) = 1 := rfl
      refine .inl (.unhealthy probes ?_)
      omega
    | cut _ _ cut => exact .inl (short cut)
  | _ => exact fails.elim

/-- None of the reasons is a user interrupt. -/
theorem Decided.raisedAs_eq (decided : Decided reconciler trace phase failure)
    (foreseen : ∀ e ∈ trace, e.Foreseen) (other : Phase) : raisedAs other failure = failure := by
  cases decided with
  | cutShort mem =>
    have cut : failure.fault.isInterruptedWait = true := foreseen _ mem
    unfold raisedAs
    rw [if_neg]
    intro raw
    rw [not_isInterruptedWait_of_raw raw] at cut
    cases cut
  | _ => rfl

section Deciding

variable {last : Failure}
  (goes : Goes reconciler.workPhases .idle trace result stop)
  (foreseen : ∀ e ∈ trace, e.Foreseen) (told : Told trace)
include goes foreseen told

theorem creation_decides
    (streak : StreakOf reconciler.retry.maxAttempts (callsOf Request.isCreation trace) last) :
    result = .error (givenUp reconciler.retry reconciler.creationGivenUp last) := by
  have here : (.creatingTopics, reconciler.createTopics) ∈
      reconciler.topicStages ++ reconciler.lastStages := .head _
  refine workPhases_decided (StreakOf reconciler.retry.maxAttempts · last) goes here (by decide)
    foreseen told (not_streakOf reconciler.retry.attempts_pos) ?_ streak
  intro t r s created foreseen told streak
  cases r with
  | ok =>
    have mended := createTopics_mended created foreseen
    exact absurd streak (mended.no_streak reconciler.retry.attempts_pos)
  | error failure => rw [(createTopics_abandons created foreseen told).of_streakOf streak]

theorem listing_decides
    (streak : StreakOf reconciler.retry.maxAttempts (callsOf Request.isListing trace) last) :
    result = .error (givenUp reconciler.retry listingGivenUp last) := by
  have here : (.verifyingTopics, reconciler.fresh reconciler.verifyTopics) ∈
      reconciler.topicStages ++ reconciler.lastStages := .tail _ (.head _)
  refine workPhases_decided (StreakOf reconciler.retry.maxAttempts · last) goes here (by decide)
    foreseen told (not_streakOf reconciler.retry.attempts_pos) ?_ streak
  intro t r s verified foreseen told streak
  cases r with
  | ok =>
    have mended := verifyTopics_mended verified foreseen
    exact absurd streak (mended.no_streak reconciler.retry.attempts_pos)
  | error failure => rw [(verifyTopics_unverified verified foreseen told).of_streakOf streak]

theorem registry_decides {count : Nat} (all : count = reconciler.wait.maxAttempts)
    (probes : callsOf Request.isProbe trace = List.replicate count probedUnhealthy) :
    result = .error (.of (.registryNotReady reconciler.wait.maxAttempts)) := by
  have attempts := reconciler.wait.attempts_pos
  have here : (.verifyingRegistry, reconciler.fresh reconciler.verifyRegistry) ∈
      reconciler.topicStages ++ reconciler.lastStages := .tail _ (.tail _ (.head _))
  refine workPhases_decided (· = List.replicate count probedUnhealthy) goes here (by decide)
    foreseen told ?_ ?_ probes
  · intro none
    have long := congrArg List.length none
    rw [List.length_nil, List.length_replicate] at long
    omega
  · intro t r s probing foreseen told probes
    cases r with
    | ok =>
      obtain ⟨earlier, calls⟩ := verifyRegistry_probed probing
      have healthy : (⟨.probe, .ok true⟩ : Exchange) ∈ List.replicate count probedUnhealthy := by
        rw [← probes, calls]
        exact List.mem_append_right _ (.head _)
      cases List.eq_of_mem_replicate healthy
    | error failure =>
      have counted : ((PollState.start reconciler.wait).attempt : Int) = 1 := rfl
      cases verifyRegistry_unhealthy probing foreseen told with
      | spent => rfl
      | cut others fewer =>
        rw [probes] at others
        have long := congrArg List.length others
        rw [List.length_replicate, List.length_replicate] at long
        omega

end Deciding

/-- What decides the run is in its work, and the work comes to it. -/
theorem Decided.raises {opening work closing : List Exchange}
    (decided : Decided reconciler (opening ++ work ++ closing) phase failure)
    (ahead : ∀ e ∈ opening, Aside e.request) (behind : ∀ e ∈ closing, Aside e.request)
    (goes : Goes reconciler.workPhases .idle work result stop)
    (foreseen : ∀ e ∈ work, e.Foreseen) (told : Told work)
    (left : .stateChanged phase .failed ∈ announcements (opening ++ work ++ closing) →
      phase = stop) : result = .error failure := by
  have calls : ∀ phase, callsOf (kindOf phase) (opening ++ work ++ closing) =
      callsOf (kindOf phase) work := by
    intro phase
    rw [callsOf_append, callsOf_append, callsOf_eq_nil (kindOf_port phase) (portCalls_aside ahead),
      callsOf_eq_nil (kindOf_port phase) (portCalls_aside behind), List.nil_append,
      List.append_nil]
  have within : ∀ e ∈ opening ++ work ++ closing, ¬ Aside e.request → e ∈ work := by
    intro e mem active
    rcases List.mem_append.mp mem with mem | mem
    · exact (List.mem_append.mp mem).resolve_left fun mem => active (ahead e mem)
    · exact absurd (behind e mem) active
  cases decided with
  | @creation last exhausts =>
    rw [show callsOf Request.isCreation _ = _ from calls .creatingTopics] at exhausts
    have all : callsOf Request.isCreation work = [] ++ callsOf Request.isCreation work ++ [] := by
      rw [List.nil_append, List.append_nil]
    exact creation_decides goes foreseen told ⟨[], _, [], all, exhausts⟩
  | listing split _ exhausts =>
    rw [show callsOf Request.isListing _ = _ from calls .verifyingTopics] at split
    exact listing_decides goes foreseen told ⟨_, _, _, split, exhausts⟩
  | unhealthy probes all =>
    rw [show callsOf Request.isProbe _ = _ from calls .verifyingRegistry] at probes
    exact registry_decides goes foreseen told all probes
  | cutShort mem =>
    have slept := within _ mem id
    have cut : failure.fault.isInterruptedWait = true := foreseen _ slept
    exact workPhases_surfaces goes _ slept failure rfl (isRetryable_of_interrupt (.inr cut))
  | @shutdown _ next asked changed permitted unfailed =>
    obtain rfl := left changed
    obtain ⟨other, also, unfailed', raised⟩ := workPhases_refused goes (within _ asked id)
    rw [raised, also.unique permitted unfailed' unfailed]

variable {ε σ : Type} {perform : ε → StateM σ (Result Unit)}
  {record : Level → String → StateM σ Unit}

/-- A run whose surroundings do no more than is foreseen, and in which no delay is out of range,
fails for a reason: what it raises is told last, under the phase that it arose in, and is decided by
the calls that failed, by the flag or by a sleep, unless a declared topic is missing when all
listings were had. And whatever decides a run is what the run raises. -/
theorem ensureReady_fails_for_reason (goes : Goes reconciler.ensureReady .idle trace result stop)
    (heard : Heard perform record trace) (ordinary : Router.Ordinary perform)
    (foreseen : ∀ e ∈ trace, e.Foreseen) (timed : ¬ DelayRaised reconciler trace) :
    (∀ failure, result = .error failure → ∃ phase earlier,
      announcements trace = earlier ++ [.stateChanged phase .failed,
        .failed phase failure.name failure.message] ∧
      (Decided reconciler trace phase failure ∨ Unlisted reconciler trace phase failure)) ∧
    ∀ phase failure, Decided reconciler trace phase failure → result = .error failure := by
  have told := ensureReady_told goes heard ordinary
  obtain ⟨opening, work, closing, outcome, phase, rfl, ahead, behind, worked, quiet, changed,
    ended⟩ := ensureReady_split goes told
  have seen : ∀ e ∈ work, e.Foreseen :=
    fun e mem => foreseen e (List.mem_append_left _ (List.mem_append_right _ mem))
  have news : Told work := told.left.right
  constructor
  · rintro raised rfl
    rcases ended with ⟨-, h⟩ | ⟨failure, rfl, h, closed⟩
    · cases h
    have reason : Decided reconciler (opening ++ work ++ closing) phase failure ∨
        Unlisted reconciler (opening ++ work ++ closing) phase failure := by
      obtain ⟨phases, founders⟩ := workPhases_founders worked seen news
      have still := portCalls_aside ahead
      have unset : Settled (portCalls opening) := by
        rw [still]
        exact settled_nil
      cases founders.append_left unset (fun _ mem => mem) fun p _ _ =>
          callsOf_eq_nil (kindOf_port p) still with
      | shutdown asked permitted unfailed shut =>
        have left : .stateChanged phase .failed ∈ announcements (opening ++ work ++ closing) := by
          rw [announcements_append, closed]
          exact List.mem_append_right _ (.head _)
        rw [shut]
        exact .inl (.shutdown (List.mem_append_left _ asked) left permitted unfailed)
      | work among split breaks =>
        rw [split] at timed ⊢
        exact breaks.reason (portCalls_aside behind) timed
    have same : raisedAs phase failure = failure := by
      rcases reason with decided | ⟨-, name, -, rfl, -⟩
      · exact decided.raisedAs_eq foreseen phase
      · rfl
    rw [same] at h closed
    cases h
    refine ⟨phase, announcements (opening ++ work), ?_, reason⟩
    rw [announcements_append, closed]
  · intro other failure decided
    have raised := decided.raises ahead behind worked seen news ?_
    · subst raised
      rcases ended with ⟨h, -⟩ | ⟨failure', h, rfl, -⟩
      · cases h
      · cases h
        rw [decided.raisedAs_eq foreseen phase]
    · intro mem
      rw [announcements_append, announcements_append, quiet, List.nil_append] at mem
      rcases List.mem_append.mp mem with mem | mem
      · obtain ⟨_, _, exchange⟩ := mem_announcements.mp mem
        exact absurd rfl (workPhases_ongoing worked _ exchange _ _ rfl)
      · exact changed other mem

/-- Surroundings in which the broker answers for the last time with a listing that holds nothing. -/
def deserting (past : List Exchange) : (r : Request) → r.Answer
  | .listTopics =>
    if (callsOf Request.isListing past).isEmpty then Except.ok []
    else Except.error (.of (.adminCall "list_topics" "timed out"))
  | r => obliging [] r

theorem deserting_foreseen (router : Router Unit) (past : List Exchange) (request : Request) :
    Exchange.Foreseen ⟨request, overheard router deserting past request⟩ := by
  cases request with
  | listTopics =>
    have either : ∀ answer : Result Listing, answer = .ok [] ∨
        answer = .error (.of (.adminCall "list_topics" "timed out")) →
        Exchange.Foreseen ⟨.listTopics, answer⟩ := by
      rintro answer (rfl | rfl)
      · trivial
      · rfl
    refine either _ ?_
    by_cases first : (callsOf Request.isListing past).isEmpty = true
    · exact .inl (if_pos first)
    · exact .inr (if_neg first)
  | _ => trivial

theorem foreseen_deserting {α : Type} {router : Router Unit} {program : Program α}
    {past : List Exchange} :
    ∀ e ∈ (Program.follow (overheard router deserting) program past).1, e.Foreseen := by
  rintro ⟨request, answer⟩ mem
  obtain ⟨before, after, split⟩ := List.append_of_mem mem
  have answered : answer = _ := Program.answer_of_follow_eq split
  rw [answered]
  exact deserting_foreseen router _ request

/-- The second listing request fails for good, while a callback keeps failing. -/
theorem ensureReady_fails_for_reason_deserted :
    let router : Router Unit :=
      ⟨[⟨"pager", "Scripted", [], .scripted [[.perform ()]]⟩], ["pager"], []⟩
    let run := Program.follow (overheard router deserting)
      (ordersOnly.ensureReady.run.run .idle) []
    let failure := givenUp ordersOnly.retry listingGivenUp
      (.of (.adminCall "list_topics" "timed out"))
    run.2 = (.error failure, .failed) ∧ (callsOf Request.isListing run.1).length = 4 ∧
    (∀ e ∈ run.1, e.Foreseen) ∧ ¬ DelayRaised ordersOnly run.1 ∧
    ∃ phase earlier, announcements run.1 = earlier ++ [.stateChanged phase .failed,
        .failed phase failure.name failure.message] ∧
      (Decided ordersOnly run.1 phase failure ∨ Unlisted ordersOnly run.1 phase failure) := by
  intro router run failure
  have ended : run.2 = (.error failure, .failed) := by decide +kernel
  have asked : (callsOf Request.isListing run.1).length = 4 := by decide +kernel
  have timed : ¬ DelayRaised ordersOnly run.1 := by
    refine not_delayRaised ?_ ?_
    · intro number positive within reason overflows
      have few : number = 1 ∨ number = 2 := by
        have three : ordersOnly.retry.maxAttempts = 3 := rfl
        omega
      have computed : (ordersOnly.retry.delayAfter 1).toBool = true ∧
        (ordersOnly.retry.delayAfter 2).toBool = true := by decide +kernel
      rcases few with rfl | rfl
      · rw [show ordersOnly.retry.delayAfter 1 = _ from overflows] at computed
        cases computed.1
      · rw [show ordersOnly.retry.delayAfter 2 = _ from overflows] at computed
        cases computed.2
    · intro delay slept reason overflows
      let grows (delay : Number) := (delay.scale ordersOnly.wait.multiplier).toBool
      have scaled : run.1.all (fun e => e.request.casesOn (fun _ => true) true true grows true true
        (fun _ _ => true) fun _ _ => true) = true := by decide +kernel
      have grown : (delay.scale ordersOnly.wait.multiplier).toBool = true :=
        List.all_eq_true.mp scaled _ slept
      rw [overflows] at grown
      cases grown
  have goes : Goes ordersOnly.ensureReady .idle run.1 run.2.1 run.2.2 := goes_follow _ _ _ _
  rw [ended] at goes
  obtain ⟨reasons, -⟩ :=
    ensureReady_fails_for_reason goes heard_overheard stumble_ordinary foreseen_deserting timed
  exact ⟨ended, asked, foreseen_deserting, timed, reasons failure rfl⟩

end Reasons

end Reconciler

end ClusterReadiness
