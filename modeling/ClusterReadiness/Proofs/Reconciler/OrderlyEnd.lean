import ClusterReadiness.Proofs.Reconciler.Interrupts
import ClusterReadiness.Proofs.Router.FanOut

/-!
# Orderly ends

One user interrupt, wherever it arrives in a run, is turned into an interrupted wait and the run is
brought to an orderly end, unless it arrives while the end itself is being announced.
-/

namespace ClusterReadiness

/-- A user interrupt arrived: it came out of a call, or cut a sleep short. -/
def Exchange.interrupts (exchange : Exchange) : Bool :=
  match exchange.failure? with
  | none => false
  | some failure => failure.isUserInterrupt ||
      (exchange.request matches .sleep _) && failure.fault.isInterruptedWait &&
        failure.causes.head?.any Fault.isUserInterrupt

theorem Exchange.interrupts_of_none {exchange : Exchange} (fine : exchange.failure? = none) :
    exchange.interrupts = false := by
  unfold Exchange.interrupts
  rw [fine]

theorem Exchange.exists_of_interrupts {exchange : Exchange} (interrupts : exchange.interrupts = true) :
    ∃ failure, exchange.failure? = some failure ∧
      (failure.isUserInterrupt = true ∨ failure.fault.isInterruptedWait = true) := by
  unfold Exchange.interrupts at interrupts
  cases failed : exchange.failure? with
  | none =>
    rw [failed] at interrupts
    cases interrupts
  | some failure =>
    rw [failed] at interrupts
    simp only [Bool.or_eq_true, Bool.and_eq_true] at interrupts
    rcases interrupts with raw | ⟨⟨-, cut⟩, -⟩
    · exact ⟨failure, rfl, .inl raw⟩
    · exact ⟨failure, rfl, .inr cut⟩

/-- The happenings announced in a trace, in order. -/
def announcements (trace : List Exchange) : List Happening :=
  trace.filterMap fun exchange =>
    match exchange.request with
    | .announce _ happening => some happening
    | _ => none

namespace Reconciler

variable {reconciler : Reconciler} {stop : Phase} {trace : List Exchange} {result : Result Unit}
  {failure : Failure} {phase : Phase}

/-- The run tells its end once and last, as it returned or was interrupted. -/
def Orderly (trace : List Exchange) (result : Result Unit) (stop : Phase) : Prop :=
  ∃ earlier last, announcements trace = earlier ++ [last] ∧
    (∀ happening ∈ earlier, ¬ happening.IsTerminal) ∧
    ((result = .ok () ∧ stop = .ready ∧ ∃ topics duration, last = .ready topics duration) ∨
      (∃ failure, result = .error failure ∧ failure.fault.isInterruptedWait = true) ∧
        stop = .failed ∧ ∃ phase name message, last = .failed phase name message)

/-- An announcement of the end of the run, or of the way to the failed phase, fails. -/
def EndInterrupted (trace : List Exchange) : Prop :=
  ∃ phase happening failure,
    (⟨.announce phase happening, .error failure⟩ : Exchange) ∈ trace ∧ ¬ happening.IsOngoing

theorem not_isTerminal_of_isOngoing {happening : Happening} (ongoing : happening.IsOngoing) :
    ¬ happening.IsTerminal := by
  cases happening with
  | ready | failed | foreign => exact ongoing.elim
  | _ => exact id

theorem isRetryable_of_interrupt (interrupt : failure.isUserInterrupt = true ∨
    failure.fault.isInterruptedWait = true) : failure.isRetryable = false := by
  unfold Failure.isRetryable Fault.isRetryable
  rcases interrupt with raw | cut
  · rw [show failure.fault.isUserInterrupt = true from raw]
    rfl
  · rw [cut]
    simp

/-- An interrupt of either kind is raised as an interrupted wait. -/
theorem raisedAs_interrupt (interrupt : failure.isUserInterrupt = true ∨
    failure.fault.isInterruptedWait = true) :
    (raisedAs phase failure).fault.isInterruptedWait = true := by
  unfold raisedAs
  by_cases raw : failure.isUserInterrupt = true
  · rw [if_pos raw]
    rfl
  · rw [if_neg raw]
    exact interrupt.resolve_left raw

theorem not_isInterruptedWait_of_raw (raw : failure.isUserInterrupt = true) :
    failure.fault.isInterruptedWait = false := by
  cases fault : failure.fault with
  | userInterrupt => rfl
  | _ =>
    rw [Failure.isUserInterrupt, fault] at raw
    cases raw

theorem not_orderly_of_raw (raw : failure.isUserInterrupt = true) :
    ¬ Orderly trace (.error failure) stop := by
  rintro ⟨_, _, _, _, ⟨h, _⟩ | ⟨⟨_, h, cut⟩, _⟩⟩
  · cases h
  · cases h
    rw [not_isInterruptedWait_of_raw raw] at cut
    cases cut

section Ends

variable {ε σ : Type} {perform : ε → StateM σ (Result Unit)}
  {record : Level → String → StateM σ Unit}

/-- Every announcement answers as an emission of its event to some callbacks does. -/
def Heard (perform : ε → StateM σ (Result Unit)) (record : Level → String → StateM σ Unit)
    (trace : List Exchange) : Prop :=
  ∀ phase happening answer, (⟨.announce phase happening, answer⟩ : Exchange) ∈ trace →
    ∃ router world time, answer =
      (Router.ran (Router.emit perform record (.announced happening time)) router world).1.1

/-- Callbacks make an announcement fail by a user interrupt only. -/
theorem Heard.raw {happening : Happening} (heard : Heard perform record trace)
    (own : ∀ object, happening ≠ .foreign object)
    (mem : (⟨.announce phase happening, .error failure⟩ : Exchange) ∈ trace) :
    failure.isUserInterrupt = true := by
  obtain ⟨router, world, time, answered⟩ := heard phase happening _ mem
  have plain : ∀ object, (Event.announced happening time).happening ≠ .foreign object := own
  exact Router.emit_interrupted plain router world failure answered.symm

theorem Heard.right {first rest : List Exchange} (heard : Heard perform record (first ++ rest)) :
    Heard perform record rest :=
  fun phase happening answer mem => heard phase happening answer (List.mem_append_right first mem)

@[simp] theorem announcements_append {first rest : List Exchange} :
    announcements (first ++ rest) = announcements first ++ announcements rest :=
  List.filterMap_append

theorem EndInterrupted.right {rest : List Exchange} (first : List Exchange)
    (interrupted : EndInterrupted rest) : EndInterrupted (first ++ rest) := by
  obtain ⟨told, happening, failure, mem, closing⟩ := interrupted
  exact ⟨told, happening, failure, List.mem_append_right first mem, closing⟩

section Working

variable {work : List Exchange} (ongoing : ∀ e ∈ work, ∀ told happening,
  e.request = .announce told happening → happening.IsOngoing)
include ongoing

/-- Ongoing work announces no end. -/
theorem announcements_ongoing : ∀ happening ∈ announcements work, ¬ happening.IsTerminal := by
  intro happening told
  obtain ⟨⟨request, answer⟩, he, found⟩ := List.mem_filterMap.mp told
  cases request with
  | announce phase other =>
    cases found
    exact not_isTerminal_of_isOngoing (ongoing _ he phase happening rfl)
  | _ => cases found

theorem endInterrupted_ongoing {closing : List Exchange} :
    EndInterrupted (work ++ closing) ↔ EndInterrupted closing := by
  refine ⟨?_, EndInterrupted.right work⟩
  rintro ⟨told, happening, failure, mem, closed⟩
  rcases List.mem_append.mp mem with h | h
  · exact absurd (ongoing _ h told happening rfl) closed
  · exact ⟨told, happening, failure, h, closed⟩

end Working

/-- An interrupt that arrives during the work ends it, and it comes to that. -/
theorem work_interrupted {work : List Exchange} {exchange : Exchange} {outcome : Result Unit}
    (goes : Goes reconciler.workPhases .idle work outcome phase) (mem : exchange ∈ work)
    (interrupts : exchange.interrupts = true) : ∃ failure, outcome = .error failure ∧
      (failure.isUserInterrupt = true ∨ failure.fault.isInterruptedWait = true) := by
  obtain ⟨failure, failed, kind⟩ := exchange.exists_of_interrupts interrupts
  exact ⟨failure, workPhases_surfaces goes exchange mem failure failed
    (isRetryable_of_interrupt kind), kind⟩

/-- The clock is read and then the work is done: neither announces an end. -/
theorem started_ongoing {work : List Exchange} {outcome : Result Unit} (started : Float)
    (goes : Goes reconciler.workPhases .idle work outcome phase) :
    ∀ e ∈ ⟨.clock, started⟩ :: work, ∀ told happening,
      e.request = .announce told happening → happening.IsOngoing := by
  refine List.forall_mem_cons.mpr ⟨?_, workPhases_ongoing goes⟩
  intro told happening news
  cases news

/-- Failing a run tells its end, and only an interrupt of an announcement keeps it from that. -/
theorem fail_tells {closing : List Exchange} {told : Result Unit}
    (fails : Goes (fail failure) phase closing told stop) (heard : Heard perform record closing) :
    stop = .failed ∧
    ((∃ raw, told = .error raw ∧ raw.isUserInterrupt = true ∧ EndInterrupted closing) ∨
      told = .ok () ∧ ¬ EndInterrupted closing ∧ (∀ e ∈ closing, e.interrupts = false) ∧
        announcements closing =
          [.stateChanged phase .failed, .failed phase failure.name failure.message]) := by
  obtain ⟨rfl, message, ⟨raw, rfl, rfl⟩ | rfl⟩ := goes_fail fails
  · have mem : (⟨.announce .failed (.stateChanged phase .failed), .error raw⟩ : Exchange) ∈
        logged .error message :: changing phase .failed (.error raw) := .tail _ (.tail _ (.head _))
    have interrupt := heard.raw (fun _ h => by cases h) mem
    exact ⟨rfl, .inl ⟨raw, rfl, interrupt, _, _, _, mem, fun ongoing => ongoing rfl⟩⟩
  · refine ⟨rfl, ?_⟩
    cases told with
    | error raw =>
      have mem := List.mem_append_right (logged .error message :: changing phase .failed (.ok ()))
        (List.mem_singleton_self (⟨.announce .failed (.failed phase failure.name failure.message),
          .error raw⟩ : Exchange))
      have interrupt := heard.raw (fun _ h => by cases h) mem
      exact .inl ⟨raw, rfl, interrupt, _, _, _, mem, id⟩
    | ok _ =>
      refine .inr ⟨rfl, ?_, ?_, ?_⟩
      · rintro ⟨_, _, _, mem, _⟩
        simp only [changing, logged, List.cons_append, List.nil_append, List.mem_cons,
          List.not_mem_nil, or_false] at mem
        rcases mem with h | h | h | h <;> cases h
      · intro exchange mem
        refine Exchange.interrupts_of_none ?_
        simp only [changing, logged, List.cons_append, List.nil_append, List.mem_cons,
          List.not_mem_nil, or_false] at mem
        rcases mem with rfl | rfl | rfl | rfl <;> rfl
      · simp [announcements, changing, logged]

/-- A run that an interrupt arrives in ends orderly, or the interrupt of its end comes out of it. -/
theorem ensureReady_ends (goes : Goes reconciler.ensureReady .idle trace result stop)
    (heard : Heard perform record trace) (arrived : 0 < trace.countP Exchange.interrupts) :
    Orderly trace result stop ∧ ¬ EndInterrupted trace ∨
    ∃ raw, result = .error raw ∧ raw.isUserInterrupt = true ∧ EndInterrupted trace := by
  obtain ⟨exchange, mem, interrupts⟩ := List.countP_pos_iff.mp arrived
  cases goes_ensureReady goes with
  | @failed started work closing failure phase stop told worked fails =>
    obtain ⟨rfl, ⟨raw, rfl, interrupt, cut⟩ | ⟨rfl, quiet, still, tells⟩⟩ :=
      fail_tells fails heard.right
    · exact .inr ⟨raw, rfl, interrupt, cut.right _⟩
    · have inWork : exchange ∈ work := by
        rcases List.mem_append.mp mem with h | h
        · refine (List.mem_cons.mp h).resolve_left fun clock => ?_
          subst clock
          cases interrupts
        · rw [still _ h] at interrupts
          cases interrupts
      obtain ⟨_, h, kind⟩ := work_interrupted worked inWork interrupts
      cases h
      have ongoing := started_ongoing started worked
      refine .inl ⟨?_, fun h => quiet ((endInterrupted_ongoing ongoing).mp h)⟩
      refine ⟨announcements (⟨.clock, started⟩ :: work) ++ [.stateChanged phase .failed],
        .failed phase (raisedAs phase failure).name (raisedAs phase failure).message, ?_, ?_,
        .inr ⟨⟨_, rfl, raisedAs_interrupt kind⟩, rfl, phase, _, _, rfl⟩⟩
      · rw [announcements_append, tells, List.append_assoc]
        rfl
      · rw [List.forall_mem_append]
        exact ⟨announcements_ongoing ongoing, by simp [Happening.IsTerminal]⟩
  | @ready started ended work message stop told worked =>
    have told : (⟨.announce stop (.ready reconciler.topicNames (ended - started)), result⟩ :
        Exchange) ∈ [(⟨.clock, ended⟩ : Exchange), logged .info message,
          ⟨.announce stop (.ready reconciler.topicNames (ended - started)), result⟩] :=
      .tail _ (.tail _ (.head _))
    simp only [List.cons_append, List.mem_cons, List.mem_append, List.not_mem_nil,
      or_false] at mem
    rcases mem with rfl | h | rfl | rfl | rfl
    · cases interrupts
    · obtain ⟨failure, h, -⟩ := work_interrupted worked h interrupts
      cases h
    · cases interrupts
    · cases interrupts
    · cases result with
      | ok _ => cases interrupts
      | error raw =>
        have interrupt := heard.right.raw (fun _ h => by cases h) told
        exact .inr ⟨raw, rfl, interrupt, EndInterrupted.right _ ⟨_, _, _, told, id⟩⟩

/-- If a user interrupt arrives in a run, the run ends orderly unless an announcement of its end, or
of the way to the failed phase, is interrupted; then the interrupt escapes as it is. -/
theorem ensureReady_orderly_iff (goes : Goes reconciler.ensureReady .idle trace result stop)
    (heard : Heard perform record trace) (arrived : 0 < trace.countP Exchange.interrupts) :
    (Orderly trace result stop ↔ ¬ EndInterrupted trace) ∧
    ((∃ failure, result = .error failure ∧ failure.isUserInterrupt = true) ↔
      EndInterrupted trace) := by
  rcases ensureReady_ends goes heard arrived with ⟨orderly, quiet⟩ | ⟨raw, rfl, escapes, cut⟩
  · constructor
    · exact ⟨fun _ => quiet, fun _ => orderly⟩
    · refine ⟨?_, fun h => absurd h quiet⟩
      rintro ⟨failure, rfl, raw⟩
      exact absurd orderly (not_orderly_of_raw raw)
  · constructor
    · exact ⟨fun orderly => absurd orderly (not_orderly_of_raw escapes), fun h => absurd cut h⟩
    · exact ⟨fun _ => cut, fun _ => ⟨raw, rfl, escapes⟩⟩

end Ends

section Struck

/-- Whatever a callback does to the world outside, a user interrupt arrives there. -/
def struck (_ : Unit) : StateM Unit (Result Unit) := pure (.error (.of (.userInterrupt "")))

/-- The topics are listed at once, the probe answers as given, and the callbacks of a router hear
what is announced. -/
def among (router : Router Unit) (probed : Result Bool) : (r : Request) → r.Answer
  | .announce _ happening =>
    (Router.ran (Router.emit struck Router.unlogged (.announced happening 0)) router ()).1.1
  | .probe => probed
  | r => obliging ["orders"] r

theorem heard_among {α : Type} {router : Router Unit} {probed : Result Bool}
    {program : Program α} : Heard struck Router.unlogged
      (Program.follow (fun _ => among router probed) program []).1 :=
  fun _ _ _ mem => ⟨router, (), 0, Program.answer_of_mem_follow _ mem⟩

/-- A latch is all that listens, and the probe is interrupted. -/
theorem ensureReady_orderly_iff_probe :
    let router : Router Unit :=
      ⟨[⟨"latch", "ReadinessLatch", [Latch.rule], .latch .fresh⟩], ["latch"], []⟩
    let run := Program.follow (fun _ => among router (.error (.of (.userInterrupt ""))))
      (ordersOnly.ensureReady.run.run .idle) []
    0 < run.1.countP Exchange.interrupts ∧ Heard struck Router.unlogged run.1 ∧
      Orderly run.1 run.2.1 run.2.2 ∧ run.2.2 = .failed := by
  intro router run
  have goes : Goes ordersOnly.ensureReady .idle run.1 run.2.1 run.2.2 := runs_follow _ _ _
  have arrived : 0 < run.1.countP Exchange.interrupts := by decide +kernel
  have ended : run.2 =
      (.error (raisedAs .verifyingRegistry (.of (.userInterrupt ""))), .failed) := by
    decide +kernel
  obtain ⟨orderly, escapes⟩ := ensureReady_orderly_iff goes heard_among arrived
  refine ⟨arrived, heard_among, orderly.mpr fun cut => ?_, by rw [ended]⟩
  obtain ⟨failure, result, raw⟩ := escapes.mpr cut
  rw [ended] at result
  cases result
  cases raw

/-- An interrupt that arrives in a callback told that the run is ready comes out as it is. -/
theorem ensureReady_escaped :
    let router : Router Unit :=
      ⟨[⟨"pager", "Scripted", [⟨some [.ready], none, none⟩], .scripted [[.perform ()]]⟩],
        ["pager"], []⟩
    let run := Program.follow (fun _ => among router (.ok true))
      (ordersOnly.ensureReady.run.run .idle) []
    Goes ordersOnly.ensureReady .idle run.1 run.2.1 run.2.2 ∧
      Heard struck Router.unlogged run.1 ∧ run.1.countP Exchange.interrupts = 1 ∧
      run.2 = (.error (.of (.userInterrupt "")), .ready) ∧
      ¬ Orderly run.1 run.2.1 run.2.2 := by
  intro router run
  have ended : run.2 = (.error (.of (.userInterrupt "")), .ready) := by decide +kernel
  refine ⟨runs_follow _ _ _, heard_among, by decide +kernel, ended, ?_⟩
  rw [ended]
  exact not_orderly_of_raw rfl

end Struck

end Reconciler

end ClusterReadiness
