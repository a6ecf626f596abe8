import ClusterReadiness.Proofs.Reconciler.Transparency
import ClusterReadiness.Proofs.Router.Handings

/-!
# Attended runs

The callbacks of a router are handed what a run announces, one announcement after the other, and
each finds the router as the one before left it. `Attends` carries a router through the exchanges of
a run; everything that is served to a program by a router is attended in this way.
-/

namespace ClusterReadiness

/-- The action leaves the registrations alone. -/
def Action.IsApart {ε : Type} : Action ε → Prop
  | .register _ | .unregister _ => False
  | _ => True

variable {ε σ α : Type}

/-- The callbacks are handed what is announced, in the phase that it is announced in, at some time,
and each announcement answers as its emission does. -/
inductive Attends (perform : Phase → ε → StateM σ (Result Unit))
    (record : Level → String → StateM σ Unit) :
    Router ε → List Exchange → List (Phase × Event) → Router ε → Prop where
  | done {router : Router ε} : Attends perform record router [] [] router
  | told {router between last : Router ε} {world after : σ} {phase : Phase} {happening : Happening}
      {time : Float} {answer : Result Unit} {trace : List Exchange} {told : List (Phase × Event)}
      (emitted : Router.ran (Router.emit (perform phase) record (.announced happening time)) router
        world = ((answer, between), after))
      (more : Attends perform record between trace told last) :
      Attends perform record router (⟨.announce phase happening, answer⟩ :: trace)
        ((phase, .announced happening time) :: told) last
  | silent {router last : Router ε} {exchange : Exchange} {trace : List Exchange}
      {told : List (Phase × Event)}
      (unannounced : ∀ phase happening, exchange.request ≠ .announce phase happening)
      (more : Attends perform record router trace told last) :
      Attends perform record router (exchange :: trace) told last

section Attending

variable {perform : Phase → ε → StateM σ (Result Unit)} {record : Level → String → StateM σ Unit}
  {router last : Router ε} {trace first rest : List Exchange} {told : List (Phase × Event)}

theorem announcements_silent {exchange : Exchange}
    (unannounced : ∀ phase happening, exchange.request ≠ .announce phase happening) :
    announcements (exchange :: trace) = announcements trace := by
  obtain ⟨request, answer⟩ := exchange
  cases request with
  | announce phase happening => exact absurd rfl (unannounced phase happening)
  | _ => rfl

theorem Attends.split (attends : Attends perform record router (first ++ rest) told last) :
    ∃ begun between onward, told = begun ++ onward ∧
      Attends perform record router first begun between ∧
      Attends perform record between rest onward last := by
  induction first generalizing router told with
  | nil => exact ⟨[], router, told, rfl, .done, attends⟩
  | cons exchange first ih =>
    cases attends with
    | told emitted more =>
      obtain ⟨begun, between, onward, rfl, attended, more⟩ := ih more
      exact ⟨_ :: begun, between, onward, rfl, .told emitted attended, more⟩
    | silent unannounced more =>
      obtain ⟨begun, between, onward, rfl, attended, more⟩ := ih more
      exact ⟨begun, between, onward, rfl, .silent unannounced attended, more⟩

/-- The events are the announcements, stamped with a time. -/
theorem Attends.happenings (attends : Attends perform record router trace told last) :
    told.map (fun entry => entry.2.happening) = announcements trace := by
  induction attends with
  | done => rfl
  | told emitted more ih =>
    rw [List.map_cons, ih]
    rfl
  | silent unannounced more ih => rw [ih, announcements_silent unannounced]

theorem Attends.mem (attends : Attends perform record router trace told last) :
    ∀ entry ∈ told, ∃ happening time answer, entry.2 = .announced happening time ∧
      (⟨.announce entry.1 happening, answer⟩ : Exchange) ∈ trace := by
  induction attends with
  | done => exact fun _ mem => by cases mem
  | told emitted more ih =>
    refine List.forall_mem_cons.mpr ⟨⟨_, _, _, rfl, .head _⟩, fun entry mem => ?_⟩
    obtain ⟨happening, time, answer, stamped, among⟩ := ih entry mem
    exact ⟨happening, time, answer, stamped, .tail _ among⟩
  | silent _ more ih =>
    intro entry mem
    obtain ⟨happening, time, answer, stamped, among⟩ := ih entry mem
    exact ⟨happening, time, answer, stamped, .tail _ among⟩

/-- Nobody is handed anything if nothing is announced. -/
theorem Attends.unchanged (attends : Attends perform record router trace told last)
    (nothing : announcements trace = []) : last = router := by
  induction attends with
  | done => rfl
  | told => cases nothing
  | silent unannounced more ih =>
    rw [announcements_silent unannounced] at nothing
    exact ih nothing

/-- Ordinary faults of callbacks let every announcement of a run's own news through. -/
theorem Attends.all_told (attends : Attends perform record router trace told last)
    (ordinary : ∀ phase, Router.Ordinary (perform phase))
    (own : ∀ object, .foreign object ∉ announcements trace) : Reconciler.Told trace := by
  induction attends with
  | done => exact fun _ _ _ mem => by cases mem
  | @told router between _ world after phase happening time answer trace _ emitted more ih =>
    intro state news reply mem
    rcases List.mem_cons.mp mem with here | later
    · cases here
      have plain : ∀ object, (Event.announced happening time).happening ≠ .foreign object := by
        rintro object rfl
        exact own object (.head _)
      calc answer = (Router.ran (Router.emit (perform phase) record (.announced happening time))
              router world).1.1 := by rw [emitted]
        _ = .ok () := Router.emit_ok plain (ordinary phase) router world
    · exact ih (fun object mem => own object (.tail _ mem)) state news reply later
  | silent unannounced more ih =>
    rw [announcements_silent unannounced] at own
    intro state news reply mem
    rcases List.mem_cons.mp mem with rfl | later
    · exact absurd rfl (unannounced state news)
    · exact ih own state news reply later

end Attending

section Serving

/-- What is watched while a router serves it is a run. -/
theorem runs_served (handle : (r : Request) → StateT (Router ε) (StateM σ) r.Answer)
    (program : Program α) (router : Router ε) (world : σ) :
    let served := Router.ran (program.watch handle) router world
    Runs program served.1.1.1 served.1.1.2 := by
  induction program generalizing router world with
  | done value => exact .done value
  | ask r next ih =>
    intro served
    cases asked : Router.ran (handle r) router world with
    | mk first after =>
      obtain ⟨answer, between⟩ := first
      have step : served = _ := Reconciler.ran_watch_ask asked
      rw [step]
      exact .ask answer (ih answer between after)

/-- Whatever a router serves to a program, its callbacks attend. -/
theorem attends_served (perform : Phase → ε → StateM σ (Result Unit)) (time : StateM σ Float)
    (others : (r : Request) → StateM σ r.Answer) (program : Program α) (router : Router ε)
    (world : σ) :
    let served := Router.ran (program.watch (Router.serve perform
      (fun happening => do return .announced happening (← time)) others)) router world
    ∃ told, Attends perform (fun level message => others (.record level message)) router
      served.1.1.1 told served.1.2 := by
  induction program generalizing router world with
  | done value => exact ⟨[], .done⟩
  | ask r next ih =>
    intro served
    cases asked : Router.ran (Router.serve perform
        (fun happening => do return .announced happening (← time)) others r) router world with
    | mk first after =>
      obtain ⟨answer, between⟩ := first
      have step : served = _ := Reconciler.ran_watch_ask asked
      obtain ⟨told, more⟩ := ih answer between after
      rw [step]
      cases r with
      | announce phase happening => exact ⟨_, .told asked more⟩
      | _ =>
        obtain rfl : router = between := congrArg (fun ran => ran.1.2) asked
        exact ⟨told, .silent (fun _ _ h => by cases h) more⟩

end Serving

namespace Reconciler

variable {reconciler : Reconciler} {start stop next phase : Phase} {body : Work Unit}
  {trace : List Exchange} {result : Result Unit}

section Ends

/-- The failure of a run is what the work of its phases came to in that phase. -/
def RaisedIn (reconciler : Reconciler) (trace : List Exchange) (failure : Failure)
    (phase : Phase) : Prop :=
  ∃ started work closing cause, trace = ⟨.clock, started⟩ :: work ++ closing ∧
    Goes reconciler.workPhases .idle work (.error cause) phase ∧ failure = raisedAs phase cause

/-- A run whose announcements are all made tells last, and once, how it ends. -/
theorem ensureReady_tells (goes : Goes reconciler.ensureReady .idle trace result stop)
    (told : Told trace) : ∃ earlier last, announcements trace = earlier ++ [last] ∧
      (∀ happening ∈ earlier, ¬ happening.IsTerminal) ∧
      ((result = .ok () ∧ ∃ duration, last = .ready reconciler.topicNames duration) ∨
        ∃ failure phase, result = .error failure ∧ RaisedIn reconciler trace failure phase ∧
          last = .failed phase failure.name failure.message) := by
  cases goes_ensureReady goes with
  | @failed started work closing cause phase stop answer worked fails =>
    obtain ⟨rfl, closed⟩ := fail_announces fails fun _ _ _ mem =>
      told _ _ _ (List.mem_append_right _ mem)
    refine ⟨announcements (⟨.clock, started⟩ :: work) ++ [.stateChanged phase .failed], _, ?_, ?_,
      .inr ⟨raisedAs phase cause, phase, rfl, ⟨started, work, closing, cause, rfl, worked, rfl⟩,
        rfl⟩⟩
    · rw [announcements_append, closed, List.append_assoc]
      rfl
    · rw [List.forall_mem_append]
      exact ⟨announcements_ongoing (started_ongoing started worked),
        by simp [Happening.IsTerminal]⟩
  | @ready started ended work message stop answer worked =>
    have last := told stop (.ready reconciler.topicNames (ended - started)) result
      (List.mem_append_right _ (.tail _ (.tail _ (.head _))))
    refine ⟨announcements (⟨.clock, started⟩ :: work), _, ?_,
      announcements_ongoing (started_ongoing started worked), .inl ⟨last, ended - started, rfl⟩⟩
    rw [announcements_append]
    rfl

end Ends

section Filing

theorem TopicLog.belongs {names : List String} {log : List Happening} (kept : TopicLog names log) :
    ∀ happening ∈ log, happening.phase = .ok .verifyingTopics := by
  induction kept with
  | done => simp
  | waited more ih | seen more ih => exact List.forall_mem_cons.mpr ⟨rfl, ih⟩

theorem RegistryLog.belongs {log : List Happening} (kept : RegistryLog log) :
    ∀ happening ∈ log, happening.phase = .ok .verifyingRegistry := by
  intro happening mem
  obtain ⟨attempt, delay, rfl⟩ := kept happening mem
  rfl

/-- What the work of a phase announces belongs to that phase. -/
theorem body_belongs (mem : (next, body) ∈ reconciler.topicStages ++ reconciler.lastStages)
    (goes : Goes body next trace result stop) :
    ∀ happening ∈ announcements trace, happening.phase = .ok next := by
  rcases eq_of_mem_stages mem with ⟨rfl, rfl⟩ | ⟨rfl, rfl⟩ | ⟨rfl, rfl⟩ | ⟨rfl, rfl⟩
  · obtain ⟨rest, kept, -⟩ := createTopics_keeps_log goes
    intro happening told
    have among := List.mem_append_left rest told
    rw [kept, List.mem_singleton] at among
    rw [among]
    rfl
  · obtain ⟨rest, kept, -⟩ := verifyTopics_keeps_log goes
    exact fun happening told => kept.belongs happening (List.mem_append_left rest told)
  · exact (verifyRegistry_keeps_log goes).belongs
  · obtain ⟨rfl, -, -⟩ := goes_pure_iff.mp goes
    simp [announcements]

theorem stage_belongs (mem : (next, body) ∈ reconciler.topicStages ++ reconciler.lastStages)
    (stage : Stage next body start trace result stop) :
    ∀ happening ∈ announcements trace, happening.phase = .ok next := by
  cases stage with
  | refused => simp [announcements]
  | untold => simp [announcements, changing, logged, Happening.phase]
  | worked goes =>
    rw [announcements_append, List.forall_mem_append]
    refine ⟨?_, body_belongs mem goes⟩
    simp [announcements, changing, logged, Happening.phase]

/-- The work of a run announces what belongs to the phase that it is in. -/
theorem workPhases_belongs (goes : Goes reconciler.workPhases start trace result stop) :
    ∀ e ∈ trace, ∀ state happening, e.request = .announce state happening →
      happening.phase = .ok state := by
  have each : ∀ next body, (next, body) ∈ reconciler.topicStages ++ reconciler.lastStages →
      ∀ s t r p, Stage next body s t r p → ∀ e ∈ t, ∀ state happening,
        e.request = .announce state happening → happening.phase = .ok state := by
    intro next body mem s t r p stage e he state happening news
    obtain ⟨rfl, -⟩ := stage_announces mem stage e he state happening news
    obtain ⟨request, answer⟩ := e
    obtain rfl : request = .announce state happening := news
    exact stage_belongs mem stage happening (mem_announcements.mpr ⟨state, answer, he⟩)
  rcases goes_workPhases goes with ⟨-, message, rest, rfl, stages⟩ | ⟨-, stages⟩
  · refine List.forall_mem_cons.mpr ⟨fun _ _ news => (by cases news), ?_⟩
    exact stages.forall_mem fun next body mem => each next body (List.mem_append_right _ mem)
  · exact stages.forall_mem each

/-- The phase that a happening of a run is filed under: the one the run is in when it is announced,
but for a failure of the run the one that it arose in. -/
def filedUnder (arose state : Phase) (happening : Happening) : Phase :=
  if happening.ownType = .failed then arose else state

/-- Whatever a run announces belongs to the phase that the run is in, except that its failure belongs
to the phase that the failure arose in. -/
theorem ensureReady_files (goes : Goes reconciler.ensureReady .idle trace result stop)
    (told : Told trace) : ∃ arose,
      (∀ failure, result = .error failure → RaisedIn reconciler trace failure arose) ∧
      ∀ state happening answer, (⟨.announce state happening, answer⟩ : Exchange) ∈ trace →
        happening.phase = .ok (filedUnder arose state happening) := by
  have working : ∀ {started : Float} {work : List Exchange} {outcome : Result Unit}
      {last : Phase} (arose : Phase), Goes reconciler.workPhases .idle work outcome last →
        ∀ state happening answer, (⟨.announce state happening, answer⟩ : Exchange) ∈
          ⟨.clock, started⟩ :: work →
            happening.phase = .ok (filedUnder arose state happening) := by
    intro started work outcome last arose worked state happening answer mem
    have ongoing := started_ongoing started worked _ mem state happening rfl
    have unfailed : happening.ownType ≠ .failed := by
      cases happening with
      | failed => exact ongoing.elim
      | _ => exact fun h => by cases h
    rcases List.mem_cons.mp mem with h | h
    · cases h
    · rw [filedUnder, if_neg unfailed]
      exact workPhases_belongs worked _ h state happening rfl
  cases goes_ensureReady goes with
  | @failed started work closing cause phase stop answer worked fails =>
    refine ⟨phase, fun failure h => ?_, fun state happening reply mem => ?_⟩
    · obtain ⟨rfl, -⟩ := fail_announces fails fun _ _ _ mem =>
        told _ _ _ (List.mem_append_right _ mem)
      cases h
      exact ⟨started, work, closing, cause, rfl, worked, rfl⟩
    · rcases List.mem_append.mp mem with h | h
      · exact working phase worked state happening reply h
      · obtain ⟨-, message, ⟨cut, rfl, -⟩ | rfl⟩ := goes_fail fails
        · simp only [changing, logged, List.mem_cons, List.not_mem_nil, or_false] at h
          rcases h with h | h | h <;> cases h
          rfl
        · simp only [changing, logged, List.mem_cons, List.mem_append, List.not_mem_nil,
            or_false] at h
          rcases h with (h | h | h) | h <;> cases h <;> rfl
  | @ready started ended work message stop answer worked =>
    have last := told stop (.ready reconciler.topicNames (ended - started)) result
      (List.mem_append_right _ (.tail _ (.tail _ (.head _))))
    refine ⟨.idle, fun failure h => ?_, fun state happening reply mem => ?_⟩
    · rw [last] at h
      cases h
    · rcases List.mem_append.mp mem with h | h
      · exact working .idle worked state happening reply h
      · obtain rfl := (workPhases_way worked).ready rfl
        simp only [logged, List.mem_cons, List.not_mem_nil, or_false] at h
        rcases h with h | h | h <;> cases h
        rfl

end Filing

section Serving

/-- The topic is listed at once, the probe answers as given, and there is no log. -/
def probing (probed : Result Bool) : (r : Request) → StateM Unit r.Answer
  | .probe => pure probed
  | r => pure (obliging ["orders"] r)

/-- What a router serves to a run, whose callbacks stumble whenever they do something to the world
outside: the exchanges, what the run comes to in which phase, and the router afterwards. -/
def rehearsal (router : Router Unit) (probed : Result Bool) :
    (List Exchange × Result Unit × Phase) × Router Unit :=
  (Router.ran ((ordersOnly.ensureReady.run.run .idle).watch (Router.serve (fun _ => stumble)
    (fun happening => do return .announced happening (← pure 0)) (probing probed))) router ()).1

variable (router : Router Unit) (probed : Result Bool)

theorem rehearsal_goes : Goes ordersOnly.ensureReady .idle (rehearsal router probed).1.1
    (rehearsal router probed).1.2.1 (rehearsal router probed).1.2.2 :=
  runs_served _ _ router ()

/-- These events are what the callbacks were told. -/
def ToldOf (told : List (Phase × Event)) : Prop :=
  Attends (fun _ => stumble) (fun level message => probing probed (.record level message)) router
    (rehearsal router probed).1.1 told (rehearsal router probed).2

theorem rehearsal_told : ∃ told, ToldOf router probed told :=
  attends_served _ _ _ _ router ()

end Serving

end Reconciler

end ClusterReadiness
