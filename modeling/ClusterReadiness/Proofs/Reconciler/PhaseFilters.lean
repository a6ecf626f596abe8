import ClusterReadiness.Proofs.Reconciler.ReadinessLatch

/-!
# Choosing by the phase

A callback that chooses its events by their phase alone hears what a run announces while it is in
one of those phases. The phase of an event is told from the event, not from the run; the two agree on
all that a run announces, except that a failure is announced in the failed phase and belongs to the one
that it arose in.
-/

namespace ClusterReadiness

variable {ε σ : Type} {id : String} {phases : List Phase}
  {perform : Phase → ε → StateM σ (Result Unit)} {record : Level → String → StateM σ Unit}
  {router last : Router ε} {trace : List Exchange} {told : List (Phase × Event)}

/-- Of what is announced the callback is handed once what belongs to one of its phases, in order, and
besides that only what callbacks emit. -/
theorem Attends.filtered {emits : Event → Prop} {under : Phase × Event → Phase}
    (attends : Attends perform record router trace told last)
    (ordinary : ∀ phase, Router.Ordinary (perform phase)) (some : phases ≠ [])
    (belongs : ∀ entry ∈ told, entry.2.phase = .ok (under entry))
    (watched : router.Watched id (· = [.inPhases phases]) emits)
    (known : (router.find? id).isSome) (scripted : router.latch? id = none)
    (once : router.registered.count id = 1) :
    ∃ calls : List Handing, last.noted id = router.noted id ++ calls.map (·.event) ∧
      (calls.filter (·.own)).map (·.event) =
        (told.filter fun entry => under entry ∈ phases).map (·.2) ∧
      ∀ call ∈ calls, call.own = false → emits call.event := by
  induction attends with
  | done => exact ⟨[], by simp, rfl, by simp⟩
  | @told router between last world after phase happening time answer trace told emitted more ih =>
    obtain ⟨here, later⟩ := List.forall_mem_cons.mp belongs
    have here : happening.phase = .ok (under (phase, .announced happening time)) := here
    obtain ⟨calls, hands, each, own⟩ := Router.emit_inPhases record (ordinary phase) watched some
      known once here world
    rw [emitted] at hands
    obtain ⟨rest, noted, chosen, foreign⟩ := ih later hands.watched
      (by rw [hands.known]; exact known) (by rw [hands.latch, scripted]; rfl)
      (by rw [hands.registered]; exact once)
    refine ⟨calls ++ rest, ?_, ?_, List.forall_mem_append.mpr ⟨fun call mem other => ?_, foreign⟩⟩
    · rw [noted, hands.noted scripted, List.map_append, List.append_assoc]
    · rw [List.filter_append, List.map_append, own, chosen, List.filter_cons]
      by_cases within : under (phase, .announced happening time) ∈ phases
      · simp [within]
      · simp [within]
    · simpa [other] using each call mem
  | silent _ more ih => exact ih belongs watched known scripted once

namespace Reconciler

variable {reconciler : Reconciler} {stop : Phase} {result : Result Unit} {listener : Callback ε}
  {script : List (List (Action ε))}

/-- A callback that is registered once and has no rule but one on the phase is handed, of what a run
announces, exactly what is announced in one of its phases, in order, except that it is handed the
failure of the run if the phase that the failure arose in is one of them. Other events it is handed
only if callbacks emit them. Everything that a run announces has a phase. -/
theorem ensureReady_filtered (goes : Goes reconciler.ensureReady .idle trace result stop)
    (attends : Attends perform record router trace told last)
    (ordinary : ∀ phase, Router.Ordinary (perform phase))
    (distinct : (router.pool.map (·.id)).Nodup)
    (apart : ∀ action, router.Acts action → action.IsApart)
    (unruled : ∀ rule, ¬ router.Acts (.addRule id rule))
    (found : router.find? id = some listener) (ruled : listener.rules = [.inPhases phases])
    (scripted : listener.behaviour = .scripted script) (some : phases ≠ [])
    (once : router.registered.count id = 1) :
    (∀ entry ∈ told, ∃ phase, entry.2.phase = .ok phase) ∧
    ∃ arose, (∀ failure, result = .error failure → RaisedIn reconciler trace failure arose) ∧
      ∃ calls : List Handing, last.noted id = router.noted id ++ calls.map (·.event) ∧
        (calls.filter (·.own)).map (·.event) = (told.filter fun (state, event) =>
          if event.type = .failed then arose ∈ phases else state ∈ phases).map (·.2) ∧
        ∀ call ∈ calls, call.own = false → router.Acts (.emit call.event) := by
  have all := attends.all_told ordinary (ensureReady_own goes)
  obtain ⟨arose, raised, files⟩ := ensureReady_files goes all
  have belongs : ∀ entry ∈ told, entry.2.phase = .ok
      (if entry.2.type = .failed then arose else entry.1) := by
    intro entry mem
    obtain ⟨happening, time, answer, stamped, announced⟩ := attends.mem entry mem
    rw [stamped]
    exact files entry.1 happening answer announced
  have watched : router.Watched id (· = [.inPhases phases]) fun event =>
      router.Acts (.emit event) := by
    refine .of_apart distinct apart (fun _ acts => acts) (fun rule acts => ?_) fun other h => ?_
    · exact absurd acts (unruled rule)
    · rw [found] at h
      cases h
      exact ruled
  have unlatched : router.latch? id = none := by
    simp [Router.latch?, found, Callback.latch?, scripted]
  obtain ⟨calls, noted, own, foreign⟩ := attends.filtered ordinary some belongs watched
    (by rw [found]; rfl) unlatched once
  refine ⟨fun entry mem => ⟨_, belongs entry mem⟩, arose, raised, calls, noted, ?_, foreign⟩
  rw [own]
  congr 1
  refine List.filter_congr fun entry _ => ?_
  split <;> simp [*]

/-- One callback listens for the registry phase and another one emits news of a topic whenever it
hears of a change of phase. -/
def echoed (phases : List Phase) : Router Unit :=
  ⟨[⟨"pager", "Scripted", [.inPhases phases], .scripted []⟩,
    ⟨"echo", "Scripted", [⟨some [.stateChanged], none, none⟩],
      .scripted [[.emit (.announced (.topicVisible "audit" 1) 0)]]⟩], ["pager", "echo"], []⟩

theorem actions_echoed (phases : List Phase) : (echoed phases).actions =
    [.emit (.announced (.topicVisible "audit" 1) 0)] := rfl

theorem echoed_apart (phases : List Phase) :
    ∀ action, (echoed phases).Acts action → action.IsApart := by
  simp [Router.acts_iff, actions_echoed, Action.IsApart]

/-- The probe is interrupted: whoever listens for the registry phase hears that it is entered and
what failed in it, and nothing of the failed phase. -/
theorem ensureReady_filtered_failing :
    let phases : List Phase := [.verifyingRegistry]
    let run := rehearsal (echoed phases) (.error (.of (.userInterrupt "")))
    let failure := raisedAs .verifyingRegistry (.of (.userInterrupt ""))
    run.1.2 = (.error failure, .failed) ∧ (run.2.noted "pager").length = 2 ∧
    ∃ told arose, ToldOf (echoed phases) (.error (.of (.userInterrupt ""))) told ∧
      RaisedIn ordersOnly run.1.1 failure arose ∧
      ∃ calls : List Handing, run.2.noted "pager" = calls.map (·.event) ∧
        (calls.filter (·.own)).map (·.event) = (told.filter fun (state, event) =>
          if event.type = .failed then arose ∈ phases else state ∈ phases).map (·.2) ∧
        ∀ call ∈ calls, call.own = false → (echoed phases).Acts (.emit call.event) := by
  intro phases run failure
  have ended : run.1.2 = (.error failure, .failed) := by decide +kernel
  have goes := rehearsal_goes (echoed phases) (.error (.of (.userInterrupt "")))
  obtain ⟨told, attends⟩ := rehearsal_told (echoed phases) (.error (.of (.userInterrupt "")))
  have unruled : ∀ rule, ¬ (echoed phases).Acts (.addRule "pager" rule) := by
    simp [Router.acts_iff, actions_echoed]
  obtain ⟨-, arose, raised, calls, noted, own, foreign⟩ := ensureReady_filtered goes attends
    (fun _ => stumble_ordinary) (by decide) (echoed_apart phases) unruled rfl rfl rfl (by decide)
    (by decide)
  exact ⟨ended, by decide +kernel, told, arose, attends, raised failure (by rw [ended]), calls,
    noted, own, foreign⟩

/-- The callback that listens for the topics to show up hears of one while they are created, since
another callback emits that. -/
theorem ensureReady_filtered_echoed :
    let phases : List Phase := [.verifyingTopics]
    let run := rehearsal (echoed phases) (.ok true)
    Goes ordersOnly.ensureReady .idle run.1.1 run.1.2.1 run.1.2.2 ∧
    Router.Ordinary stumble ∧ (∀ action, (echoed phases).Acts action → action.IsApart) ∧
    (∃ told, ToldOf (echoed phases) (.ok true) told) ∧
    run.1.2 = (.ok (), .ready) ∧
    ¬ ∃ told, ToldOf (echoed phases) (.ok true) told ∧
      run.2.noted "pager" = (told.filter fun (state, _) => state ∈ phases).map (·.2) := by
  intro phases run
  refine ⟨rehearsal_goes _ _, stumble_ordinary, echoed_apart phases, rehearsal_told _ _,
    by decide +kernel, ?_⟩
  rintro ⟨told, attends, exact⟩
  have heard : some "audit" ∈ (run.2.noted "pager").map Event.topic? := by decide +kernel
  have unannounced : some "audit" ∉ (announcements run.1.1).map Happening.topic? := by
    decide +kernel
  rw [exact, List.map_map] at heard
  obtain ⟨entry, among, topic⟩ := List.mem_map.mp heard
  refine unannounced (List.mem_map.mpr ⟨entry.2.happening, ?_, topic⟩)
  rw [← attends.happenings]
  exact List.mem_map_of_mem (List.mem_of_mem_filter among)

end Reconciler

end ClusterReadiness
