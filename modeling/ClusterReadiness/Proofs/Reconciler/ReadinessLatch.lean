import ClusterReadiness.Proofs.Reconciler.Attendance

/-!
# The readiness latch

A latch that is registered before a run stays open until the run tells its end, and then says what
that was: the topics that are ready, or what failed the run and in which phase. Other callbacks may
do what they like, as long as they leave the registrations alone and do not themselves emit that a
run is ready or failed.
-/

namespace ClusterReadiness

variable {ε σ : Type} {id : String} {latch : Latch}

section Watching

variable {router : Router ε} {suits : List Rule → Prop} {emits : Event → Prop}

/-- Callbacks that leave the registrations alone spare one whose rules they do not spoil. -/
theorem Router.Watched.of_apart (distinct : (router.pool.map (·.id)).Nodup)
    (apart : ∀ action, router.Acts action → action.IsApart)
    (emitted : ∀ event, router.Acts (.emit event) → emits event)
    (unspoilt : ∀ rule, router.Acts (.addRule id rule) →
      ∀ rules, suits rules → suits (rules ++ [rule]))
    (suited : ∀ callback, router.find? id = some callback → suits callback.rules) :
    router.Watched id suits emits where
  distinct := distinct
  spares action acts := by
    cases action with
    | register | unregister => exact apart _ acts
    | addRule other rule =>
      rintro rfl
      exact unspoilt rule acts
    | emit event => exact emitted event acts
    | perform effect => trivial
  suited := suited

end Watching

section Attending

variable {perform : Phase → ε → StateM σ (Result Unit)} {record : Level → String → StateM σ Unit}
  {router last : Router ε} {trace : List Exchange} {told : List (Phase × Event)}

/-- A registered latch takes in all that is announced. -/
theorem Attends.latched (attends : Attends perform record router trace told last)
    (ordinary : ∀ phase, Router.Ordinary (perform phase))
    (watched : router.Watched id Router.OfLatch fun event => ¬ event.happening.IsTerminal)
    (state : router.latch? id = some latch) (registered : id ∈ router.registered) :
    last.latch? id = some ((told.map (·.2)).foldl Latch.handle latch) := by
  induction attends generalizing latch with
  | done => exact state
  | told emitted more ih =>
    obtain ⟨still, same, taken⟩ :=
      Router.emit_latch record (ordinary _) watched state registered _
    rw [emitted] at still same taken
    exact ih still taken (by rw [same]; exact registered)
  | silent _ more ih => exact ih watched state registered

theorem foldl_handle_going {events : List Event}
    (going : ∀ event ∈ events, ¬ event.happening.IsTerminal) :
    events.foldl Latch.handle latch = latch := by
  induction events with
  | nil => rfl
  | cons event rest ih =>
    obtain ⟨here, others⟩ := List.forall_mem_cons.mp going
    rw [List.foldl_cons, Router.handle_of_not_terminal here]
    exact ih others

/-- Nothing is taken in as long as no end is told. -/
theorem Attends.going (attends : Attends perform record router trace told last)
    (going : ∀ happening ∈ announcements trace, ¬ happening.IsTerminal) :
    (told.map (·.2)).foldl Latch.handle latch = latch := by
  refine foldl_handle_going (List.forall_mem_map.mpr fun entry mem => ?_)
  refine going _ ?_
  rw [← attends.happenings]
  exact List.mem_map_of_mem mem

/-- What is told last is all that is taken in, if nothing before tells an end. -/
theorem Attends.ended {earlier : List Happening} {happening : Happening}
    (attends : Attends perform record router trace told last)
    (announced : announcements trace = earlier ++ [happening])
    (going : ∀ happening ∈ earlier, ¬ happening.IsTerminal) :
    ∃ time, (told.map (·.2)).foldl Latch.handle latch =
      latch.handle (.announced happening time) := by
  have happenings := attends.happenings
  rw [announced] at happenings
  obtain ⟨begun, entries, rfl, begins, ends⟩ := List.map_eq_append_iff.mp happenings
  obtain ⟨entry, rfl, ended⟩ := List.map_eq_singleton_iff.mp ends
  obtain ⟨news, time, _, stamped, -⟩ :=
    attends.mem entry (List.mem_append_right _ (List.mem_singleton_self _))
  rw [stamped] at ended
  obtain rfl : news = happening := ended
  refine ⟨time, ?_⟩
  have before : (begun.map (·.2)).foldl Latch.handle latch = latch := by
    refine foldl_handle_going (List.forall_mem_map.mpr fun other mem => ?_)
    refine going _ ?_
    rw [← begins]
    exact List.mem_map_of_mem mem
  rw [List.map_append, List.foldl_append, before, List.map_singleton, stamped]
  rfl

end Attending

namespace Reconciler

variable {reconciler : Reconciler} {stop : Phase} {trace : List Exchange} {result : Result Unit}
  {perform : Phase → ε → StateM σ (Result Unit)} {record : Level → String → StateM σ Unit}
  {router last : Router ε} {told : List (Phase × Event)} {listener : Callback ε}

/-- A fresh latch, registered anywhere among callbacks that meet ordinary faults only, leave the
registrations alone and do not emit themselves that a run is ready or failed, is fresh as long as
anything is left to be announced. When the run has ended the latch is finished, and says that the run
is ready if and only if the run returned: then it holds the run's topics and no failure, and else no
topics but the name and the text of what the run raised, with the phase in which that arose. Later
calls change none of this. -/
theorem ensureReady_latched (goes : Goes reconciler.ensureReady .idle trace result stop)
    (attends : Attends perform record router trace told last)
    (ordinary : ∀ phase, Router.Ordinary (perform phase))
    (distinct : (router.pool.map (·.id)).Nodup)
    (apart : ∀ action, router.Acts action → action.IsApart)
    (unforged : ∀ event, router.Acts (.emit event) → ¬ event.happening.IsTerminal)
    (found : router.find? id = some listener) (ruled : ∃ added, listener.rules = Latch.rule :: added)
    (fresh : listener.behaviour = .latch .fresh) (registered : id ∈ router.registered) :
    (∀ earlier rest begun between, trace = earlier ++ rest → announcements rest ≠ [] →
      Attends perform record router earlier begun between → between.latch? id = some .fresh) ∧
    ∃ latch, last.latch? id = some latch ∧ latch.finished = true ∧
      (latch.isReady = true ↔ result = .ok ()) ∧
      (result = .ok () → latch.failure = none ∧ ∃ duration time,
        latch.ready = some (.announced (.ready reconciler.topicNames duration) time)) ∧
      (∀ failure, result = .error failure → latch.ready = none ∧ ∃ phase time,
        RaisedIn reconciler trace failure phase ∧
        latch.failure = some (.announced (.failed phase failure.name failure.message) time)) ∧
      ∀ later more again final, Called reconciler stop later again →
        Attends perform record last later more final → final.latch? id = some latch := by
  have watched : router.Watched id Router.OfLatch fun event => ¬ event.happening.IsTerminal := by
    refine .of_apart distinct apart unforged (fun _ _ _ => Router.ofLatch_append) fun other h => ?_
    rw [found] at h
    cases h
    exact ruled
  have state : router.latch? id = some .fresh := by
    simp [Router.latch?, found, Callback.latch?, fresh]
  have all := attends.all_told ordinary (ensureReady_own goes)
  obtain ⟨earlier, news, announced, going, ends⟩ := ensureReady_tells goes all
  constructor
  · intro first rest begun between split more attended
    rw [attended.latched ordinary watched state registered, attended.going fun happening mem => ?_]
    refine going happening ?_
    rw [split, announcements_append] at announced
    obtain ⟨others, final, left⟩ := List.eq_nil_or_concat' (announcements rest) |>.resolve_left more
    rw [left, ← List.append_assoc] at announced
    rw [← (List.append_inj' announced rfl).1]
    exact List.mem_append_left _ mem
  · obtain ⟨time, taken⟩ : ∃ time, _ = Latch.fresh.handle (.announced news time) :=
      attends.ended announced going
    have ended := attends.latched ordinary watched state registered
    rw [taken] at ended
    have later : ∀ later more again final, Called reconciler stop later again →
        Attends perform record last later more final →
          final.latch? id = some (Latch.fresh.handle (.announced news time)) := by
      intro later more again final called attended
      have begun : stop ≠ .idle := by
        obtain ⟨-, h | h, -⟩ := ensureReady_leads goes <;> rw [h] <;> decide
      rw [attended.unchanged (called.again begun).1]
      exact ended
    rcases ends with ⟨rfl, duration, rfl⟩ | ⟨failure, phase, rfl, raised, rfl⟩
    · exact ⟨_, ended, rfl, ⟨fun _ => rfl, fun _ => rfl⟩, fun _ => ⟨rfl, duration, time, rfl⟩,
        fun _ h => (by cases h), later⟩
    · refine ⟨_, ended, rfl, ⟨fun h => (by cases h), fun h => (by cases h)⟩,
        fun h => (by cases h), fun other h => ?_, later⟩
      cases h
      exact ⟨rfl, phase, time, raised, rfl⟩

/-- The probe is interrupted, while one callback adds a rule to the latch, another one emits news of
its own, and both stumble. -/
theorem ensureReady_latched_unruly :
    let unruly : Router Unit :=
      ⟨[⟨"pager", "Scripted", [], .scripted [[.addRule "latch" (.inPhases [.ready]), .perform ()]]⟩,
        ⟨"latch", "ReadinessLatch", [Latch.rule], .latch .fresh⟩,
        ⟨"echo", "Scripted", [], .scripted [[.emit (.announced (.topicVisible "audit" 1) 0),
          .perform ()]]⟩], ["pager", "latch", "echo"], []⟩
    let run := rehearsal unruly (.error (.of (.userInterrupt "")))
    let failure := raisedAs .verifyingRegistry (.of (.userInterrupt ""))
    run.1.2 = (.error failure, .failed) ∧ ∃ latch, run.2.latch? "latch" = some latch ∧
      latch.finished = true ∧ latch.isReady = false ∧ latch.ready = none ∧ ∃ phase time,
        RaisedIn ordersOnly run.1.1 failure phase ∧
        latch.failure = some (.announced (.failed phase failure.name failure.message) time) := by
  intro unruly run failure
  have ended : run.1.2 = (.error failure, .failed) := by decide +kernel
  have goes := rehearsal_goes unruly (.error (.of (.userInterrupt "")))
  obtain ⟨told, attends⟩ := rehearsal_told unruly (.error (.of (.userInterrupt "")))
  have listed : unruly.actions = [.addRule "latch" (.inPhases [.ready]), .perform (),
      .emit (.announced (.topicVisible "audit" 1) 0), .perform ()] := rfl
  have apart : ∀ action, unruly.Acts action → action.IsApart := by
    simp [Router.acts_iff, listed, Action.IsApart]
  have unforged : ∀ event, unruly.Acts (.emit event) → ¬ event.happening.IsTerminal := by
    simp [Router.acts_iff, listed, Event.announced, Happening.IsTerminal]
  obtain ⟨-, latch, state, finished, ready, -, failed, -⟩ := ensureReady_latched goes attends
    (fun _ => stumble_ordinary) (by decide) apart unforged rfl ⟨[], rfl⟩ rfl (.tail _ (.head _))
  obtain ⟨unready, phase, time, raised, held⟩ := failed failure (by rw [ended])
  refine ⟨ended, latch, state, finished, ?_, unready, phase, time, raised, held⟩
  rw [← Bool.not_eq_true, ready, ended]
  exact fun h => by cases h

/-- A callback that is told of the first change of phase emits that the run has failed. The run
returns nevertheless, and leaves a latch that holds a failure. -/
theorem ensureReady_latched_forged :
    let forging : Router Unit :=
      ⟨[⟨"forger", "Scripted", [⟨some [.stateChanged], none, none⟩],
          .scripted [[.emit (.announced (.failed .idle "RuntimeError" "forged") 0)]]⟩,
        ⟨"latch", "ReadinessLatch", [Latch.rule], .latch .fresh⟩], ["forger", "latch"], []⟩
    let run := rehearsal forging (.ok true)
    Goes ordersOnly.ensureReady .idle run.1.1 run.1.2.1 run.1.2.2 ∧
    (∃ told, ToldOf forging (.ok true) told) ∧ Router.Ordinary stumble ∧
    (∀ action, forging.Acts action → action.IsApart) ∧
    run.1.2 = (.ok (), .ready) ∧
    ¬ ∃ latch, run.2.latch? "latch" = some latch ∧ latch.failure = none := by
  intro forging run
  have listed : forging.actions =
      [.emit (.announced (.failed .idle "RuntimeError" "forged") 0)] := rfl
  have held : (run.2.latch? "latch").map (fun latch => latch.failure.isSome) = some true := by
    decide +kernel
  refine ⟨rehearsal_goes forging _, rehearsal_told forging _, stumble_ordinary, ?_,
    by decide +kernel, ?_⟩
  · simp [Router.acts_iff, listed, Action.IsApart]
  · rintro ⟨latch, state, unfailed⟩
    rw [state, Option.map_some, unfailed] at held
    cases held

end Reconciler

end ClusterReadiness
