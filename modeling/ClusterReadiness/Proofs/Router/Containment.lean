import ClusterReadiness.Proofs.Router.Emission

/-!
# Contained failures

An ordinary fault of a callback goes no further than the log. Whoever emits an event of a run hears
of a callback that fails only if what failed it was a user interrupt.
-/

namespace ClusterReadiness

namespace Router

variable {ε σ : Type} {perform : ε → StateM σ (Result Unit)}
  {record : Level → String → StateM σ Unit} {event : Event}

/-- What callbacks do to the world outside fails by ordinary faults only. -/
def Ordinary (perform : ε → StateM σ (Result Unit)) : Prop :=
  ∀ effect world failure after, (perform effect).run world = (.error failure, after) →
    failure.isUserInterrupt = false

/-- Work of the router that no user interrupt comes out of. -/
def Calm (work : StateT (Router ε) (StateM σ) (Result Unit)) : Prop :=
  ∀ router world failure, (ran work router world).1.1 = .error failure →
    failure.isUserInterrupt = false

section Rules

variable {failure : Failure}

/-- A rule fails only for want of a phase. -/
theorem accepts_error {rule : Rule} (fails : rule.accepts event = .error failure) :
    event.phase = .error failure := by
  simp only [Rule.accepts] at fails
  split at fails
  · cases fails
  · split at fails
    · cases fails
    · cases phase : event.phase with
      | error cut =>
        rw [phase] at fails
        cases fails
        rfl
      | ok _ =>
        rw [phase] at fails
        cases fails

theorem phase_error (fails : event.phase = .error failure) : failure.isUserInterrupt = false := by
  unfold Event.phase at fails
  cases happening : event.happening with
  | foreign object =>
    rw [happening] at fails
    cases fails
    rfl
  | _ =>
    rw [happening] at fails
    cases fails

/-- Rules never fail by a user interrupt. -/
theorem wants_error {rules : List Rule} (fails : Rule.wants rules event = .error failure) :
    failure.isUserInterrupt = false := by
  unfold Rule.wants at fails
  split at fails
  · cases fails
  · induction rules with
    | nil => cases fails
    | cons rule rest ih =>
      rw [Rule.anyAccepts] at fails
      cases accepts : rule.accepts event with
      | error cut =>
        rw [accepts] at fails
        cases fails
        exact phase_error (accepts_error accepts)
      | ok accepted =>
        rw [accepts] at fails
        cases accepted with
        | true => cases fails
        | false =>
          cases rest with
          | nil => cases fails
          | cons => exact ih (by simp) fails

end Rules

section Entries

variable {nested : Event → StateT (Router ε) (StateM σ) (Result Unit)}

theorem calm_act (ordinary : Ordinary perform) (calm : ∀ event, Calm (nested event))
    (action : Action ε) : Calm (act perform nested action) := by
  intro router world failure failed
  cases action with
  | register | addRule => cases failed
  | unregister id =>
    rw [ran_unregister] at failed
    split at failed
    · cases failed
    · cases failed
      rfl
  | emit event => exact calm event router world failure failed
  | perform effect => exact ordinary effect world failure _ (Prod.ext failed rfl)

theorem calm_actAll (ordinary : Ordinary perform) (calm : ∀ event, Calm (nested event))
    (entry : List (Action ε)) : Calm (actAll perform nested entry) := by
  induction entry with
  | nil =>
    intro router world failure failed
    cases failed
  | cons action rest ih =>
    intro router world failure failed
    cases acted : ran (act perform nested action) router world with
    | mk first after =>
      obtain ⟨outcome, between⟩ := first
      cases outcome with
      | ok _ =>
        rw [ran_actAll_ok acted] at failed
        exact ih between after failure failed
      | error cut =>
        rw [ran_actAll_error acted] at failed
        cases failed
        exact calm_act ordinary calm action router world failure (by rw [acted])

end Entries

section Sweeping

variable {runEntry : List (Action ε) → StateT (Router ε) (StateM σ) (Result Unit)}
  {resume : Nat → StateT (Router ε) (StateM σ) (Result Unit)} {position : Nat}
  {router : Router ε} {world : σ} {callback : Callback ε}

/-- Rules that fail end the walk. -/
theorem ran_sweep_unruled {left : Nat} {failure : Failure}
    (found : router.at? position = some callback)
    (unruled : Rule.wants callback.rules event = .error failure) :
    ran (sweep record runEntry resume event (left + 1) position) router world =
      ((.error failure, router), world) := by
  have first : ran (get : StateT (Router ε) (StateM σ) (Router ε)) router world =
      ((router, router), world) := rfl
  unfold at? at found
  rw [sweep, ran_bind first]
  simp only [found, unruled]
  rfl

/-- What a sweep comes to at the place it stands at: it goes on to the next one, rules end it there,
an entry that is interrupted ends it, or what follows a used entry takes over. -/
theorem ran_sweep_cases (left position : Nat) (router : Router ε) (world : σ) :
    let swept := ran (sweep record runEntry resume event (left + 1) position) router world
    (∃ told, swept = ran (sweep record runEntry resume event left (position + 1)) told world) ∨
    (∃ failure, failure.isUserInterrupt = false ∧ swept = ((.error failure, router), world)) ∨
    (∃ entry told failure between after,
      ran (runEntry entry) told world = ((.error failure, between), after) ∧
      swept = ((.error failure, between), after)) ∨
    ∃ entry told, ∃ callback : Callback ε, ∃ outcome between after,
      ran (runEntry entry) told world = ((outcome, between), after) ∧
      (∀ failure, outcome = .error failure → failure.isUserInterrupt = false) ∧
      swept = ran (resume (position + 1)) between
        (reported record callback event outcome after) := by
  intro swept
  cases found : router.at? position with
  | none => exact .inl ⟨router, ran_sweep_refused (fun _ h => by rw [found] at h; cases h)⟩
  | some callback =>
    cases wants : Rule.wants callback.rules event with
    | error cut => exact .inr (.inl ⟨cut, wants_error wants, ran_sweep_unruled found wants⟩)
    | ok wanted =>
      cases wanted with
      | false =>
        have unwanted : ∀ other, router.at? position = some other →
            Rule.wants other.rules event = .ok false := by
          intro other h
          rw [found] at h
          cases h
          exact wants
        exact .inl ⟨router, ran_sweep_refused unwanted⟩
      | true =>
        cases handing : router.handOver callback event with
        | mk told due =>
          cases due with
          | none => exact .inl ⟨told, ran_sweep_handed found wants handing⟩
          | some entry =>
            cases entered : ran (runEntry entry) told world with
            | mk first after =>
              obtain ⟨outcome, between⟩ := first
              rcases ran_sweep_entered found wants handing entered with
                ⟨cut, rfl, -, ended⟩ | ⟨fine, resumed⟩
              · exact .inr (.inr (.inl ⟨entry, told, cut, between, after, entered, ended⟩))
              · exact .inr (.inr (.inr
                  ⟨entry, told, callback, outcome, between, after, entered, fine, resumed⟩))

theorem calm_sweep (entries : ∀ entry, Calm (runEntry entry))
    (resumes : ∀ position, Calm (resume position)) (left position : Nat) :
    Calm (sweep record runEntry resume event left position) := by
  induction left generalizing position with
  | zero =>
    intro router world failure failed
    cases failed
  | succ left ih =>
    intro router world failure failed
    rcases ran_sweep_cases left position router world with
      ⟨told, step⟩ | ⟨cut, ordinary, step⟩ | ⟨entry, told, cut, between, after, entered, step⟩ |
        ⟨entry, told, callback, outcome, between, after, entered, -, step⟩
    · rw [step] at failed
      exact ih (position + 1) told world failure failed
    · rw [step] at failed
      cases failed
      exact ordinary
    · rw [step] at failed
      cases failed
      exact entries entry told world failure (by rw [entered])
    · rw [step] at failed
      exact resumes _ _ _ _ failed

end Sweeping

variable (record) in
theorem calm_emitWithin (ordinary : Ordinary perform) (budget : Nat) (event : Event)
    (position : Nat) : Calm (emitWithin perform record budget event position) := by
  induction budget generalizing event position with
  | zero =>
    intro router world failure failed
    exact calm_sweep (fun _ _ _ _ h => by cases h) (fun _ _ _ _ h => by cases h) _ position router
      world failure failed
  | succ budget ih =>
    intro router world failure failed
    exact calm_sweep (calm_actAll ordinary fun event => ih event 0) (ih event) _ position router
      world failure failed

/-- An emission of a run's own event succeeds, whatever ordinary faults its callbacks meet. -/
theorem emit_ok (own : ∀ object, event.happening ≠ .foreign object) (ordinary : Ordinary perform)
    (router : Router ε) (world : σ) :
    (ran (emit perform record event) router world).1.1 = .ok () := by
  cases emitted : (ran (emit perform record event) router world).1.1 with
  | ok _ => rfl
  | error failure =>
    have raw := emit_interrupted own router world failure emitted
    have calm := calm_emitWithin record ordinary router.entriesLeft event 0 router world failure
      emitted
    rw [raw] at calm
    cases calm

end Router

end ClusterReadiness
