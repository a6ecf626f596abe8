import ClusterReadiness.Proofs.Router.Containment

/-!
# What an emission does to the world

An emission reaches the world only through what its callbacks do and through the log. Whatever these
two preserve, the emission preserves, however the callbacks change the registrations and whatever
they emit themselves; and whatever view of the world they leave as it was, the emission leaves as it
was.
-/

namespace ClusterReadiness

namespace Router

variable {ε σ ρ : Type} {perform : ε → StateM σ (Result Unit)}
  {record : Level → String → StateM σ Unit} {event : Event} {view : σ → ρ}

/-- Work of the router that leads from a world only to worlds related to it. -/
def Leads (R : σ → σ → Prop) (work : StateT (Router ε) (StateM σ) (Result Unit)) : Prop :=
  ∀ router world, R world (ran work router world).2

section Entries

variable {R : σ → σ → Prop} [IsPreorder σ R]
  {nested : Event → StateT (Router ε) (StateM σ) (Result Unit)}

theorem leads_act (effects : ∀ effect world, R world ((perform effect).run world).2)
    (leads : ∀ event, Leads R (nested event)) (action : Action ε) :
    Leads R (act perform nested action) := by
  intro router world
  cases action with
  | register | addRule => exact refl_of R world
  | unregister id =>
    rw [ran_unregister]
    split <;> exact refl_of R world
  | emit event => exact leads event router world
  | perform effect => exact effects effect world

theorem leads_actAll (effects : ∀ effect world, R world ((perform effect).run world).2)
    (leads : ∀ event, Leads R (nested event)) (entry : List (Action ε)) :
    Leads R (actAll perform nested entry) := by
  induction entry with
  | nil => exact fun _ world => refl_of R world
  | cons action rest ih =>
    intro router world
    have led := leads_act effects leads action router world
    cases acted : ran (act perform nested action) router world with
    | mk first after =>
      obtain ⟨outcome, between⟩ := first
      rw [acted] at led
      cases outcome with
      | ok _ =>
        rw [ran_actAll_ok acted]
        exact trans_of R led (ih between after)
      | error cut =>
        rw [ran_actAll_error acted]
        exact led

theorem leads_reported (log : ∀ level message world, R world ((record level message).run world).2)
    (callback : Callback ε) (outcome : Result Unit) (world : σ) :
    R world (reported record callback event outcome world) := by
  cases outcome with
  | ok _ => exact refl_of R world
  | error failure => exact log _ _ world

theorem leads_sweep {runEntry : List (Action ε) → StateT (Router ε) (StateM σ) (Result Unit)}
    {resume : Nat → StateT (Router ε) (StateM σ) (Result Unit)}
    (log : ∀ level message world, R world ((record level message).run world).2)
    (entries : ∀ entry, Leads R (runEntry entry)) (resumes : ∀ position, Leads R (resume position))
    (left position : Nat) : Leads R (sweep record runEntry resume event left position) := by
  induction left generalizing position with
  | zero => exact fun _ world => refl_of R world
  | succ left ih =>
    intro router world
    rcases ran_sweep_cases left position router world with
      ⟨told, step⟩ | ⟨cut, -, step⟩ | ⟨entry, told, cut, between, after, entered, step⟩ |
        ⟨entry, told, callback, outcome, between, after, entered, -, step⟩
    · rw [step]
      exact ih (position + 1) told world
    · rw [step]
      exact refl_of R world
    · have led := entries entry told world
      rw [entered] at led
      rw [step]
      exact led
    · have led := entries entry told world
      rw [entered] at led
      rw [step]
      exact trans_of R led (trans_of R (leads_reported log callback outcome after) (resumes _ _ _))

theorem leads_emitWithin (effects : ∀ effect world, R world ((perform effect).run world).2)
    (log : ∀ level message world, R world ((record level message).run world).2) (budget : Nat)
    (event : Event) (position : Nat) :
    Leads R (emitWithin perform record budget event position) := by
  induction budget generalizing event position with
  | zero =>
    intro router world
    exact leads_sweep log (fun _ _ _ => refl_of R _) (fun _ _ _ => refl_of R _) _ position router
      world
  | succ budget ih =>
    intro router world
    have entries := leads_actAll effects fun event => ih event 0
    exact leads_sweep log entries (ih event) _ position router world

/-- An emission leads where its callbacks' effects and lines in the log lead. -/
theorem leads_emit (effects : ∀ effect world, R world ((perform effect).run world).2)
    (log : ∀ level message world, R world ((record level message).run world).2) (event : Event) :
    Leads R (emit perform record event) := by
  intro router world
  exact leads_emitWithin effects log router.entriesLeft event 0 router world

end Entries

/-- The effects that callbacks have on the world do not show in the view. -/
def Unseen (view : σ → ρ) (perform : ε → StateM σ (Result Unit)) : Prop :=
  ∀ effect world, view ((perform effect).run world).2 = view world

/-- Neither do lines in the log. -/
def UnseenLog (view : σ → ρ) (record : Level → String → StateM σ Unit) : Prop :=
  ∀ level message world, view ((record level message).run world).2 = view world

/-- Work of the router that does not show in the view. -/
def Leaves (view : σ → ρ) (work : StateT (Router ε) (StateM σ) (Result Unit)) : Prop :=
  ∀ router world, view (ran work router world).2 = view world

instance (view : σ → ρ) : IsPreorder σ fun before after => view after = view before where
  refl _ := rfl
  trans _ _ _ first second := second.trans first

theorem leaves_emit (unseen : Unseen view perform) (log : UnseenLog view record) (event : Event) :
    Leaves view (emit perform record event) :=
  leads_emit (R := fun before after => view after = view before) unseen log event

end Router

end ClusterReadiness
