import ClusterReadiness.Proofs.Reconciler.TopicBudget

/-!
# The budget of the registry phase

A registry whose probes are answered is probed until it is healthy, with one rest before every probe
but the first. If it is not healthy by then, the phase fails as soon as the budget is spent, and no
probe is made beyond it.
-/

namespace ClusterReadiness

section Tallies

variable {first rest : List Exchange}

/-- Whether a probe that was answered found the registry healthy. -/
def Exchange.health? : Exchange → Option Bool
  | ⟨.probe, .ok healthy⟩ => some healthy
  | _ => none

/-- What the probes that were answered found, in order. -/
def healths (trace : List Exchange) : List Bool := trace.filterMap Exchange.health?

@[simp] theorem healths_append : healths (first ++ rest) = healths first ++ healths rest :=
  List.filterMap_append

theorem healths_probe {healthy : Bool} :
    healths (⟨.probe, .ok healthy⟩ :: rest) = healthy :: healths rest := rfl

theorem sleeps_probe {answer : Result Bool} :
    sleeps (⟨.probe, answer⟩ :: rest) = sleeps rest := rfl

end Tallies

namespace Reconciler

variable {reconciler : Reconciler} {start stop phase : Phase} {trace : List Exchange}
  {poll after : PollState}

/-- A round probes nothing. -/
theorem Waits.unprobed {policy : WaitPolicy} {waiting : Phase} {topic : Option String}
    {spent : Int → Fault} {result : Result Unit}
    (waits : Waits policy phase waiting topic spent poll trace result after) :
    healths trace = [] := by
  cases waits <;> rfl

/-- A round that is told took one rest, and the interval has grown. -/
theorem Waits.rested {policy : WaitPolicy} {waiting : Phase} {topic : Option String}
    {spent : Int → Fault}
    (waits : Waits policy phase waiting topic spent poll trace (.ok ()) after) :
    sleeps trace = 1 ∧ poll.interval.scale policy.multiplier = .ok after.interval := by
  cases waits with
  | told within grown => exact ⟨rfl, grown⟩

/-- A wait that ends well was told healthy at last, and before that once for each rest that it is
not. -/
theorem AwaitsRegistry.found
    (awaits : AwaitsRegistry reconciler phase poll trace (.ok ()) after) :
    ∃ rounds, rounds ≤ reconciler.budget poll ∧
      healths trace = List.replicate rounds false ++ [true] ∧ sleeps trace = rounds ∧
      after.attempt = poll.attempt + rounds := by
  generalize hresult : Except.ok () = result at awaits
  induction awaits with
  | healthy => exact ⟨0, Nat.zero_le _, rfl, rfl, (Int.add_zero _).symm⟩
  | @again poll between after waited rest result waits _ ih =>
    obtain ⟨taken, within⟩ := waits.advanced
    obtain ⟨slept, -⟩ := waits.rested
    obtain ⟨rounds, enough, found, rested, attempts⟩ := ih hresult
    refine ⟨rounds + 1, ?_, ?_, ?_, ?_⟩
    · simp only [budget] at enough ⊢
      omega
    · rw [healths_append, healths_probe, waits.unprobed, found, List.replicate_succ]
      rfl
    · rw [sleeps_append, sleeps_probe, slept, rested, Nat.add_comm]
    · rw [attempts, taken]
      push_cast
      omega
  | _ => cases hresult

/-- A wait that fails although every probe was answered has spent the budget on probes that found
the registry unhealthy. -/
theorem AwaitsRegistry.missed {failure : Failure}
    (awaits : AwaitsRegistry reconciler phase poll trace (.error failure) after)
    (grows : poll.attempt < reconciler.wait.maxAttempts → Grows reconciler.wait poll)
    (smooth : ∀ e ∈ trace, e.Smooth)
    (answered : ∀ reason, (⟨.probe, .error reason⟩ : Exchange) ∉ trace) :
    healths trace = List.replicate (reconciler.budget poll + 1) false ∧
      sleeps trace = reconciler.budget poll ∧
      failure = .of (.registryNotReady (max poll.attempt reconciler.wait.maxAttempts)) := by
  generalize hresult : Except.error failure = result at awaits
  induction awaits with
  | raised => exact absurd (.head _) (answered _)
  | healthy => cases hresult
  | @stopped poll after waited reason waits =>
    cases hresult
    obtain ⟨-, smoothWaited⟩ := List.forall_mem_cons.mp smooth
    obtain ⟨-, -, ⟨used, raised, noSleep⟩ | ⟨-, h, -⟩⟩ := waits.smoothly grows smoothWaited
    · cases raised
      have none : reconciler.budget poll = 0 := by
        unfold budget
        omega
      refine ⟨?_, ?_, ?_⟩
      · rw [none]
        exact congrArg (false :: ·) waits.unprobed
      · rw [none]
        exact noSleep
      · rw [Int.max_eq_left used]
    · cases h
  | @again poll between after waited rest result waits _ ih =>
    obtain ⟨smoothFirst, smoothRest⟩ := List.forall_mem_append.mp smooth
    obtain ⟨taken, within⟩ := waits.advanced
    obtain ⟨slept, grown⟩ := waits.rested
    obtain ⟨found, rested, raised⟩ := ih (fun _ => grows_of_grown grown) smoothRest
      (fun reason among => answered reason (List.mem_append_right _ among)) hresult
    have left : reconciler.budget poll = reconciler.budget between + 1 := by
      simp only [budget]
      omega
    refine ⟨?_, ?_, ?_⟩
    · rw [healths_append, healths_probe, waits.unprobed, found, left,
        List.replicate_succ (n := _ + 1)]
      rfl
    · rw [sleeps_append, sleeps_probe, slept, rested, left, Nat.add_comm]
    · have reached : max between.attempt reconciler.wait.maxAttempts =
          max poll.attempt reconciler.wait.maxAttempts := by omega
      rw [raised, reached]

theorem verifyRegistry_found
    (polls : Polls reconciler.verifyRegistry poll start trace (.ok ()) after stop) :
    ∃ rounds, rounds ≤ reconciler.budget poll ∧
      healths trace = List.replicate rounds false ++ [true] ∧ sleeps trace = rounds ∧
      after.attempt = poll.attempt + rounds := by
  obtain ⟨-, ⟨failure, -, h⟩ | ⟨probed, message, awaits, rfl, -⟩⟩ := polls_verifyRegistry polls
  · cases h
  obtain ⟨rounds, within, found, rested, attempts⟩ := awaits.found
  refine ⟨rounds, within, ?_, ?_, attempts⟩
  · rw [healths_append, found]
    exact List.append_nil _
  · rw [sleeps_append, rested]
    rfl

theorem verifyRegistry_missed {failure : Failure}
    (polls : Polls reconciler.verifyRegistry poll start trace (.error failure) after stop)
    (grows : poll.attempt < reconciler.wait.maxAttempts → Grows reconciler.wait poll)
    (smooth : ∀ e ∈ trace, e.Smooth)
    (answered : ∀ reason, (⟨.probe, .error reason⟩ : Exchange) ∉ trace) :
    healths trace = List.replicate (reconciler.budget poll + 1) false ∧
      sleeps trace = reconciler.budget poll ∧
      failure = .of (.registryNotReady (max poll.attempt reconciler.wait.maxAttempts)) := by
  obtain ⟨-, ⟨other, awaits, h⟩ | ⟨probed, message, -, -, h⟩⟩ := polls_verifyRegistry polls
  · cases h
    exact awaits.missed grows smooth answered
  · cases h

end Reconciler

end ClusterReadiness
