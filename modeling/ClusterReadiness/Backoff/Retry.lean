import ClusterReadiness.Defect
import ClusterReadiness.Log

/-!
Capped exponential back-off for a call that fails by raising. `execute` calls the operation until it
succeeds, gives up on its last attempt, and lets an interrupt of either kind through at once. The
delay may itself fail, since the power is computed before the cap is applied.
-/

namespace ClusterReadiness

@[ext]
structure RetryPolicy where
  initialInterval : Int
  maxInterval : Int
  multiplier : Float
  maxAttempts : Int
  initial_pos : 1 ≤ initialInterval
  initial_le_max : initialInterval ≤ maxInterval
  growing : ¬ multiplier < 1.0
  attempts_pos : 1 ≤ maxAttempts

namespace RetryPolicy

instance : DecidableEq RetryPolicy :=
  fun _ _ => decidable_of_decidable_of_iff RetryPolicy.ext_iff.symm

def make (initialInterval maxInterval : Int) (multiplier : Float) (maxAttempts : Int) :
    Except Defect RetryPolicy :=
  if hi : 1 ≤ initialInterval then
    if 1 ≤ maxInterval then
      if hm : initialInterval ≤ maxInterval then
        if hg : multiplier < 1.0 then .error (.multiplier (.float multiplier))
        else if ha : 1 ≤ maxAttempts then
          .ok ⟨initialInterval, maxInterval, multiplier, maxAttempts, hi, hm, hg, ha⟩
        else .error (.maxAttempts (.int maxAttempts))
      else .error (.initialAboveMaximum (.int initialInterval) (.int maxInterval))
    else .error .retryIntervals
  else .error .retryIntervals

def default : RetryPolicy :=
  ⟨1000, 10000, 2.0, 3, by decide, by decide, by decide, by decide⟩

/-- Delay in milliseconds after the given failed attempt, counted from one. -/
def delayAfter (policy : RetryPolicy) (attempt : Int) : Except Overflow Number := do
  let growth ← Number.power policy.multiplier (attempt - 1)
  let initial ← (Number.int policy.initialInterval).toFloat
  return Number.capAt (initial * growth) policy.maxInterval

/-- What a failed attempt says in the log before it is retried or given up. -/
def attemptText (policy : RetryPolicy) (name : String) (attempt : Int) : String :=
  name ++ " failed on attempt " ++ toString attempt ++ "/" ++ toString policy.maxAttempts

section Execute

variable {m : Type → Type} [Monad m] {α : Type}

/-- Makes the given attempt, with `left` attempts after it. -/
def attempt (policy : RetryPolicy) (name : String) (sleep : Number → m (Result Unit))
    (record : Level → String → m Unit) (operation : m (Result α)) :
    (number : Int) → (left : Nat) → m (Result α)
  | number, left => do
    match ← operation with
    | .ok value => return .ok value
    | .error failure =>
      if !failure.isRetryable then return .error failure
      match left with
      | 0 =>
        record .warning (policy.attemptText name number ++ ", giving up: " ++ failure.message)
        return .error (.because (.retryExhausted number failure.fault) failure)
      | left + 1 =>
        match policy.delayAfter number with
        | .error reason => return .error (.of (.overflow reason))
        | .ok delay =>
          record .warning (policy.attemptText name number ++ ", retrying in " ++ delay.text ++
            " ms: " ++ failure.message)
          match ← sleep delay with
          | .error failure => return .error failure
          | .ok () => attempt policy name sleep record operation (number + 1) left

def execute (policy : RetryPolicy) (name : String) (sleep : Number → m (Result Unit))
    (record : Level → String → m Unit) (operation : m (Result α)) : m (Result α) :=
  policy.attempt name sleep record operation 1 (policy.maxAttempts - 1).toNat

end Execute

end RetryPolicy

end ClusterReadiness
