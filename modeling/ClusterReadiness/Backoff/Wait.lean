import ClusterReadiness.Backoff.Retry

/-!
Uncapped back-off while waiting for something to become observable. `PollState` is the progress of
one such wait: `advance` takes one attempt of the budget, and sleeps and grows the interval only if
the attempt is within it. The interval starts as an integer and is a `Float` once it has grown.
-/

namespace ClusterReadiness

@[ext]
structure WaitPolicy where
  interval : Int
  multiplier : Float
  maxAttempts : Int
  interval_pos : 1 ≤ interval
  growing : ¬ multiplier < 1.0
  attempts_pos : 1 ≤ maxAttempts

namespace WaitPolicy

instance : DecidableEq WaitPolicy :=
  fun _ _ => decidable_of_decidable_of_iff WaitPolicy.ext_iff.symm

def make (interval : Int) (multiplier : Float) (maxAttempts : Int) : Except Defect WaitPolicy :=
  if hi : 1 ≤ interval then
    if hg : multiplier < 1.0 then .error (.multiplier (.float multiplier))
    else if ha : 1 ≤ maxAttempts then .ok ⟨interval, multiplier, maxAttempts, hi, hg, ha⟩
    else .error (.maxAttempts (.int maxAttempts))
  else .error (.waitInterval (.int interval))

/-- Growth and attempts are those of the default retry policy. -/
def default : WaitPolicy :=
  ⟨2000, RetryPolicy.default.multiplier, RetryPolicy.default.maxAttempts, by decide,
    RetryPolicy.default.growing, RetryPolicy.default.attempts_pos⟩

/-- A valid retry policy always yields a valid wait policy; the cap is dropped. -/
def ofRetry (policy : RetryPolicy) : WaitPolicy :=
  ⟨policy.initialInterval, policy.multiplier, policy.maxAttempts, policy.initial_pos,
    policy.growing, policy.attempts_pos⟩

end WaitPolicy

structure PollState where
  interval : Number
  attempt : Int
deriving DecidableEq

namespace PollState

def start (policy : WaitPolicy) : PollState := ⟨.int policy.interval, 1⟩

section Advance

variable {m : Type → Type} [Monad m]

/-- Answers whether the budget allowed another attempt, with the progress made in any case. -/
def advance (poll : PollState) (policy : WaitPolicy) (sleep : Number → m (Result Unit))
    (record : Level → String → m Unit) : m (Result Bool × PollState) := do
  let poll := { poll with attempt := poll.attempt + 1 }
  if policy.maxAttempts < poll.attempt then return (.ok false, poll)
  record .debug ("waiting " ++ poll.interval.text ++ " ms before attempt " ++
    toString poll.attempt)
  match ← sleep poll.interval with
  | .error failure => return (.error failure, poll)
  | .ok () =>
    match poll.interval.scale policy.multiplier with
    | .error reason => return (.error (.of (.overflow reason)), poll)
    | .ok interval => return (.ok true, { poll with interval })

end Advance

end PollState

end ClusterReadiness
