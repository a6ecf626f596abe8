import ClusterReadiness.Signals

/-!
Scripts of what the surroundings do. An outcome may interrupt the sleeper, then deliver a signal, and
then answers. Most scripts go on with their last outcome for ever, which makes a finite script an
answer to every call.
-/

namespace ClusterReadiness

structure Outcome (α : Type) where
  interrupts : Bool
  signal : Option Signal
  result : Result α

namespace Outcome

variable {α : Type}

/-- Answers and does nothing else. -/
def answer (result : Result α) : Outcome α := ⟨false, none, result⟩

/-- The next outcome and the script after it, in which the last outcome stays. -/
def next? : List (Outcome α) → Option (Outcome α × List (Outcome α))
  | [] => none
  | [last] => some (last, [last])
  | first :: rest => some (first, rest)

end Outcome

end ClusterReadiness
