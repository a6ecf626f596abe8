import ClusterReadiness.Number.Text
import ClusterReadiness.Fault

/-!
A sleep that a shutdown cuts short. Once interrupted, the sleeper fails every later sleep at once.
How long a sleep takes is not modelled, only whether it can be carried out and how it ends.
-/

namespace ClusterReadiness

structure InterruptibleSleeper where
  interrupted : Bool
deriving DecidableEq

namespace InterruptibleSleeper

def fresh : InterruptibleSleeper := ⟨false⟩

def interruptText : String := "sleeper interrupted"

def interrupt (_ : InterruptibleSleeper) : InterruptibleSleeper := ⟨true⟩

/-- The delay in seconds. -/
def seconds : Number → Except Overflow Float
  | .int n =>
    let x := (Dyadic.nearestQuotient n.natAbs 1000)
    if x.isInf then .error .quotientTooLarge else .ok (if n < 0 then -x else x)
  | .float x => .ok (x / 1000.0)

/-- A timer counts nanoseconds in 63 bits. -/
def fitsTimer (seconds : Float) : Bool := !(9223372036854775808.0 ≤ seconds * 1000000000.0)

def cutShort (delay : Number) : Fault :=
  .interruptedWait ("interrupted while waiting " ++ delay.text ++ " ms")

/-- A sleep of the given milliseconds that nothing arrives in. -/
def sleep (sleeper : InterruptibleSleeper) (delay : Number) : Result Unit :=
  match seconds delay with
  | .error reason => .error (.of (.overflow reason))
  | .ok s =>
    if sleeper.interrupted then .error (.of (cutShort delay))
    else if 0.0 < s && !fitsTimer s then .error (.of (.overflow .timerTooLarge))
    else .ok ()

/-- A sleep that the user interrupts. -/
def sleepInterrupted (sleeper : InterruptibleSleeper) (delay : Number) :
    InterruptibleSleeper × Result Unit :=
  match seconds delay with
  | .error reason => (sleeper, .error (.of (.overflow reason)))
  | .ok _ => (sleeper.interrupt, .error (.because (cutShort delay) (.of (.userInterrupt ""))))

end InterruptibleSleeper

end ClusterReadiness
