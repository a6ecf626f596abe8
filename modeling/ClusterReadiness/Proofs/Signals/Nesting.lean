import ClusterReadiness.Signals
import ClusterReadiness.Sleeper
import Mathlib.Logic.Function.Basic
import Mathlib.Tactic.Common

/-!
# Nested blocks

Blocks that route the signals to a sleeper may be opened within each other, may be left by any
failure, and may be followed by anything. Each of them puts back what it found, so at every moment
the handlers in force are those of the innermost open block; outside of all blocks they are the ones
from the start.
-/

namespace ClusterReadiness

/-- What goes on in one thread: signals arrive and blocks are opened, and how these end decides on
what follows. -/
inductive Activity where
  | done (result : Result Unit)
  | arrival (signal : Signal) (next : Result Unit → Activity)
  | block (sleeper : Nat) (body : Activity) (next : Result Unit → Activity)

/-- What a handler does about a signal. Inherited handlers do what they like, and may fail. -/
def Handler.take (ownDoing : Nat → Signal → Result Unit) (signal : Signal)
    (sleepers : Nat → InterruptibleSleeper) : Handler → Result Unit × (Nat → InterruptibleSleeper)
  | interrupts sleeper =>
    (.ok (), Function.update sleepers sleeper (sleepers sleeper).interrupt)
  | inherited label => (ownDoing label signal, sleepers)

/-- The handlers in force, and all sleepers there are. -/
structure Wiring where
  table : SignalTable
  sleepers : Nat → InterruptibleSleeper

namespace Wiring

def getTable : StateM Wiring SignalTable := do return (← get).table

def setTable (table : SignalTable) : StateM Wiring Unit := modify ({ · with table })

/-- A signal goes to the handler in force. -/
def arrive (inherited : Nat → Signal → Result Unit) (signal : Signal) :
    StateM Wiring (Result Unit) := do
  let wiring ← get
  let (outcome, sleepers) := (wiring.table.handler signal).take inherited signal wiring.sleepers
  set { wiring with sleepers }
  return outcome

end Wiring

namespace Activity

/-- Signals go to the handlers in force, and blocks exchange these. -/
def perform (inherited : Nat → Signal → Result Unit) : Activity → StateM Wiring (Result Unit)
  | done result => return result
  | arrival signal next => do
    let outcome ← Wiring.arrive inherited signal
    (next outcome).perform inherited
  | block sleeper body next => do
    let outcome ← interruptOnSignals Wiring.getTable Wiring.setTable true sleeper
      (body.perform inherited)
    (next outcome).perform inherited

section Scoping

variable (inherited : Nat → Signal → Result Unit) (first : SignalTable)

end Scoping

end Activity

end ClusterReadiness
