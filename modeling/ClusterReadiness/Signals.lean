import ClusterReadiness.Log

/-!
Shutdown signals. For the time of a block both signals are routed to one sleeper, which they
interrupt; however the block ends, the handlers in force before are back afterwards. Handlers can
only be installed from the main thread; elsewhere the block runs as it is.
-/

namespace ClusterReadiness

inductive Signal where
  | interrupt
  | terminate
deriving DecidableEq, Repr

namespace Signal

def name : Signal → String
  | interrupt => "SIGINT"
  | terminate => "SIGTERM"

def receivedText (signal : Signal) : String :=
  "rcvd signal " ++ signal.name ++ ", interrupting reconciliation..."

end Signal

/-- What a signal does: whatever it did before the program ran, or interrupt a sleeper. -/
inductive Handler where
  | inherited (label : Nat)
  | interrupts (sleeper : Nat)
deriving DecidableEq, Repr

structure SignalTable where
  interrupt : Handler
  terminate : Handler
deriving DecidableEq, Repr

namespace SignalTable

def inherited : SignalTable := ⟨.inherited 0, .inherited 1⟩

def handler (table : SignalTable) : Signal → Handler
  | .interrupt => table.interrupt
  | .terminate => table.terminate

def routedTo (sleeper : Nat) : SignalTable := ⟨.interrupts sleeper, .interrupts sleeper⟩

end SignalTable

/-- Runs a block with both signals routed to the sleeper. -/
def interruptOnSignals {m : Type → Type} [Monad m] {α : Type} (getTable : m SignalTable)
    (setTable : SignalTable → m Unit) (onMainThread : Bool) (sleeper : Nat) (block : m α) : m α :=
  if onMainThread then do
    let previous ← getTable
    setTable (.routedTo sleeper)
    let value ← block
    setTable previous
    return value
  else block

end ClusterReadiness
