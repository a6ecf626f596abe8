import ClusterReadiness.Bootstrap.Assembly
import ClusterReadiness.Rehearsal.Stage

/-!
A whole bootstrap run: the log is set up, everything is put together, and the reconciler works with
the shutdown signals routed to the run's own sleeper. However the work ends, the signal handlers in
force before are back and the registry client is closed.
-/

namespace ClusterReadiness

namespace Bootstrap

/-- How much of its surroundings a run has put together. -/
inductive Made where
  | nothing
  | brokerClient
  | registryClient
deriving DecidableEq, Repr

def banner : String :=
  let rule := String.ofList (List.replicate 60 '=')
  rule ++ "\nkbootstrap starting...\n" ++ rule

def topicsLine (names : List String) : String :=
  let text := ", ".intercalate names
  "topics: " ++ if text = "" then "<none>" else text

def inSurroundings {α : Type} (action : Rehearsed α) : Stage α := liftM action

def record (level : Level) (message : String) : Stage Unit :=
  inSurroundings (Rehearsed.record level message)

def configureLog (level : String) : Stage (Result Unit) :=
  inSurroundings do
    let (log, result) := (← get).log.configure level
    modify fun s => { s with log }
    return result

def getSignals : Stage SignalTable := inSurroundings do return (← get).signals

def setSignals (signals : SignalTable) : Stage Unit :=
  inSurroundings (modify fun s => { s with signals })

/-- The work itself, with the signals routed to sleeper number zero. -/
def reconcile (ports : Ports) (onMainThread : Bool) (reconciler : Reconciler) :
    Stage (Result Unit × Phase) :=
  interruptOnSignals getSignals setSignals onMainThread 0
    (Stage.workThrough ports reconciler.ensureReady .idle)

/-- What follows once sleeper and broker client are there. -/
def assembleAndWork (ports : Ports) (config : Config) : Stage (Result Unit × Made) := do
  match config.connectRegistry with
  | .error failure => return (.error failure, .brokerClient)
  | .ok registry =>
    inSurroundings (modify fun s => { s with registry := .http registry })
    match config.reconciler with
    | .error failure => return (.error failure, .registryClient)
    | .ok reconciler =>
      record .info (topicsLine reconciler.topicNames)
      let (result, _) ← reconcile ports true reconciler
      inSurroundings Rehearsed.closeRegistry
      return (result, .registryClient)

def runThrough (ports : Ports) (config : Config) : Stage (Result Unit × Made) := do
  match ← configureLog config.logLevel with
  | .error failure => return (.error failure, .nothing)
  | .ok () =>
    record .info banner
    record .info ("bootstrap servers: " ++ config.bootstrapServers)
    record .info ("schema registry: " ++ config.registryUrl)
    inSurroundings (modify fun s =>
      { s with
        sleeper := .real .fresh
        broker := .cluster config.timeout })
    assembleAndWork ports config

/-- A run whose port calls go to the rehearsed clients. -/
def run (config : Config) : Stage (Result Unit × Made) := runThrough Rehearsed.ports config

end Bootstrap

end ClusterReadiness
