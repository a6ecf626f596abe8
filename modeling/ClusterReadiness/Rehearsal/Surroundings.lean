import ClusterReadiness.Broker.Cluster
import ClusterReadiness.Broker.InMemory
import ClusterReadiness.Registry.Http
import ClusterReadiness.Registry.InMemory
import ClusterReadiness.Rehearsal.Outcome
import ClusterReadiness.Sleeper

/-!
Surroundings in which bootstrap work is rehearsed without a network and without waiting. Broker and
registry are kept in memory or follow scripts; the clock starts at zero and is moved by recorded
sleeps alone, so every time is a function of the script. Everything that was asked for is kept in
the order in which it was asked.
-/

namespace ClusterReadiness

/-- A client of a cluster that follows a script. A topic without a delivery of its own is created. -/
structure ScriptedClient where
  create : List (Outcome Unit)
  list : List (Outcome Listing)
  deliveries : List (String × Delivery)
  createCalls : Nat
  listCalls : Nat
  batches : List (List NewTopic)
  timeouts : List (List Number)

namespace ScriptedClient

def start (create : List (Outcome Unit)) (list : List (Outcome Listing))
    (deliveries : List (String × Delivery)) : ScriptedClient :=
  ⟨create, list, deliveries, 0, 0, [], []⟩

def delivery (client : ScriptedClient) (name : String) : Delivery :=
  (client.deliveries.lookup name).getD .created

/-- One delivery for each name, in the order in which the names first appear. -/
def answer (client : ScriptedClient) (topics : List NewTopic) : List (String × Delivery) :=
  (topics.foldl (fun names topic => if names.contains topic.name then names
    else names ++ [topic.name]) []).map fun name => (name, client.delivery name)

end ScriptedClient

inductive RehearsedSleeper where
  | recording (interrupted : Bool) (script : List (Outcome Unit))
  | real (sleeper : InterruptibleSleeper)

inductive RehearsedBroker where
  | memory (broker : InMemoryBroker)
  | scripted (create : List (Outcome Unit)) (list : List (Outcome Listing))
  | cluster (timeout : Number)

inductive RehearsedRegistry where
  | memory (registry : InMemoryRegistry)
  | scripted (probe : List (Outcome Bool))
  | http (registry : HttpRegistry)

structure PortCalls where
  create : Nat
  list : Nat
  probe : Nat
deriving DecidableEq, Repr

structure Surroundings where
  milliseconds : Float
  log : Log
  signals : SignalTable
  sleeper : RehearsedSleeper
  sleeps : List Number
  broker : RehearsedBroker
  client : ScriptedClient
  registry : RehearsedRegistry
  responses : List (Outcome Int)
  requests : List String
  calls : PortCalls

abbrev Rehearsed := StateM Surroundings

namespace Surroundings

/-- Nothing scripted: every call succeeds, no topic is listed, the registry is healthy. -/
def quiet : Surroundings where
  milliseconds := 0.0
  log := .keepingAll
  signals := .inherited
  sleeper := .recording false []
  sleeps := []
  broker := .scripted [] []
  client := .start [] [] []
  registry := .scripted []
  responses := []
  requests := []
  calls := ⟨0, 0, 0⟩

def isInterrupted (surroundings : Surroundings) : Bool :=
  match surroundings.sleeper with
  | .recording interrupted _ => interrupted
  | .real sleeper => sleeper.interrupted

end Surroundings

namespace Rehearsed

variable {α : Type}

def record (level : Level) (message : String) : Rehearsed Unit :=
  modify fun s => { s with log := s.log.record level message }

def interruptSleeper : Rehearsed Unit := do
  match (← get).sleeper with
  | .recording _ script => modify fun s => { s with sleeper := .recording true script }
  | .real sleeper =>
    record .debug InterruptibleSleeper.interruptText
    modify fun s => { s with sleeper := .real sleeper.interrupt }

/-- A handler that interrupts does so to the one sleeper that is rehearsed, whichever sleeper it
names. An interrupt signal that nobody handles is the user's interrupt. What a termination signal
that nobody handles does is not rehearsed. -/
def deliver (signal : Signal) : Rehearsed (Result Unit) := do
  match (← get).signals.handler signal, signal with
  | .interrupts _, _ =>
    record .info signal.receivedText
    interruptSleeper
    return .ok ()
  | .inherited _, .interrupt => return .error (.of (.userInterrupt ""))
  | .inherited _, .terminate => return .ok ()

def perform (outcome : Outcome α) : Rehearsed (Result α) := do
  if outcome.interrupts then interruptSleeper
  match outcome.signal with
  | none => return outcome.result
  | some signal =>
    match ← deliver signal with
    | .error failure => return .error failure
    | .ok () => return outcome.result

/-- Takes the next outcome of a script, or answers what no script says. -/
def follow (script : List (Outcome α)) (advance : List (Outcome α) → Surroundings → Surroundings)
    (unscripted : α) : Rehearsed (Result α) := do
  match Outcome.next? script with
  | none => return .ok unscripted
  | some (outcome, rest) =>
    modify (advance rest)
    perform outcome

section Sleeping

/-- A sleep that was not cut short moves the clock. -/
def passTime (delay : Number) : Rehearsed (Result Unit) := do
  match delay.toFloat with
  | .error reason => return .error (.of (.overflow reason))
  | .ok x =>
    modify fun s => { s with milliseconds := s.milliseconds + x }
    return .ok ()

def sleep (delay : Number) : Rehearsed (Result Unit) := do
  match (← get).sleeper with
  | .real sleeper => return sleeper.sleep delay
  | .recording interrupted script =>
    modify fun s =>
      { s with sleeps := s.sleeps ++ [delay], sleeper := .recording interrupted script.tail }
    match script.head? with
    | none => passTime delay
    | some outcome =>
      match ← perform outcome with
      | .error failure => return .error failure
      | .ok () => passTime delay

end Sleeping

section Ports

def clientCreate (topics : List NewTopic) (operation request : Number) :
    Rehearsed (Result (List (String × Delivery))) := do
  modify fun s => { s with client := { s.client with
    createCalls := s.client.createCalls + 1
    batches := s.client.batches ++ [topics]
    timeouts := s.client.timeouts ++ [[operation, request]] } }
  let accepted ← follow (← get).client.create
    (fun rest s => { s with client := { s.client with create := rest } }) ()
  let client := (← get).client
  return accepted.map fun () => client.answer topics

def clientList (timeout : Number) : Rehearsed (Result Listing) := do
  modify fun s => { s with client := { s.client with
    listCalls := s.client.listCalls + 1
    timeouts := s.client.timeouts ++ [[timeout]] } }
  follow (← get).client.list
    (fun rest s => { s with client := { s.client with list := rest } }) []

def client : ClusterClient Rehearsed := ⟨clientCreate, clientList⟩

def createTopics (specs : List TopicSpec) : Rehearsed (Result Unit) := do
  modify fun s => { s with calls := { s.calls with create := s.calls.create + 1 } }
  match (← get).broker with
  | .memory broker =>
    let (broker, lines) := broker.createTopics specs
    modify fun s => { s with broker := .memory broker }
    lines.forM (record .debug)
    return .ok ()
  | .scripted create list =>
    follow create (fun rest s => { s with broker := .scripted rest list }) ()
  | .cluster timeout => ClusterBroker.createTopics client record timeout specs

def listTopics : Rehearsed (Result Listing) := do
  modify fun s => { s with calls := { s.calls with list := s.calls.list + 1 } }
  match (← get).broker with
  | .memory broker =>
    let (broker, listing) := broker.listTopics
    modify fun s => { s with broker := .memory broker }
    return .ok listing
  | .scripted create list =>
    follow list (fun rest s => { s with broker := .scripted create rest }) []
  | .cluster timeout => ClusterBroker.listTopics client timeout

/-- Answers a request to an address. -/
def send (address : String) : Rehearsed (Result Int) := do
  modify fun s => { s with requests := s.requests ++ ["GET " ++ address] }
  follow (← get).responses (fun rest s => { s with responses := rest }) 200

def probe : Rehearsed (Result Bool) := do
  modify fun s => { s with calls := { s.calls with probe := s.calls.probe + 1 } }
  match (← get).registry with
  | .memory registry =>
    let (registry, healthy) := registry.probe
    modify fun s => { s with registry := .memory registry }
    return .ok healthy
  | .scripted script =>
    follow script (fun rest s => { s with registry := .scripted rest }) true
  | .http registry => registry.probe send record

def closeRegistry : Rehearsed Unit := do
  match (← get).registry with
  | .http registry => modify fun s => { s with registry := .http registry.close }
  | _ => return ()

end Ports

end Rehearsed

/-- What a run calls: the broker and the registry. -/
structure Ports where
  createTopics : List TopicSpec → Rehearsed (Result Unit)
  listTopics : Rehearsed (Result Listing)
  probe : Rehearsed (Result Bool)

namespace Rehearsed

/-- The ports that are kept in memory or follow scripts. -/
def ports : Ports := ⟨createTopics, listTopics, probe⟩

end Rehearsed

end ClusterReadiness
