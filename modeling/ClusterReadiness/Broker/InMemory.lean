import ClusterReadiness.Backoff.Retry
import ClusterReadiness.Topic

/-!
A broker kept in memory, with eventual consistency: a topic created while the visibility delay is
positive stays out of that many listings before it shows up. The first creation of a name fixes its
declaration and its countdown; later ones change neither.
-/

namespace ClusterReadiness

/-- A created topic that listings do not show yet, for `remaining` more of them. -/
structure PendingTopic where
  spec : TopicSpec
  remaining : Int
deriving DecidableEq

structure InMemoryBroker where
  topics : List TopicSpec
  pending : List PendingTopic
  visibilityDelay : Int
  createCalls : Nat
  listCalls : Nat
deriving DecidableEq

namespace InMemoryBroker

/-- Topics that are there from the start have one partition and one replica. -/
def existingTopics : List String → Except Defect (List TopicSpec)
  | [] => .ok []
  | name :: rest => do
    let spec ← TopicSpec.make name 1 1
    let specs ← existingTopics rest
    return spec :: specs

def start (existing : List String) (visibilityDelay : Int) : Except Defect InMemoryBroker := do
  return ⟨← existingTopics existing, [], visibilityDelay, 0, 0⟩

def isVisible (broker : InMemoryBroker) (name : String) : Bool :=
  broker.topics.any (·.name == name)

def isPending (broker : InMemoryBroker) (name : String) : Bool :=
  broker.pending.any (·.spec.name == name)

/-- One creation, with what is logged about it. -/
def createOne (broker : InMemoryBroker) (spec : TopicSpec) : InMemoryBroker × String :=
  if broker.isVisible spec.name || broker.isPending spec.name then
    (broker, "topic " ++ spec.name ++ " already exists")
  else if 0 < broker.visibilityDelay then
    ({ broker with pending := broker.pending ++ [⟨spec, broker.visibilityDelay⟩] },
      "topic " ++ spec.name ++ " created")
  else
    ({ broker with topics := broker.topics ++ [spec] }, "topic " ++ spec.name ++ " created")

def createAll (broker : InMemoryBroker) : List TopicSpec → InMemoryBroker × List String
  | [] => (broker, [])
  | spec :: rest =>
    let (broker, line) := broker.createOne spec
    let (broker, lines) := broker.createAll rest
    (broker, line :: lines)

def createTopics (broker : InMemoryBroker) (specs : List TopicSpec) :
    InMemoryBroker × List String :=
  { broker with createCalls := broker.createCalls + 1 }.createAll specs

/-- The names visible now. Answering brings every pending topic one listing closer. -/
def listTopics (broker : InMemoryBroker) : InMemoryBroker × Listing :=
  let (due, waiting) := broker.pending.partition (·.remaining ≤ 1)
  ({ broker with
      topics := broker.topics ++ due.map (·.spec)
      pending := waiting.map fun p => { p with remaining := p.remaining - 1 }
      listCalls := broker.listCalls + 1 },
    broker.topics.map (·.name))

def describeTopic (broker : InMemoryBroker) (name : String) : Option TopicSpec :=
  match broker.topics.find? (·.name == name) with
  | some spec => some spec
  | none => (broker.pending.find? (·.spec.name == name)).map (·.spec)

end InMemoryBroker

end ClusterReadiness
