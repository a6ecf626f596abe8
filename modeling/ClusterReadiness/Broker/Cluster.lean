import ClusterReadiness.Backoff.Retry
import ClusterReadiness.Topic

/-!
A broker behind the administration client of a real cluster. The client takes a whole batch and
answers with one delivery per topic, which are waited for one after the other; a topic that is
already there counts as created. What the client raises, and the first delivery that fails, become
failed admin calls; anything the client does not announce goes through as it is.
-/

namespace ClusterReadiness

/-- A topic as the client wants it. -/
structure NewTopic where
  name : String
  partitions : Int
  replication : Int
deriving DecidableEq

namespace NewTopic

/-- A count must fit a signed 32-bit integer. -/
def count (n : Int) : Result Int :=
  if n < 2147483648 then .ok n
  else if n < 9223372036854775808 then .error (.of (.overflow .countTooLarge))
  else .error (.of (.overflow .countTooWide))

/-- A name with a null character cannot be handed on; names come before counts. -/
def ofSpec (spec : TopicSpec) : Result NewTopic := do
  if spec.name.toList.contains '\x00' then
    throw (.of (.invalidValue "embedded null character"))
  return ⟨spec.name, ← count spec.partitions, ← count spec.replication⟩

end NewTopic

/-- What became of one topic of a batch. -/
inductive Delivery where
  | created
  | failed (failure : Failure)
  | pending
deriving DecidableEq

/-- The administration client; timeouts are in seconds. -/
structure ClusterClient (m : Type → Type) where
  createTopics : List NewTopic → (operation request : Number) →
    m (Result (List (String × Delivery)))
  listTopics : (timeout : Number) → m (Result Listing)

namespace ClusterBroker

def createOperation : String := "create_topics"

def listOperation : String := "list_topics"

/-- A failure of the batch as a whole that the client announces. -/
def announcesCreate : Fault → Bool
  | .broker _ | .invalidValue _ | .undecodable _ => true
  | _ => false

def announcesList : Fault → Bool
  | .broker _ => true
  | _ => false

def isAlreadyThere : Fault → Bool
  | .broker (.coded code _) => code == BrokerError.topicAlreadyExists
  | _ => false

/-- What waiting for one delivery comes to: how it is logged, or the failure it is reported as. A
delivery that stays pending runs into the timeout. -/
def settle (name : String) : Delivery → Result String
  | .created => .ok ("topic " ++ name ++ " created")
  | .pending =>
    .error (.because (.adminCall createOperation ("topic " ++ name ++ ": timed out"))
      (.of (.timeout "")))
  | .failed failure =>
    match failure.fault with
    | .broker _ =>
      if isAlreadyThere failure.fault then .ok ("topic " ++ name ++ " already exists")
      else
        .error (.because (.adminCall createOperation ("topic " ++ name ++ ": " ++ failure.message))
          failure)
    | .timeout _ =>
      .error (.because (.adminCall createOperation ("topic " ++ name ++ ": timed out")) failure)
    | _ => .error failure

section Calls

variable {m : Type → Type} [Monad m]

def settleAll (record : Level → String → m Unit) : List (String × Delivery) → m (Result Unit)
  | [] => return .ok ()
  | (name, delivery) :: rest => do
    match settle name delivery with
    | .error failure => return .error failure
    | .ok line =>
      record .info line
      settleAll record rest

def createTopics (client : ClusterClient m) (record : Level → String → m Unit) (timeout : Number)
    (specs : List TopicSpec) : m (Result Unit) := do
  match specs.mapM NewTopic.ofSpec with
  | .error failure => return .error failure
  | .ok topics =>
    match ← client.createTopics topics timeout timeout with
    | .ok deliveries => settleAll record deliveries
    | .error failure =>
      if announcesCreate failure.fault then
        return .error (.because (.adminCall createOperation failure.message) failure)
      else return .error failure

def listTopics (client : ClusterClient m) (timeout : Number) : m (Result Listing) := do
  match ← client.listTopics timeout with
  | .ok listing => return .ok listing
  | .error failure =>
    if announcesList failure.fault then
      return .error (.because (.adminCall listOperation failure.message) failure)
    else return .error failure

end Calls

/-- Client settings, in which the servers always win over a setting of the same key. -/
def clientSettings (bootstrapServers : String) (settings : List (String × String)) :
    List (String × String) :=
  settings.filter (·.1 ≠ "bootstrap.servers") ++ [("bootstrap.servers", bootstrapServers)]

end ClusterBroker

end ClusterReadiness
