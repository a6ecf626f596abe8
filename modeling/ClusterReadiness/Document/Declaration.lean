import ClusterReadiness.Config.Basic
import ClusterReadiness.Document.Reader
import ClusterReadiness.Rule
import ClusterReadiness.Text.Order

/-!
Declarations as documents: for each declared type the names of its fields, how it is read from a
document and how it is written to one. Fields are written in the order in which they are declared.
Reading goes through the constructor that checks the declaration, so whatever is read is valid.
-/

namespace ClusterReadiness

namespace TopicSpec

structure Draft where
  name : Option String
  partitions : Int
  replication : Int

def Draft.blank : Draft := ⟨none, 1, 1⟩

def fields : List (Reader.Field Draft) := [
  Reader.field "name" Reader.text fun d v => { d with name := some v },
  Reader.field "partition_count" Reader.int fun d v => { d with partitions := v },
  Reader.field "replication_factor" Reader.int fun d v => { d with replication := v }]

def reader : Reader TopicSpec :=
  Reader.declaration fields Draft.blank fun d => do
    let name ← Reader.required "name" d.name
    Reader.checked (make name d.partitions d.replication)

def write (spec : TopicSpec) : Document := .object [
  ("name", .text spec.name), ("partition_count", .int spec.partitions),
  ("replication_factor", .int spec.replication)]

end TopicSpec

namespace RetryPolicy

structure Draft where
  initialInterval : Int
  maxInterval : Int
  multiplier : Float
  maxAttempts : Int

def draft (policy : RetryPolicy) : Draft :=
  ⟨policy.initialInterval, policy.maxInterval, policy.multiplier, policy.maxAttempts⟩

def fields : List (Reader.Field Draft) := [
  Reader.field "initial_interval_ms" Reader.int fun d v => { d with initialInterval := v },
  Reader.field "max_interval_ms" Reader.int fun d v => { d with maxInterval := v },
  Reader.field "multiplier" Reader.float fun d v => { d with multiplier := v },
  Reader.field "max_attempts" Reader.int fun d v => { d with maxAttempts := v }]

def reader : Reader RetryPolicy :=
  Reader.declaration fields default.draft fun d =>
    Reader.checked (make d.initialInterval d.maxInterval d.multiplier d.maxAttempts)

def write (policy : RetryPolicy) : Document := .object [
  ("initial_interval_ms", .int policy.initialInterval),
  ("max_interval_ms", .int policy.maxInterval), ("multiplier", .float policy.multiplier),
  ("max_attempts", .int policy.maxAttempts)]

end RetryPolicy

namespace WaitPolicy

structure Draft where
  interval : Int
  multiplier : Float
  maxAttempts : Int

def draft (policy : WaitPolicy) : Draft :=
  ⟨policy.interval, policy.multiplier, policy.maxAttempts⟩

def fields : List (Reader.Field Draft) := [
  Reader.field "sleep_ms" Reader.int fun d v => { d with interval := v },
  Reader.field "multiplier" Reader.float fun d v => { d with multiplier := v },
  Reader.field "max_attempts" Reader.int fun d v => { d with maxAttempts := v }]

def reader : Reader WaitPolicy :=
  Reader.declaration fields default.draft fun d =>
    Reader.checked (make d.interval d.multiplier d.maxAttempts)

def write (policy : WaitPolicy) : Document := .object [
  ("sleep_ms", .int policy.interval), ("multiplier", .float policy.multiplier),
  ("max_attempts", .int policy.maxAttempts)]

end WaitPolicy

namespace PollState

structure Draft where
  interval : Option Float
  attempt : Int

def fields : List (Reader.Field Draft) := [
  Reader.field "current_sleep_ms" Reader.float fun d v => { d with interval := some v },
  Reader.field "attempt" Reader.int fun d v => { d with attempt := v }]

def reader : Reader PollState :=
  Reader.declaration fields ⟨none, 1⟩ fun d => do
    let interval ← Reader.required "current_sleep_ms" d.interval
    return ⟨.float interval, d.attempt⟩

def write (poll : PollState) : Document := .object [
  ("current_sleep_ms", .number poll.interval), ("attempt", .int poll.attempt)]

end PollState

namespace Rule

def unrestricted : Rule := ⟨none, none, none⟩

def fields : List (Reader.Field Rule) := [
  Reader.field "event_types" (Reader.choice EventType.ofText?).list.orNull
    fun d v => { d with eventTypes := v },
  Reader.field "phases" (Reader.choice Phase.ofText?).list.orNull fun d v => { d with phases := v },
  Reader.field "topics" Reader.text.list.orNull fun d v => { d with topics := v }]

def reader : Reader Rule := Reader.declaration fields unrestricted .ok

/-- A criterion is a set, written in the order of its texts. -/
def writeSet (values : List String) : Document := .texts (Text.sortedSet values)

def write (rule : Rule) : Document := .object [
  ("event_types", .orNull (fun types => writeSet (types.map EventType.text)) rule.eventTypes),
  ("phases", .orNull (fun phases => writeSet (phases.map Phase.text)) rule.phases),
  ("topics", .orNull writeSet rule.topics)]

end Rule

namespace Config

/-- A configuration as far as it is read, and its timeout, which is not checked yet. -/
structure Draft where
  config : Config
  requestTimeout : Float

def change {α : Type} (set : Config → α → Config) (draft : Draft) (value : α) : Draft :=
  { draft with config := set draft.config value }

def fields : List (Reader.Field Draft) := [
  Reader.field "bootstrap_servers" Reader.text
    (change fun c v => { c with bootstrapServers := v }),
  Reader.field "schema_registry_url" Reader.text (change fun c v => { c with registryUrl := v }),
  Reader.field "schema_registry_health_path" Reader.text
    (change fun c v => { c with healthPath := v }),
  Reader.field "request_timeout_s" Reader.float fun d v => { d with requestTimeout := v },
  Reader.field "log_level" Reader.text (change fun c v => { c with logLevel := v }),
  Reader.field "topics" TopicSpec.reader.list (change fun c v => { c with topics := v }),
  Reader.field "topic_names" Reader.text.list (change fun c v => { c with topicNames := v }),
  Reader.field "num_of_partitions" Reader.int (change fun c v => { c with partitions := v }),
  Reader.field "replication_factor" Reader.int (change fun c v => { c with replication := v }),
  Reader.field "retry" RetryPolicy.reader (change fun c v => { c with retry := v }),
  Reader.field "wait" WaitPolicy.reader.orNull (change fun c v => { c with wait := v }),
  Reader.field "admin_config" Reader.text.dictionary
    (change fun c v => { c with adminSettings := v })]

def reader : Reader Config :=
  Reader.declaration fields ⟨default, default.requestTimeout⟩ fun d =>
    Reader.checked (d.config.withTimeout d.requestTimeout)

def writeSettings (settings : List (String × String)) : Document :=
  .object (settings.map fun setting => (setting.1, .text setting.2))

def write (config : Config) : Document := .object [
  ("bootstrap_servers", .text config.bootstrapServers),
  ("schema_registry_url", .text config.registryUrl),
  ("schema_registry_health_path", .text config.healthPath),
  ("request_timeout_s", .float config.requestTimeout), ("log_level", .text config.logLevel),
  ("topics", .array (config.topics.map TopicSpec.write)),
  ("topic_names", .texts config.topicNames), ("num_of_partitions", .int config.partitions),
  ("replication_factor", .int config.replication), ("retry", config.retry.write),
  ("wait", .orNull WaitPolicy.write config.wait),
  ("admin_config", writeSettings config.adminSettings)]

end Config

end ClusterReadiness
