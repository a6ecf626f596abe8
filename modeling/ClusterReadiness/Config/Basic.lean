import ClusterReadiness.Backoff.Wait
import ClusterReadiness.Topic

/-!
What a bootstrap run is configured with. Topics are declared one by one, or by name alone with counts
that all such names share; `topicSpecs` merges both, the first declaration of a name winning. The
shared counts are checked only there, and only if some name needs them.
-/

namespace ClusterReadiness

structure Config where
  bootstrapServers : String
  registryUrl : String
  healthPath : String
  requestTimeout : Float
  logLevel : String
  topics : List TopicSpec
  topicNames : List String
  partitions : Int
  replication : Int
  retry : RetryPolicy
  wait : Option WaitPolicy
  adminSettings : List (String × String)
  timeout_pos : ¬ requestTimeout ≤ 0.0
deriving DecidableEq

namespace Config

def default : Config where
  bootstrapServers := "localhost:9092"
  registryUrl := "http://localhost:8081"
  healthPath := "/"
  requestTimeout := 10.0
  logLevel := "INFO"
  topics := []
  topicNames := []
  partitions := 3
  replication := 1
  retry := .default
  wait := none
  adminSettings := []
  timeout_pos := by decide

def withTimeout (config : Config) (requestTimeout : Float) : Except Defect Config :=
  if h : requestTimeout ≤ 0.0 then .error (.requestTimeout (.float requestTimeout))
  else .ok { config with requestTimeout, timeout_pos := h }

/-- Adds a declaration unless its name is declared already. -/
def merge (specs : List TopicSpec) (spec : TopicSpec) : List TopicSpec :=
  if specs.any (·.name == spec.name) then specs else specs ++ [spec]

/-- The names declared without counts of their own; blank ones are passed over. -/
def sharedNames (config : Config) : List String :=
  (config.topicNames.map Text.trim).filter (· ≠ "")

/-- Every declared topic once. Shared counts are checked also for a name declared before. -/
def topicSpecs (config : Config) : Except Defect (List TopicSpec) := do
  let shared ← config.sharedNames.mapM fun name =>
    TopicSpec.make name config.partitions config.replication
  return (config.topics ++ shared).foldl merge []

def waitPolicy (config : Config) : WaitPolicy := config.wait.getD (.ofRetry config.retry)

end Config

end ClusterReadiness
