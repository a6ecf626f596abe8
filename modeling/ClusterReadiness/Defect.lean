import ClusterReadiness.Number.Text
import ClusterReadiness.Fault

/-!
Why a declaration is refused by its own check: one cause for each rule, with the values that broke
it.
-/

namespace ClusterReadiness

inductive Defect where
  | blankTopicName
  | partitionCount (count : Number)
  | replicationFactor (count : Number)
  | retryIntervals
  | initialAboveMaximum (initial maximum : Number)
  | waitInterval (interval : Number)
  | multiplier (value : Number)
  | maxAttempts (count : Number)
  | requestTimeout (seconds : Number)
deriving DecidableEq

namespace Defect

def message : Defect → String
  | blankTopicName => "topic name must not be empty"
  | partitionCount n => "partition_count must be positive, got " ++ n.text
  | replicationFactor n => "replication_factor must be positive, got " ++ n.text
  | retryIntervals => "retry intervals must be positive"
  | initialAboveMaximum initial maximum =>
    "initial_interval_ms (" ++ initial.text ++ ") exceeds max_interval_ms (" ++
      maximum.text ++ ")"
  | waitInterval n => "sleep_ms must be positive, got " ++ n.text
  | multiplier x => "multiplier must be >= 1, got " ++ x.text
  | maxAttempts n => "max_attempts must be positive, got " ++ n.text
  | requestTimeout x => "request_timeout_s must be positive, got " ++ x.text

def fault (defect : Defect) : Fault := .invalidValue defect.message

end Defect

end ClusterReadiness
