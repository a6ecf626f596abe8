import ClusterReadiness.Defect
import ClusterReadiness.Text.Blank

/-!
Declared topics. A declaration carries the proof that its name is not blank and that both counts are
positive, so whoever holds one need not check again. Nothing is said about what a broker allows.
-/

namespace ClusterReadiness

@[ext]
structure TopicSpec where
  name : String
  partitions : Int
  replication : Int
  named : ¬ Text.AllBlank name
  partitions_pos : 1 ≤ partitions
  replication_pos : 1 ≤ replication

namespace TopicSpec

instance : DecidableEq TopicSpec :=
  fun _ _ => decidable_of_decidable_of_iff TopicSpec.ext_iff.symm

def make (name : String) (partitions replication : Int) : Except Defect TopicSpec :=
  if named : Text.AllBlank name then .error .blankTopicName
  else if hp : 1 ≤ partitions then
    if hr : 1 ≤ replication then .ok ⟨name, partitions, replication, named, hp, hr⟩
    else .error (.replicationFactor (.int replication))
  else .error (.partitionCount (.int partitions))

end TopicSpec

/-- The names a broker reports. -/
abbrev Listing := List String

end ClusterReadiness
