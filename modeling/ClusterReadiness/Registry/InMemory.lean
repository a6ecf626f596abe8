/-!
A schema registry kept in memory: healthy while its switch is on, but not before it has been probed
often enough.
-/

namespace ClusterReadiness

structure InMemoryRegistry where
  healthy : Bool
  healthyAfter : Int
  probeCalls : Nat
deriving DecidableEq

namespace InMemoryRegistry

def start (healthy : Bool) (healthyAfter : Int) : InMemoryRegistry := ⟨healthy, healthyAfter, 0⟩

/-- The probe itself counts. -/
def probe (registry : InMemoryRegistry) : InMemoryRegistry × Bool :=
  let calls := registry.probeCalls + 1
  ({ registry with probeCalls := calls },
    registry.healthy && decide (registry.healthyAfter < (calls : Int)))

end InMemoryRegistry

end ClusterReadiness
