import ClusterReadiness.Backoff.Retry
import ClusterReadiness.Registry.Url

/-!
A schema registry behind HTTP. Anything but an answer from 200 to 299, failures of the transport
included, counts as unhealthy; a failure that is none of the transport's goes through. A closed
client sends nothing any more.
-/

namespace ClusterReadiness

structure HttpRegistry where
  baseUrl : String
  base : Url
  healthPath : String
  timeout : Number
  closed : Bool
deriving DecidableEq

namespace HttpRegistry

def invalidUrl (message : String) : Failure := .of (.transport .invalidUrl message)

/-- Opens a client; the base address has to be an address. -/
def connect (baseUrl healthPath : String) (timeout : Number) : Result HttpRegistry :=
  match Url.parse baseUrl with
  | .ok base => .ok ⟨baseUrl, base, healthPath, timeout, false⟩
  | .error message => .error (invalidUrl message)

def close (registry : HttpRegistry) : HttpRegistry := { registry with closed := true }

def isSuccess (status : Int) : Bool := decide (200 ≤ status ∧ status ≤ 299)

/-- Failures that count as an unhealthy answer. -/
def isTransport : Fault → Bool
  | .transport .. => true
  | _ => false

def closedClient : Failure :=
  .of (.runtime "Cannot send a request, as the client has been closed.")

section Probe

variable {m : Type → Type} [Monad m]

/-- The status of a request, if one can be sent. -/
def request (registry : HttpRegistry) (send : String → m (Result Int)) : m (Result Int) :=
  match Url.parse registry.healthPath with
  | .error message => return .error (invalidUrl message)
  | .ok path =>
    if registry.closed then return .error closedClient
    else send (registry.base.under path).text

def probe (registry : HttpRegistry) (send : String → m (Result Int))
    (record : Level → String → m Unit) : m (Result Bool) := do
  match ← registry.request send with
  | .ok status =>
    record .debug ("schema registry at " ++ registry.baseUrl ++ " answered " ++ toString status)
    return .ok (isSuccess status)
  | .error failure =>
    if isTransport failure.fault then
      record .debug ("schema registry probe at " ++ registry.baseUrl ++ " failed: " ++
        failure.message)
      return .ok false
    else return .error failure

end Probe

end HttpRegistry

end ClusterReadiness
