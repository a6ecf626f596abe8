import ClusterReadiness.Broker.Cluster
import ClusterReadiness.Config.Basic
import ClusterReadiness.Reconciler
import ClusterReadiness.Registry.Http

/-!
What a configuration is put together to: settings for the cluster's client, a registry client, and a
reconciler over the declared topics. The parts are made in this order, and one that cannot be made
leaves those before it behind.
-/

namespace ClusterReadiness

structure Assembly where
  settings : List (String × String)
  requestTimeout : Number
  registry : HttpRegistry
  reconciler : Reconciler
deriving DecidableEq

namespace Config

def clientSettings (config : Config) : List (String × String) :=
  ClusterBroker.clientSettings config.bootstrapServers config.adminSettings

def timeout (config : Config) : Number := .float config.requestTimeout

def connectRegistry (config : Config) : Result HttpRegistry :=
  HttpRegistry.connect config.registryUrl config.healthPath config.timeout

def reconciler (config : Config) : Result Reconciler :=
  match config.topicSpecs with
  | .ok topics => .ok ⟨topics, config.retry, config.waitPolicy⟩
  | .error defect => .error (.of defect.fault)

end Config

namespace Assembly

def ofConfig (config : Config) : Result Assembly := do
  let registry ← config.connectRegistry
  let reconciler ← config.reconciler
  return ⟨config.clientSettings, config.timeout, registry, reconciler⟩

end Assembly

end ClusterReadiness
