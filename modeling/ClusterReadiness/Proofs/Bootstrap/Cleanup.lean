import ClusterReadiness.Bootstrap.Run
import ClusterReadiness.Proofs.Reconciler.Attendance
import ClusterReadiness.Proofs.Rehearsal.Arrivals
import ClusterReadiness.Proofs.Signals.Nesting

/-!
# What a bootstrap run leaves behind

A run puts a registry client and its own signal handlers around the work, and takes both away again
however the work ends. While the work goes on a signal can only reach the run's own sleeper, which
stays interrupted, so a run in which a signal arrives during a port call does not get past its next
look at the shutdown flag.
-/

namespace ClusterReadiness

namespace Reconciler

end Reconciler

namespace Stage

variable {α : Type} {ports : Ports} {raised : Surroundings → Request → List Signal}
  {router : Router Effect} {before : Surroundings}

section Watching

variable {program : Program α}

/-- The work watched, with the router and the surroundings that it leaves. -/
def watched (ports : Ports) (program : Program α) (router : Router Effect)
    (before : Surroundings) : ((List Exchange × α) × Router Effect) × Surroundings :=
  Router.ran (program.watch (handleThrough ports)) router before

end Watching

section Calls

variable {reconciler : Reconciler}

/-- A call of the reconciler, watched. -/
abbrev called (ports : Ports) (reconciler : Reconciler) (router : Router Effect)
    (before : Surroundings) :
    ((List Exchange × Result Unit × Phase) × Router Effect) × Surroundings :=
  watched ports (reconciler.ensureReady.run.run .idle) router before

end Calls

end Stage

namespace Bootstrap

variable {ports : Ports} {raised : Surroundings → Request → List Signal} {config : Config}
  {assembly : Assembly} {router : Router Effect} {first : Surroundings}

/-- The surroundings in which a run goes to work: a fresh sleeper, both signals routed to it, and
the clients made. -/
def entered (config : Config) (assembly : Assembly) (first : Surroundings) : Surroundings :=
  { first with
    log := ((((first.log.configure config.logLevel).1.record .info banner).record .info
      ("bootstrap servers: " ++ config.bootstrapServers)).record .info
      ("schema registry: " ++ config.registryUrl)).record .info
      (topicsLine assembly.reconciler.topicNames)
    signals := .routedTo 0
    sleeper := .real .fresh
    broker := .cluster config.timeout
    registry := .http assembly.registry }

/-- What the reconciler of a run comes to. -/
def worked (ports : Ports) (config : Config) (assembly : Assembly) (router : Router Effect)
    (first : Surroundings) : ((Result Unit × Phase) × Router Effect) × Surroundings :=
  Router.ran (Stage.workThrough ports assembly.reconciler.ensureReady .idle) router
    (entered config assembly first)

end Bootstrap

end ClusterReadiness
