import ClusterReadiness.Reconciler
import ClusterReadiness.Rehearsal.Surroundings
import ClusterReadiness.Router

/-!
Bootstrap work on stage: the requests of a program are carried out by the rehearsed surroundings,
port calls by whatever ports there are, and what it announces goes to the callbacks of a router. A
callback can do anything an outcome can, and it can call the reconciler again while the run it hears
of is still going on.
-/

namespace ClusterReadiness

/-- Carries out the requests of a run: what it announces goes to the callbacks of a router, all else
is asked of the world outside. -/
def Router.serve {ε : Type} {m : Type → Type} [Monad m] (perform : Phase → ε → m (Result Unit))
    (create : Happening → m Event) (others : (r : Request) → m r.Answer) :
    (r : Request) → StateT (Router ε) m r.Answer
  | .announce phase happening => do
    let event ← liftM (create happening)
    Router.emit (perform phase) (fun level message => others (.record level message)) event
  | r => liftM (others r)

/-- What a callback does to the world outside the router. -/
inductive Effect where
  | outcome (outcome : Outcome Unit)
  | callAgain

abbrev Stage := StateT (Router Effect) Rehearsed

namespace Stage

variable {α : Type}

def seconds : Rehearsed Float := do return (← get).milliseconds / 1000.0

/-- Carries out the requests that no callback hears of. -/
def unheard (ports : Ports) : (r : Request) → Rehearsed r.Answer
  | .createTopics specs => ports.createTopics specs
  | .listTopics => ports.listTopics
  | .probe => ports.probe
  | .sleep delay => Rehearsed.sleep delay
  | .isInterrupted => do return (← get).isInterrupted
  | .clock => seconds
  | .announce _ _ => return .ok ()
  | .record level message => Rehearsed.record level message

/-- A callback only hears of a run that has begun, so calling the reconciler starts none. -/
def performEffect (ports : Ports) (phase : Phase) : Effect → Rehearsed (Result Unit)
  | .outcome outcome => Rehearsed.perform outcome
  | .callAgain =>
    Prod.fst <$> ((Reconciler.callAgain phase).run.run phase).interpret (unheard ports)

def emit (phase : Phase) (event : Event) : Stage (Result Unit) :=
  Router.emit (performEffect Rehearsed.ports phase) Rehearsed.record event

def handleThrough (ports : Ports) : (r : Request) → Stage r.Answer :=
  Router.serve (performEffect ports) (fun happening => do return .announced happening (← seconds))
    (unheard ports)

def handle (r : Request) : Stage r.Answer := handleThrough Rehearsed.ports r

def play (program : Program α) : Stage α := program.interpret handle

/-- Work from the given phase, with the phase it ends in. -/
def workThrough (ports : Ports) (work : Reconciler.Work α) (phase : Phase) :
    Stage (Result α × Phase) :=
  (work.run.run phase).interpret (handleThrough ports)

def work (work : Reconciler.Work α) (phase : Phase) : Stage (Result α × Phase) :=
  workThrough Rehearsed.ports work phase

/-- A verification from the given progress and phase, with the progress and the phase it ends in. -/
def verify (polling : Reconciler.Polling Unit) (poll : PollState) (phase : Phase) :
    Stage ((Result Unit × PollState) × Phase) :=
  play ((Reconciler.polled polling poll).run phase)

end Stage

end ClusterReadiness
