import ClusterReadiness.Backoff.Wait
import ClusterReadiness.Program
import ClusterReadiness.Text.Order

/-!
Makes sure that the declared topics exist and that the schema registry is up before anything is
produced or consumed: topics are created, then seen in a listing, then the registry is healthy. The
phases run strictly in order. Any failure moves to the failed phase and is raised again, a user
interrupt as an interrupted wait. A single call is retried by the retry policy; waiting for a state
to show up is bounded by one budget per verification, however many topics there are.
-/

namespace ClusterReadiness

structure Reconciler where
  topics : List TopicSpec
  retry : RetryPolicy
  wait : WaitPolicy
deriving DecidableEq

namespace Reconciler

/-- Work that may fail and that knows and moves the reconciler's phase, also when it fails. -/
abbrev Work (α : Type) := ExceptT Failure (StateT Phase Program) α

/-- Work that also advances one poll, whose progress outlives a failure. -/
abbrev Polling (α : Type) := ExceptT Failure (StateT PollState (StateT Phase Program)) α

def topicNames (reconciler : Reconciler) : List String := reconciler.topics.map (·.name)

section Requests

def sleep (delay : Number) : StateT Phase Program (Result Unit) :=
  liftM (Program.request (.sleep delay))

def record (level : Level) (message : String) : StateT Phase Program Unit :=
  liftM (Program.request (.record level message))

def note (level : Level) (message : String) : Work Unit := liftM (record level message)

def announce (happening : Happening) : Work Unit := do
  let phase ← get
  ExceptT.mk (liftM (Program.request (.announce phase happening)))

/-- Enters a phase, unless a shutdown was asked for; failing is always possible. -/
def transition (next : Phase) : Work Unit := do
  if next ≠ .failed then
    if ← (liftM (Program.request .isInterrupted) : Work Bool) then
      throw (.of (.interruptedWait ("shutdown requested before " ++ next.text)))
  let previous ← get
  set next
  note .info ("reconciler state " ++ previous.text ++ " -> " ++ next.text)
  announce (.stateChanged previous next)

/-- Retried by the policy; only exhausted retries are reported as a failure of the phase. -/
def retried {α : Type} (reconciler : Reconciler) (name : String) (giveUp : Fault)
    (call : Program (Result α)) : Work α := do
  match ← liftM (reconciler.retry.execute name sleep record (liftM call)) with
  | .ok value => return value
  | .error failure =>
    match failure.fault with
    | .retryExhausted .. => throw (.because giveUp failure)
    | _ => throw failure

def createTopics (reconciler : Reconciler) : Work Unit := do
  let names := Text.quotedList reconciler.topicNames
  note .info ("creating " ++ toString reconciler.topics.length ++ " topics: " ++ names)
  reconciler.retried "create topics"
    (.topicCreation ("max number of retries reached for creating topics " ++ names))
    (Program.request (.createTopics reconciler.topics))
  note .info ("create topics request accepted for " ++ names)
  announce (.topicsCreated reconciler.topicNames)

def listTopics (reconciler : Reconciler) : Work Listing := do
  let listing ← reconciler.retried "list topics"
    (.topicListing "max number of retries reached for reading topics")
    (Program.request .listTopics)
  let names := Text.sortedSet listing
  note .debug ("broker reports " ++ toString names.length ++ " topics: " ++
    Text.quotedList names)
  return listing

end Requests

section Verification

def ofWork {α : Type} (work : Work α) : Polling α :=
  ExceptT.mk (liftM (work.run : StateT Phase Program (Result α)))

/-- Takes one attempt of the budget; answers whether there was one. -/
def advance (reconciler : Reconciler) : Polling Bool :=
  ExceptT.mk do
    let (result, poll) ← liftM ((← get).advance reconciler.wait sleep record)
    set poll
    return result

def probe : Polling Bool := ExceptT.mk (liftM (Program.request .probe))

/-- Attempts that the budget still allows. -/
def budget (reconciler : Reconciler) (poll : PollState) : Nat :=
  (reconciler.wait.maxAttempts - poll.attempt).toNat

/-- Takes one attempt of the budget, or fails if it is spent; answers the progress before it. -/
def attemptMore (reconciler : Reconciler) (missing : String) (spent : Int → Fault) :
    Polling PollState := do
  let before : PollState ← get
  ofWork (note .warning (missing ++ " yet, attempt " ++ toString before.attempt ++ "/" ++
    toString reconciler.wait.maxAttempts))
  if ← reconciler.advance then return before else throw (.of (spent before.attempt))

/-- Tells that a wait took place, with the delay that was slept. -/
def announceRetry (phase : Phase) (delay : Number) (topic : Option String) : Polling Unit := do
  let poll : PollState ← get
  ofWork (announce (.waitRetry phase poll.attempt delay topic))

/-- Takes listings until the topic is in one, `left` more at most. -/
def awaitTopic (reconciler : Reconciler) (name : String) (left : Nat) (listing : Listing) :
    Polling Listing := do
  if listing.contains name then return listing
  let before ← reconciler.attemptMore ("topic " ++ name ++ " not visible") (.topicNotReady name)
  match left with
  | 0 => throw (.of (.topicNotReady name before.attempt))
  | left + 1 =>
    announceRetry .verifyingTopics before.interval (some name)
    reconciler.awaitTopic name left (← ofWork reconciler.listTopics)

/-- One topic after the other, each starting from the listing that showed the one before. -/
def awaitTopics (reconciler : Reconciler) : List TopicSpec → Listing → Polling Unit
  | [], _ => return ()
  | spec :: rest, listing => do
    let listing ← reconciler.awaitTopic spec.name (reconciler.budget (← get)) listing
    let poll := (← get : PollState)
    ofWork (note .info ("topic " ++ spec.name ++ " visible, attempt " ++ toString poll.attempt))
    ofWork (announce (.topicVisible spec.name poll.attempt))
    reconciler.awaitTopics rest listing

def verifyTopics (reconciler : Reconciler) : Polling Unit := do
  reconciler.awaitTopics reconciler.topics (← ofWork reconciler.listTopics)

/-- Probes until the registry is healthy, `left` more times at most. -/
def awaitRegistry (reconciler : Reconciler) (left : Nat) : Polling Unit := do
  if ← probe then return ()
  let before ← reconciler.attemptMore "schema registry not healthy" .registryNotReady
  match left with
  | 0 => throw (.of (.registryNotReady before.attempt))
  | left + 1 =>
    announceRetry .verifyingRegistry before.interval none
    reconciler.awaitRegistry left

def verifyRegistry (reconciler : Reconciler) : Polling Unit := do
  reconciler.awaitRegistry (reconciler.budget (← get))
  let poll := (← get : PollState)
  ofWork (note .info ("schema registry healthy, attempt " ++ toString poll.attempt))

/-- A verification from a given progress, with the progress it ends with. -/
def polled (polling : Polling Unit) (poll : PollState) :
    StateT Phase Program (Result Unit × PollState) :=
  polling.run.run poll

/-- A verification of its own, within a run. -/
def fresh (reconciler : Reconciler) (polling : Polling Unit) : Work Unit :=
  ExceptT.mk do
    let (result, _) ← polled polling (.start reconciler.wait)
    return result

end Verification

section Run

def workPhases (reconciler : Reconciler) : Work Unit := do
  if reconciler.topics.isEmpty then
    note .info "no topics declared, skipping topic creation"
  else
    transition .creatingTopics
    reconciler.createTopics
    transition .verifyingTopics
    reconciler.fresh reconciler.verifyTopics
  transition .verifyingRegistry
  reconciler.fresh reconciler.verifyRegistry
  transition .ready

/-- Moves to the failed phase and announces the failure under the phase it arose in. -/
def fail (failure : Failure) : Work Unit := do
  let phase ← get
  note .error ("reconciliation failed while " ++ phase.text ++ ": " ++ failure.message)
  transition .failed
  announce (.failed phase failure.name failure.message)

/-- What a failure of the run is raised as. -/
def raisedAs (phase : Phase) (failure : Failure) : Failure :=
  if failure.isUserInterrupt then
    .because (.interruptedWait ("interrupted while " ++ phase.text)) failure
  else failure

def clock : Work Float := liftM (Program.request .clock)

/-- A run from the start. -/
def bootstrap (reconciler : Reconciler) : Work Unit := do
  let started ← clock
  match ← (liftM reconciler.workPhases.run : Work (Result Unit)) with
  | .error failure =>
    let failure := raisedAs (← get) failure
    fail failure
    throw failure
  | .ok () =>
    let duration := (← clock) - started
    note .info ("topics " ++ Text.quotedList reconciler.topicNames ++ " ready after " ++
      Number.thousandths duration ++ "s ...")
    announce (.ready reconciler.topicNames duration)

def alreadyReadyText : String := "reconciler already ready, nothing to do"

def cannotRunFrom (phase : Phase) : Failure :=
  .of (.runtime ("reconciler cannot run from state " ++ phase.text))

/-- What a call comes to once a run was started: a run is never repeated. -/
def callAgain (phase : Phase) : Work Unit :=
  if phase = .ready then note .info alreadyReadyText else throw (cannotRunFrom phase)

def ensureReady (reconciler : Reconciler) : Work Unit := do
  let phase ← get
  if phase = .idle then reconciler.bootstrap else callAgain phase

end Run

end Reconciler

end ClusterReadiness
