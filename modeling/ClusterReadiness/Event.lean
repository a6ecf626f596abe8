import ClusterReadiness.Fault

/-!
What a bootstrap run announces. An event is a happening with the time it was announced at and the
type it is filed under, normally the happening's own. A foreign happening is none of the run's: an
object of some other kind, which belongs to no phase but may be about a topic.
-/

namespace ClusterReadiness

inductive Phase where
  | idle
  | creatingTopics
  | verifyingTopics
  | verifyingRegistry
  | ready
  | failed
deriving DecidableEq, Repr

namespace Phase

def text : Phase → String
  | idle => "idle"
  | creatingTopics => "creating_topics"
  | verifyingTopics => "verifying_topics"
  | verifyingRegistry => "verifying_registry"
  | ready => "ready"
  | failed => "failed"

def all : List Phase := [idle, creatingTopics, verifyingTopics, verifyingRegistry, ready, failed]

def ofText? (s : String) : Option Phase := all.find? (·.text == s)

end Phase

inductive EventType where
  | unknown
  | stateChanged
  | topicsCreated
  | topicVisible
  | waitRetry
  | ready
  | failed
deriving DecidableEq, Repr

namespace EventType

def text : EventType → String
  | unknown => "unknown"
  | stateChanged => "reconcile.state_changed"
  | topicsCreated => "topics.created"
  | topicVisible => "topic.visible"
  | waitRetry => "wait.retry"
  | ready => "reconcile.ready"
  | failed => "reconcile.failed"

def all : List EventType :=
  [unknown, stateChanged, topicsCreated, topicVisible, waitRetry, ready, failed]

def ofText? (s : String) : Option EventType := all.find? (·.text == s)

end EventType

/-- What is known of an object that is no announcement of a run. -/
structure ForeignObject where
  kind : String
  topic : Option String
deriving DecidableEq

inductive Happening where
  | stateChanged (previous current : Phase)
  | topicsCreated (topics : List String)
  | topicVisible (topic : String) (attempt : Int)
  | waitRetry (phase : Phase) (attempt : Int) (delay : Number) (topic : Option String)
  | ready (topics : List String) (duration : Float)
  | failed (phase : Phase) (errorName message : String)
  | foreign (object : ForeignObject)
deriving DecidableEq

namespace Happening

def ownType : Happening → EventType
  | stateChanged .. => .stateChanged
  | topicsCreated _ => .topicsCreated
  | topicVisible .. => .topicVisible
  | waitRetry .. => .waitRetry
  | ready .. => .ready
  | failed .. => .failed
  | foreign _ => .unknown

/-- The phase of the run that a happening belongs to. A change of state belongs to the phase it
leads to. -/
def phase : Happening → Result Phase
  | stateChanged _ current => .ok current
  | topicsCreated _ => .ok .creatingTopics
  | topicVisible .. => .ok .verifyingTopics
  | waitRetry phase .. => .ok phase
  | ready .. => .ok .ready
  | failed phase .. => .ok phase
  | foreign object => .error (.of (.wrongType ("unknown event " ++ object.kind ++ "()")))

/-- The one topic a happening is about, if it is about one. -/
def topic? : Happening → Option String
  | topicVisible topic _ => some topic
  | waitRetry _ _ _ topic => topic
  | foreign object => object.topic
  | _ => none

/-- No other announcement of a run follows one of these. -/
def IsTerminal : Happening → Prop
  | ready .. | failed .. => True
  | _ => False

end Happening

structure Event where
  happening : Happening
  timestamp : Float
  type : EventType
deriving DecidableEq

namespace Event

/-- A happening announced at the given time, filed under its own type. -/
def announced (happening : Happening) (timestamp : Float) : Event :=
  ⟨happening, timestamp, happening.ownType⟩

def phase (event : Event) : Result Phase := event.happening.phase

def topic? (event : Event) : Option String := event.happening.topic?

end Event

end ClusterReadiness
