import ClusterReadiness.Document.Reader
import ClusterReadiness.Event

/-!
Events as documents. The field `kind` says which happening the other fields describe. An event may
be given without a time, which then is zero, and under another type than its own. An object of a
foreign kind has only its type, and is about no topic.
-/

namespace ClusterReadiness

namespace Event

/-- What the fields of an event say; those that its kind does not have stay open. -/
structure Draft where
  previous : Option Phase
  current : Option Phase
  phase : Option Phase
  topics : Option (List String)
  visible : Option String
  topic : Option String
  attempt : Option Int
  delay : Option Float
  duration : Option Float
  errorName : Option String
  text : Option String
  timestamp : Float
  type : Option EventType

def Draft.blank : Draft :=
  ⟨none, none, none, none, none, none, none, none, none, none, none, 0.0, none⟩

def phaseField (name : String) (set : Draft → Phase → Draft) : Reader.Field Draft :=
  Reader.field name (Reader.choice Phase.ofText?) set

def topicsField : Reader.Field Draft :=
  Reader.field "topics" Reader.text.list fun d v => { d with topics := some v }

def attemptField : Reader.Field Draft :=
  Reader.field "attempt" Reader.int fun d v => { d with attempt := some v }

def commonFields : List (Reader.Field Draft) := [
  Reader.field "timestamp" Reader.float fun d v => { d with timestamp := v },
  Reader.field "event_type" (Reader.choice EventType.ofText?) fun d v => { d with type := some v }]

def kindReader (fields : List (Reader.Field Draft))
    (complete : Draft → Except Mismatch Happening) : Reader Event :=
  Reader.declaration (fields ++ commonFields) Draft.blank fun d => do
    let happening ← complete d
    return ⟨happening, d.timestamp, d.type.getD happening.ownType⟩

def stateChangedReader : Reader Event :=
  kindReader [phaseField "previous" fun d v => { d with previous := some v },
      phaseField "current" fun d v => { d with current := some v }] fun d => do
    return .stateChanged (← Reader.required "previous" d.previous)
      (← Reader.required "current" d.current)

def topicsCreatedReader : Reader Event :=
  kindReader [topicsField] fun d => do
    return .topicsCreated (← Reader.required "topics" d.topics)

def topicVisibleReader : Reader Event :=
  kindReader [Reader.field "topic" Reader.text fun d v => { d with visible := some v },
      attemptField] fun d => do
    return .topicVisible (← Reader.required "topic" d.visible)
      (← Reader.required "attempt" d.attempt)

def waitRetryReader : Reader Event :=
  kindReader [phaseField "phase" fun d v => { d with phase := some v }, attemptField,
      Reader.field "delay_ms" Reader.float fun d v => { d with delay := some v },
      Reader.field "topic" Reader.text.orNull fun d v => { d with topic := v }] fun d => do
    return .waitRetry (← Reader.required "phase" d.phase) (← Reader.required "attempt" d.attempt)
      (.float (← Reader.required "delay_ms" d.delay)) d.topic

def readyReader : Reader Event :=
  kindReader [topicsField,
      Reader.field "duration" Reader.float fun d v => { d with duration := some v }] fun d => do
    return .ready (← Reader.required "topics" d.topics) (← Reader.required "duration" d.duration)

def failedReader : Reader Event :=
  kindReader [phaseField "phase" fun d v => { d with phase := some v },
      Reader.field "error_type" Reader.text fun d v => { d with errorName := some v },
      Reader.field "exception" Reader.text fun d v => { d with text := some v }] fun d => do
    return .failed (← Reader.required "phase" d.phase)
      (← Reader.required "error_type" d.errorName) (← Reader.required "exception" d.text)

def readers : List (String × Reader Event) := [
  ("StateChanged", stateChangedReader), ("TopicsCreated", topicsCreatedReader),
  ("TopicVisible", topicVisibleReader), ("WaitRetry", waitRetryReader),
  ("ReconcileReady", readyReader), ("ReconcileFailed", failedReader)]

def unknownType (name : String) : Failure :=
  .of (.invalidValue (Text.quoted name ++ " is not a valid ReconcileEventType"))

/-- The type of a foreign object is looked up by its text alone. -/
def readForeign (kind : String) (table : Table) : Result Event :=
  match table.get? "event_type" with
  | some (.text name) => match EventType.ofText? name with
    | some type => .ok ⟨.foreign ⟨kind, none⟩, 0.0, type⟩
    | none => .error (unknownType name)
  | _ => .ok ⟨.foreign ⟨kind, none⟩, 0.0, .unknown⟩

def read (table : Table) : Result Event :=
  match table.get? "kind" with
  | some (.text kind) => match readers.lookup kind with
    | some reader => (reader.read (.object table)).mapError Refusal.failure
    | none => readForeign kind table
  | _ => .error (Refusal.failure ⟨[], .missingField "kind"⟩)

end Event

namespace Happening

def kind : Happening → String
  | stateChanged .. => "StateChanged"
  | topicsCreated .. => "TopicsCreated"
  | topicVisible .. => "TopicVisible"
  | waitRetry .. => "WaitRetry"
  | ready .. => "ReconcileReady"
  | failed .. => "ReconcileFailed"
  | foreign object => object.kind

def writeFields : Happening → Table
  | stateChanged previous current =>
    [("previous", .text previous.text), ("current", .text current.text)]
  | topicsCreated topics => [("topics", .texts topics)]
  | topicVisible topic attempt => [("topic", .text topic), ("attempt", .int attempt)]
  | waitRetry phase attempt delay topic =>
    [("phase", .text phase.text), ("attempt", .int attempt), ("delay_ms", .number delay),
      ("topic", .orNull .text topic)]
  | ready topics duration => [("topics", .texts topics), ("duration", .float duration)]
  | failed phase errorName message =>
    [("phase", .text phase.text), ("error_type", .text errorName), ("exception", .text message)]
  | foreign _ => []

end Happening

namespace Event

def write (event : Event) : Document :=
  let time := match event.happening with
    | .foreign _ => []
    | _ => [("timestamp", .float event.timestamp)]
  .object (("kind", .text event.happening.kind) :: event.happening.writeFields ++ time ++
    [("event_type", .text event.type.text)])

end Event

end ClusterReadiness
