import ClusterReadiness.Event

/-!
Rules by which a callback chooses its events. An absent or empty criterion accepts everything, the
others must all hold, and they are looked at in a fixed order: an event of no phase is refused by
its type before its phase is asked for, which would fail. One accepting rule is enough.
-/

namespace ClusterReadiness

structure Rule where
  eventTypes : Option (List EventType)
  phases : Option (List Phase)
  topics : Option (List String)
deriving DecidableEq

namespace Rule

/-- An absent criterion demands nothing, like an empty one. -/
def demanded {α : Type} (criterion : Option (List α)) : List α := criterion.getD []

def accepts (rule : Rule) (event : Event) : Result Bool :=
  let types := demanded rule.eventTypes
  let phases := demanded rule.phases
  let topics := demanded rule.topics
  let topicHolds := topics.isEmpty || event.topic?.any fun t => topics.contains t
  if !types.isEmpty && !types.contains event.type then .ok false
  else if phases.isEmpty then .ok topicHolds
  else event.phase.map fun phase => phases.contains phase && topicHolds

/-- Some rule accepts; rules after it are not looked at. -/
def anyAccepts : List Rule → Event → Result Bool
  | [], _ => .ok false
  | rule :: rest, event =>
    match rule.accepts event with
    | .error failure => .error failure
    | .ok true => .ok true
    | .ok false => anyAccepts rest event

/-- Without any rule every event is wanted. -/
def wants (rules : List Rule) (event : Event) : Result Bool :=
  if rules.isEmpty then .ok true else anyAccepts rules event

end Rule

end ClusterReadiness
