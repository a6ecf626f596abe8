import ClusterReadiness.Backoff.Retry
import ClusterReadiness.Rule

/-!
Synchronous fan-out of events to registered callbacks, in order of registration. A callback is a
latch that remembers how the run ended, or does, on its n-th event, what the n-th entry of its
script says: change the registrations, add a rule, emit another event, or something to the world
outside. The list of registrations is walked by position while callbacks change it, so a callback
registered meanwhile is still reached and a removal moves the rest one place to the left. A callback
that fails is logged and skipped; only a user interrupt ends the walk.

Emission ends because every entry of a script is used once: `sweep` passes over callbacks with
nothing left to do, and whatever follows a used entry has one entry fewer to its budget.
-/

namespace ClusterReadiness

/-- One thing a scripted callback does; `ε` is what it can do to the world outside the router. -/
inductive Action (ε : Type) where
  | register (id : String)
  | unregister (id : String)
  | addRule (id : String) (rule : Rule)
  | emit (event : Event)
  | perform (effect : ε)

/-- How the run ended, for those who wait for its end. -/
structure Latch where
  ready : Option Event
  failure : Option Event
deriving DecidableEq

namespace Latch

def fresh : Latch := ⟨none, none⟩

def handle (latch : Latch) (event : Event) : Latch :=
  match event.happening with
  | .ready .. => { latch with ready := some event }
  | .failed .. => { latch with failure := some event }
  | _ => latch

def finished (latch : Latch) : Bool := latch.ready.isSome || latch.failure.isSome

/-- What a wait that does not block answers. -/
def isReady (latch : Latch) : Bool := latch.finished && latch.ready.isSome

/-- A latch looks only at how a run ends. -/
def rule : Rule := ⟨some [.ready, .failed], none, none⟩

end Latch

inductive Behaviour (ε : Type) where
  | scripted (script : List (List (Action ε)))
  | latch (state : Latch)

structure Callback (ε : Type) where
  id : String
  className : String
  rules : List Rule
  behaviour : Behaviour ε

namespace Callback

variable {ε : Type}

def entriesLeft (callback : Callback ε) : Nat :=
  match callback.behaviour with
  | .scripted script => script.length
  | .latch _ => 0

end Callback

/-- All callbacks that exist, the identities of those registered, and which scripted callback was
handed which event. -/
structure Router (ε : Type) where
  pool : List (Callback ε)
  registered : List String
  handled : List (String × Event)

namespace Router

variable {ε : Type}

def find? (router : Router ε) (id : String) : Option (Callback ε) :=
  router.pool.find? (·.id == id)

def modify (router : Router ε) (id : String) (change : Callback ε → Callback ε) : Router ε :=
  { router with pool := router.pool.map fun c => if c.id == id then change c else c }

def register (router : Router ε) (id : String) : Router ε :=
  { router with registered := router.registered ++ [id] }

/-- Takes out the first registration. -/
def unregister (router : Router ε) (id : String) : Result (Router ε) :=
  if router.registered.contains id then
    .ok { router with registered := router.registered.erase id }
  else .error (.of (.invalidValue "list.remove(x): x not in list"))

def addRule (router : Router ε) (id : String) (rule : Rule) : Router ε :=
  router.modify id fun c => { c with rules := c.rules ++ [rule] }

/-- Script entries not used yet, over all callbacks. -/
def entriesLeft (router : Router ε) : Nat := (router.pool.map Callback.entriesLeft).foldr (· + ·) 0

/-- Notes that a scripted callback is handed the event and takes the next entry of its script; a
latch takes the event in. -/
def handOver (router : Router ε) (callback : Callback ε) (event : Event) :
    Router ε × Option (List (Action ε)) :=
  match callback.behaviour with
  | .latch state =>
    (router.modify callback.id fun c => { c with behaviour := .latch (state.handle event) }, none)
  | .scripted script =>
    let router := { router with handled := router.handled ++ [(callback.id, event)] }
    match script with
    | [] => (router, none)
    | entry :: rest =>
      (router.modify callback.id fun c => { c with behaviour := .scripted rest }, some entry)

section Emission

variable {m : Type → Type} [Monad m]

/-- Does one action; `nested` emits an event of a callback's own. -/
def act (perform : ε → m (Result Unit)) (nested : Event → StateT (Router ε) m (Result Unit)) :
    Action ε → StateT (Router ε) m (Result Unit)
  | .register id => do
    set ((← get).register id)
    return .ok ()
  | .unregister id => do
    match (← get).unregister id with
    | .ok router =>
      set router
      return .ok ()
    | .error failure => return .error failure
  | .addRule id rule => do
    set ((← get).addRule id rule)
    return .ok ()
  | .emit event => nested event
  | .perform effect => liftM (perform effect)

/-- Actions after one that fails are not done. -/
def actAll (perform : ε → m (Result Unit)) (nested : Event → StateT (Router ε) m (Result Unit)) :
    List (Action ε) → StateT (Router ε) m (Result Unit)
  | [] => return .ok ()
  | action :: rest => do
    match ← act perform nested action with
    | .error failure => return .error failure
    | .ok () => actAll perform nested rest

def failureText (callback : Callback ε) (event : Event) (failure : Failure) : String :=
  "callback " ++ callback.className ++ " failed on " ++ event.type.text ++ ": " ++ failure.message

/-- Offers the event to the registrations from `position` on, `left` of them, as long as no script
entry is used; once one is, `resume` goes on from the next position. -/
def sweep (record : Level → String → m Unit) (runEntry : List (Action ε) →
    StateT (Router ε) m (Result Unit)) (resume : Nat → StateT (Router ε) m (Result Unit))
    (event : Event) : (left position : Nat) → StateT (Router ε) m (Result Unit)
  | 0, _ => return .ok ()
  | left + 1, position => do
    let router ← get
    match router.registered[position]?.bind router.find? with
    | none => sweep record runEntry resume event left (position + 1)
    | some callback =>
      match Rule.wants callback.rules event with
      | .error failure => return .error failure
      | .ok false => sweep record runEntry resume event left (position + 1)
      | .ok true =>
        let (router, entry) := router.handOver callback event
        set router
        match entry with
        | none => sweep record runEntry resume event left (position + 1)
        | some entry =>
          match ← runEntry entry with
          | .ok () => resume (position + 1)
          | .error failure =>
            if failure.isUserInterrupt then return .error failure
            liftM (record .warning (failureText callback event failure))
            resume (position + 1)

/-- Offers the event from `position` on, using at most `budget` script entries. -/
def emitWithin (perform : ε → m (Result Unit)) (record : Level → String → m Unit) :
    (budget : Nat) → Event → (position : Nat) → StateT (Router ε) m (Result Unit)
  | 0, event, position => do
    let left := (← get).registered.length - position
    sweep record (fun _ => return .ok ()) (fun _ => return .ok ()) event left position
  | budget + 1, event, position => do
    let left := (← get).registered.length - position
    sweep record (actAll perform fun e => emitWithin perform record budget e 0)
      (emitWithin perform record budget event) event left position

/-- Offers the event to every registered callback. The budget is what all scripts have left, so it
never runs out. -/
def emit (perform : ε → m (Result Unit)) (record : Level → String → m Unit) (event : Event) :
    StateT (Router ε) m (Result Unit) := do
  emitWithin perform record (← get).entriesLeft event 0

end Emission

end Router

end ClusterReadiness
