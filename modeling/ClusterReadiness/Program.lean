import ClusterReadiness.Event
import ClusterReadiness.Backoff.Retry
import ClusterReadiness.Topic

/-!
Bootstrap work as a tree of requests to the surroundings: a program is done, or asks for something
and goes on with the answer. What the broker, the registry, the sleeper, the clock, the log and the
listeners do is left open; `interpret` fixes it by a handler, and `Runs` allows every answer there
is. Programs end, whatever the answers.
-/

namespace ClusterReadiness

inductive Request where
  | createTopics (specs : List TopicSpec)
  | listTopics
  | probe
  | sleep (delay : Number)
  | isInterrupted
  | clock
  | announce (phase : Phase) (happening : Happening)
  | record (level : Level) (message : String)
deriving DecidableEq

namespace Request

def Answer : Request → Type
  | createTopics _ => Result Unit
  | listTopics => Result Listing
  | probe => Result Bool
  | sleep _ => Result Unit
  | isInterrupted => Bool
  | clock => Float
  | announce _ _ => Result Unit
  | record _ _ => Unit

/-- Calls of the broker and the registry. -/
def IsPortCall : Request → Prop
  | createTopics _ | listTopics | probe => True
  | _ => False

end Request

inductive Program (α : Type) where
  | done (value : α)
  | ask (request : Request) (next : request.Answer → Program α)

namespace Program

variable {α β : Type}

def bind : Program α → (α → Program β) → Program β
  | done value, f => f value
  | ask request next, f => ask request fun answer => (next answer).bind f

instance : Monad Program where
  pure := done
  bind := bind

/-- One request, whose answer is the value. -/
def request (r : Request) : Program r.Answer := ask r done

/-- Runs a program with the answers a handler gives. -/
def interpret {m : Type → Type} [Monad m] (handle : (r : Request) → m r.Answer) :
    Program α → m α
  | done value => pure value
  | ask r next => do interpret handle (next (← handle r))

@[simp] theorem pure_eq_done (value : α) : (pure value : Program α) = done value := rfl

@[simp] theorem done_bind (value : α) (f : α → Program β) : (done value >>= f) = f value := rfl

@[simp] theorem ask_bind (r : Request) (next : r.Answer → Program α) (f : α → Program β) :
    (ask r next >>= f) = ask r fun answer => next answer >>= f := rfl

end Program

/-- A request together with the answer it got. -/
structure Exchange where
  request : Request
  answer : request.Answer

/-- The program may go through these exchanges, in this order, and end with this value. -/
inductive Runs {α : Type} : Program α → List Exchange → α → Prop where
  | done (value : α) : Runs (.done value) [] value
  | ask {r : Request} {next : r.Answer → Program α} {trace : List Exchange} {value : α}
      (answer : r.Answer) (rest : Runs (next answer) trace value) :
      Runs (.ask r next) (⟨r, answer⟩ :: trace) value

end ClusterReadiness
