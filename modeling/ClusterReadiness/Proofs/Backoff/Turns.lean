import ClusterReadiness.Proofs.Program.Runs
import ClusterReadiness.Backoff.Wait

/-!
# The account of a poll

A poll is advanced by one call after the other, each with a policy and a sleeper of its own. Every
call takes an attempt, also one that is refused or fails. What is slept is the interval at that
time, and only a call that was granted makes it grow. Log lines are not looked at.
-/

namespace ClusterReadiness

/-- The number times one factor after the other. -/
def Number.scaleBy (n : Number) (factors : List Float) : Except Overflow Number :=
  factors.foldlM Number.scale n

namespace PollState

/-- A call that advances a poll: its policy, and how its sleeper ends a sleep of some length. -/
structure Call where
  policy : WaitPolicy
  sleep : Number → Result Unit

/-- What became of a call: the delays that it asked for, its answer, and the progress after it. -/
structure Turn where
  policy : WaitPolicy
  delays : List Number
  answer : Result Bool
  after : PollState

def keeping (sleep : Number → Result Unit) (delay : Number) :
    StateM (List Number) (Result Unit) := fun delays => (sleep delay, delays ++ [delay])

def unheard (_ : Level) (_ : String) : StateM (List Number) Unit := pure ()

def turn (poll : PollState) (call : Call) : Turn :=
  let ((answer, after), delays) := (poll.advance call.policy (keeping call.sleep) unheard).run []
  ⟨call.policy, delays, answer, after⟩

def turns : PollState → List Call → List Turn
  | _, [] => []
  | poll, call :: rest => poll.turn call :: turns (poll.turn call).after rest

/-- The progress after some calls. -/
def after (poll : PollState) (calls : List Call) : PollState :=
  calls.foldl (fun poll call => (poll.turn call).after) poll

def Turn.granted (turn : Turn) : Bool := turn.answer matches .ok true

/-- The multipliers of the calls that were granted. -/
def growths (turns : List Turn) : List Float :=
  (turns.filter Turn.granted).map (·.policy.multiplier)

/-- The ways in which a call may end. -/
inductive Yields (poll : PollState) (call : Call) : Turn → Prop where
  | refused (spent : call.policy.maxAttempts ≤ poll.attempt) :
      Yields poll call ⟨call.policy, [], .ok false, ⟨poll.interval, poll.attempt + 1⟩⟩
  | cutShort {cut : Failure} (within : poll.attempt < call.policy.maxAttempts)
      (slept : call.sleep poll.interval = .error cut) :
      Yields poll call
        ⟨call.policy, [poll.interval], .error cut, ⟨poll.interval, poll.attempt + 1⟩⟩
  | overgrown {reason : Overflow} (within : poll.attempt < call.policy.maxAttempts)
      (slept : call.sleep poll.interval = .ok ())
      (grown : poll.interval.scale call.policy.multiplier = .error reason) :
      Yields poll call ⟨call.policy, [poll.interval], .error (.of (.overflow reason)),
        ⟨poll.interval, poll.attempt + 1⟩⟩
  | granted {interval : Number} (within : poll.attempt < call.policy.maxAttempts)
      (slept : call.sleep poll.interval = .ok ())
      (grown : poll.interval.scale call.policy.multiplier = .ok interval) :
      Yields poll call ⟨call.policy, [poll.interval], .ok true, ⟨interval, poll.attempt + 1⟩⟩

/-- A call within the budget: it sleeps the interval of that time. -/
structure Asked (interval : Number) (call : Call) (turn : Turn) : Prop where
  delays_eq : turn.delays = [interval]
  cut_short : ∀ cut, call.sleep interval = .error cut → turn.answer = .error cut
  granted : call.sleep interval = .ok () → ∀ grown,
    interval.scale call.policy.multiplier = .ok grown → turn.answer = .ok true

/-- A call beyond the budget: it does not sleep. -/
structure Refused (turn : Turn) : Prop where
  delays_eq : turn.delays = []
  answer_eq : turn.answer = .ok false

section Call

theorem yields_turn (poll : PollState) (call : Call) : Yields poll call (poll.turn call) := by
  unfold turn advance
  by_cases spent : call.policy.maxAttempts < poll.attempt + 1
  · simp only [spent, if_true]
    exact .refused (by omega)
  · have within : poll.attempt < call.policy.maxAttempts := by omega
    simp only [spent, if_false, StateT.run_bind]
    cases slept : call.sleep poll.interval with
    | error cut =>
      simp only [keeping, StateT.run, slept]
      exact .cutShort within slept
    | ok _ =>
      simp only [keeping, StateT.run, slept]
      cases grown : poll.interval.scale call.policy.multiplier with
      | error reason => exact .overgrown within slept grown
      | ok interval => exact .granted within slept grown

variable {poll : PollState} {call : Call} {turn : Turn}

theorem Yields.attempt_eq (yields : Yields poll call turn) :
    turn.after.attempt = poll.attempt + 1 := by
  cases yields <;> rfl

theorem Yields.interval_eq (yields : Yields poll call turn) :
    poll.interval.scaleBy (growths [turn]) = .ok turn.after.interval := by
  cases yields with
  | refused => rfl
  | cutShort => rfl
  | overgrown => rfl
  | granted _ _ grown =>
    show (poll.interval.scale call.policy.multiplier >>= fun n => n.scaleBy []) = _
    rw [grown]
    rfl

theorem Yields.within (yields : Yields poll call turn)
    (within : poll.attempt < call.policy.maxAttempts) : Asked poll.interval call turn := by
  cases yields with
  | refused spent => omega
  | cutShort _ slept =>
    refine ⟨rfl, fun cut other => ?_, fun woken => ?_⟩
    · exact congrArg Except.error (Except.error.inj (slept.symm.trans other))
    · cases slept.symm.trans woken
  | overgrown _ slept overflows =>
    refine ⟨rfl, fun cut other => ?_, fun _ next grown => ?_⟩
    · cases slept.symm.trans other
    · cases overflows.symm.trans grown
  | granted _ slept _ =>
    refine ⟨rfl, fun cut other => ?_, fun _ _ _ => rfl⟩
    cases slept.symm.trans other

theorem Yields.beyond (yields : Yields poll call turn)
    (spent : call.policy.maxAttempts ≤ poll.attempt) : Refused turn := by
  cases yields with
  | refused => exact ⟨rfl, rfl⟩
  | _ => omega

end Call

section Calls

variable {poll : PollState} {first rest : List Turn}

theorem growths_cons (turn : Turn) (rest : List Turn) :
    growths (turn :: rest) = growths [turn] ++ growths rest := by
  rw [growths, growths, growths, ← List.map_append, ← List.filter_append, List.singleton_append]

theorem after_attempt (poll : PollState) (calls : List Call) :
    (poll.after calls).attempt = poll.attempt + calls.length := by
  induction calls generalizing poll with
  | nil => exact (Int.add_zero _).symm
  | cons call rest ih =>
    have next := (yields_turn poll call).attempt_eq
    calc (poll.after (call :: rest)).attempt
        = (poll.turn call).after.attempt + rest.length := ih _
      _ = poll.attempt + (rest.length + 1 : Nat) := by omega

/-- Calls that are not granted leave no trace in the interval. -/
theorem after_interval (poll : PollState) (calls : List Call) :
    poll.interval.scaleBy (growths (poll.turns calls)) = .ok (poll.after calls).interval := by
  induction calls generalizing poll with
  | nil => rfl
  | cons call rest ih =>
    have here := (yields_turn poll call).interval_eq
    rw [turns, growths_cons, Number.scaleBy, List.foldlM_append]
    rw [Number.scaleBy] at here
    rw [here]
    exact ih _

theorem turns_getElem? (poll : PollState) (calls : List Call) (k : Nat) :
    (poll.turns calls)[k]? = calls[k]?.map (poll.after (calls.take k)).turn := by
  induction calls generalizing poll k with
  | nil => rfl
  | cons call rest ih =>
    cases k with
    | zero => rfl
    | succ k => exact ih _ k

/-- Every call takes an attempt, whatever becomes of it. The call of some number sleeps the interval
of that time exactly if its policy allows the attempt, and is refused otherwise; and the interval is
what the multipliers of the granted calls make of the first one. -/
theorem turns_accounted (poll : PollState) (calls : List Call) :
    (poll.after calls).attempt = poll.attempt + calls.length ∧
    poll.interval.scaleBy (growths (poll.turns calls)) = .ok (poll.after calls).interval ∧
    ∀ (k : Nat) (call : Call), calls[k]? = some call → ∃ turn,
      (poll.turns calls)[k]? = some turn ∧
      if poll.attempt + (k + 1) ≤ call.policy.maxAttempts
      then Asked (poll.after (calls.take k)).interval call turn
      else Refused turn := by
  refine ⟨after_attempt poll calls, after_interval poll calls, fun k call here => ?_⟩
  have reached : k < calls.length := (List.getElem?_eq_some_iff.mp here).1
  have counted : (poll.after (calls.take k)).attempt = poll.attempt + k := by
    rw [after_attempt, List.length_take_of_le (by omega)]
  have yields := yields_turn (poll.after (calls.take k)) call
  refine ⟨_, by rw [turns_getElem?, here, Option.map_some], ?_⟩
  split
  · exact yields.within (by omega)
  · exact yields.beyond (by omega)

/-- Like the default policy, with a longer budget and growing faster. -/
def tripling : WaitPolicy :=
  { WaitPolicy.default with
    multiplier := 3.0, maxAttempts := 5, growing := by decide, attempts_pos := by decide }

/-- A sleep that is cut short and a policy with a smaller budget, between two calls that are
granted. -/
def mixed : List Call := [⟨tripling, fun _ => .ok ()⟩,
  ⟨tripling, fun _ => .error (.of (.interruptedWait "shutdown"))⟩, ⟨.default, fun _ => .ok ()⟩,
  ⟨tripling, fun _ => .ok ()⟩]

theorem turns_accounted_mixed :
    mixed[2]? = some ⟨.default, fun _ => .ok ()⟩ ∧
    growths ((start .default).turns mixed) = [3.0, 3.0] ∧
    (start .default).after mixed = ⟨.float 18000.0, 5⟩ ∧
    ∃ turn, ((start .default).turns mixed)[2]? = some turn ∧ Refused turn := by
  obtain ⟨-, -, called⟩ := turns_accounted (start .default) mixed
  have third : mixed[2]? = some ⟨.default, fun _ => .ok ()⟩ := rfl
  obtain ⟨turn, here, refused⟩ := called 2 _ third
  have spent : ¬ (start .default).attempt + ((2 : Nat) + 1) ≤ WaitPolicy.default.maxAttempts := by
    decide
  rw [if_neg spent] at refused
  exact ⟨third, by decide +kernel, by decide +kernel, turn, here, refused⟩

end Calls

end PollState

end ClusterReadiness
