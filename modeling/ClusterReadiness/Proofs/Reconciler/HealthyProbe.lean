import ClusterReadiness.Proofs.Reconciler.Timetables
import ClusterReadiness.Registry.Http

/-!
# The first healthy probe

Waiting for the registry is a search: it ends with the first probe that finds the registry healthy,
if the attempts reach that far, and with the last attempt if they do not. Over HTTP the search never
fails for a request that did, since that counts as an unhealthy answer.
-/

namespace ClusterReadiness

namespace WaitPolicy

variable {policy : WaitPolicy} {interval next : Number}

/-- The interval that so many waits make of this one. -/
def intervalFrom (policy : WaitPolicy) (interval : Number) : Nat → Except Overflow Number
  | 0 => .ok interval
  | waits + 1 => (policy.intervalFrom interval waits).bind (·.scale policy.multiplier)

def intervalsFrom (policy : WaitPolicy) (interval : Number) (waits : Nat) :
    List (Except Overflow Number) :=
  (List.range waits).map (policy.intervalFrom interval)

theorem intervalFrom_succ (grown : interval.scale policy.multiplier = .ok next) (waits : Nat) :
    policy.intervalFrom interval (waits + 1) = policy.intervalFrom next waits := by
  induction waits with
  | zero => exact grown
  | succ waits ih => exact congrArg (Except.bind · (·.scale policy.multiplier)) ih

theorem intervalsFrom_succ (grown : interval.scale policy.multiplier = .ok next) (waits : Nat) :
    policy.intervalsFrom interval (waits + 1) =
      .ok interval :: policy.intervalsFrom next waits := by
  rw [intervalsFrom, List.range_succ_eq_map, List.map_cons, List.map_map]
  exact congrArg _ (List.map_congr_left fun k _ => intervalFrom_succ grown k)

end WaitPolicy

namespace HttpRegistry

variable {registry : HttpRegistry} {outcome : Result Int}

/-- How a request ends, where sending it comes out like this. -/
def requested (registry : HttpRegistry) (outcome : Result Int) : Result Int :=
  registry.request (m := Id) fun _ => outcome

/-- What a probe answers, where sending its request comes out like this. -/
def probed (registry : HttpRegistry) (outcome : Result Int) : Result Bool :=
  registry.probe (m := Id) (fun _ => outcome) fun _ _ => ()

/-- The request was answered, with a status that stands for success. -/
def Succeeds (registry : HttpRegistry) (outcome : Result Int) : Prop :=
  ∃ status, registry.requested outcome = .ok status ∧ 200 ≤ status ∧ status ≤ 299

/-- A status, or a failure of the transport. -/
def Delivers (outcome : Result Int) : Prop :=
  ∀ failure, outcome = .error failure → isTransport failure.fault = true

theorem probed_eq : registry.probed outcome =
    match registry.requested outcome with
    | .ok status => .ok (isSuccess status)
    | .error failure => if isTransport failure.fault then .ok false else .error failure := by
  unfold probed probe requested
  cases registry.request (m := Id) fun _ => outcome with
  | ok status => rfl
  | error failure => exact (apply_ite _ _ _ _).symm

/-- Before an open client sends anything, only the address of the request can be wrong. -/
theorem requested_delivers (opened : registry.closed = false) (delivers : Delivers outcome) :
    Delivers (registry.requested outcome) := by
  intro failure failed
  unfold requested request at failed
  cases parsed : Url.parse registry.healthPath with
  | error message =>
    rw [parsed] at failed
    cases failed
    rfl
  | ok path =>
    rw [parsed, opened] at failed
    exact delivers failure failed

/-- Over an open client every probe is answered, and tells whether its request succeeded. -/
theorem exists_probed_eq (opened : registry.closed = false) (delivers : Delivers outcome) :
    ∃ healthy, registry.probed outcome = .ok healthy ∧
      (healthy = true ↔ registry.Succeeds outcome) := by
  have delivered := requested_delivers opened delivers
  rw [probed_eq]
  unfold Succeeds
  cases requested : registry.requested outcome with
  | ok status => exact ⟨isSuccess status, rfl, by simp [isSuccess]⟩
  | error failure => exact ⟨false, if_pos (delivered failure requested), by simp⟩

/-- A probe fails with nothing that it counts as an unhealthy answer. -/
theorem not_isTransport_of_probed {failure : Failure}
    (failed : registry.probed outcome = .error failure) : isTransport failure.fault = false := by
  rw [probed_eq] at failed
  cases requested : registry.requested outcome with
  | ok status =>
    rw [requested] at failed
    cases failed
  | error raised =>
    rw [requested] at failed
    cases transport : isTransport raised.fault with
    | true => cases (if_pos transport).symm.trans failed
    | false =>
      cases (if_neg (Bool.eq_false_iff.mp transport)).symm.trans failed
      exact transport

end HttpRegistry

section Probing

variable {answers : Nat → Result Bool} {healthy : Nat → Bool} {tally : Tally}
  {trace : List Exchange}

/-- Probes are answered in turn, and everything else goes well. -/
def Timetable.probing (answers : Nat → Result Bool) : Timetable where
  create _ := .ok ()
  list _ := .ok []
  probe tally := answers tally.probes
  sleep _ := .ok ()
  interrupted _ := false

theorem Timetable.Obeys.smooth (obeys : (Timetable.probing answers).Obeys tally trace) :
    ∀ e ∈ trace, e.Smooth := by
  rintro ⟨request, answer⟩ mem
  obtain ⟨turn, time, told⟩ := obeys.answered mem
  cases request with
  | sleep | announce =>
    cases told
    trivial
  | _ => trivial

theorem Timetable.Obeys.probed {answer : Result Bool}
    (obeys : (Timetable.probing answers).Obeys tally trace)
    (mem : (⟨.probe, answer⟩ : Exchange) ∈ trace) : ∃ k, answer = answers k := by
  obtain ⟨turn, time, told⟩ := obeys.answered mem
  exact ⟨turn.probes, told⟩

/-- Where every probe is answered, each tells what its turn says. -/
theorem healths_of_obeys
    (obeys : (Timetable.probing fun k => .ok (healthy k)).Obeys tally trace) :
    healths trace =
      (List.range' tally.probes (callsOf Request.isProbe trace).length).map healthy := by
  induction trace generalizing tally with
  | nil => rfl
  | cons exchange rest ih =>
    obtain ⟨request, answer⟩ := exchange
    obtain ⟨⟨time, told⟩, onward⟩ := obeys
    have others := ih onward
    cases request with
    | probe =>
      cases told
      rw [healths_probe, others]
      rfl
    | _ => exact others

theorem healthy_of_obeys {k : Nat} {told : Bool}
    (obeys : (Timetable.probing fun k => .ok (healthy k)).Obeys .zero trace)
    (here : (healths trace)[k]? = some told) : healthy k = told := by
  rw [healths_of_obeys obeys, List.getElem?_map, Option.map_eq_some_iff] at here
  obtain ⟨turn, found, rfl⟩ := here
  obtain ⟨within, rfl⟩ := List.getElem?_eq_some_iff.mp found
  rw [List.getElem_range', Nat.one_mul]
  exact congrArg healthy (Nat.zero_add k).symm

end Probing

namespace Reconciler

variable {reconciler : Reconciler} {start stop phase : Phase} {trace : List Exchange}
  {poll after : PollState} {result : Result Unit}

/-- Waiting finds the first of the probes that are healthy, with one rest before every probe but the
first, if it is among those that the attempts left allow. Otherwise it takes all of these attempts,
and tells how many there were. -/
structure FindsFirst (reconciler : Reconciler) (poll : PollState) (healthy : Nat → Prop)
    (trace : List Exchange) (result : Result Unit) (after : PollState) : Prop where
  returns : result = .ok () ↔ ∃ k ≤ reconciler.budget poll, healthy k
  found : ∀ k ≤ reconciler.budget poll, healthy k → (∀ j < k, ¬ healthy j) →
    Takes 0 0 (k + 1) (reconciler.wait.intervalsFrom poll.interval k) trace ∧
      after.attempt = poll.attempt + k
  spent : (∀ k ≤ reconciler.budget poll, ¬ healthy k) →
    Takes 0 0 (reconciler.budget poll + 1)
        (reconciler.wait.intervalsFrom poll.interval (reconciler.budget poll)) trace ∧
      result = .error (.of (.registryNotReady (max poll.attempt reconciler.wait.maxAttempts)))

section Delays

theorem Waits.delays_eq {policy : WaitPolicy} {waiting : Phase} {topic : Option String}
    {spent : Int → Fault}
    (waits : Waits policy phase waiting topic spent poll trace result after) :
    (delays trace).map Except.ok = policy.intervalsFrom poll.interval (sleeps trace) := by
  cases waits <;> rfl

/-- Each rest takes the interval that the rests before it have led to. -/
theorem AwaitsRegistry.delays_eq
    (awaits : AwaitsRegistry reconciler phase poll trace result after) :
    (delays trace).map Except.ok = reconciler.wait.intervalsFrom poll.interval (sleeps trace) := by
  induction awaits with
  | raised | healthy => rfl
  | stopped waits => exact waits.delays_eq
  | @again poll between after waited rest result waits _ ih =>
    obtain ⟨slept, grown⟩ := waits.rested
    have here := waits.delays_eq
    rw [slept] at here
    have count : sleeps (⟨.probe, .ok false⟩ :: waited ++ rest) = sleeps rest + 1 := by
      rw [sleeps_append, sleeps_probe, slept, Nat.add_comm]
    rw [count, WaitPolicy.intervalsFrom_succ grown, delays_append, List.map_append, ih]
    exact congrArg (· ++ _) here

theorem verifyRegistry_delays_eq
    (polls : Polls reconciler.verifyRegistry poll start trace result after stop) :
    (delays trace).map Except.ok = reconciler.wait.intervalsFrom poll.interval (sleeps trace) := by
  obtain ⟨-, ⟨failure, awaits, -⟩ | ⟨probed, message, awaits, rfl, -⟩⟩ :=
    polls_verifyRegistry polls
  · exact awaits.delays_eq
  · rw [delays_append, sleeps_append]
    exact (congrArg _ (List.append_nil _)).trans awaits.delays_eq

end Delays

section Search

variable {answers : Nat → Result Bool} {healthy : Nat → Bool}

/-- A wait fails for what a probe raised, for its attempts, or for an interval that cannot grow. -/
theorem AwaitsRegistry.raises {failure : Failure}
    (awaits : AwaitsRegistry reconciler phase poll trace (.error failure) after)
    (smooth : ∀ e ∈ trace, e.Smooth) :
    (⟨.probe, .error failure⟩ : Exchange) ∈ trace ∨
      (∃ attempts, failure = .of (.registryNotReady attempts)) ∨
      ∃ reason, failure = .of (.overflow reason) := by
  generalize hresult : Except.error failure = result at awaits
  induction awaits with
  | raised =>
    cases hresult
    exact .inl (.head _)
  | healthy => cases hresult
  | stopped waits =>
    cases hresult
    cases waits with
    | spent => exact .inr (.inl ⟨_, rfl⟩)
    | overgrown => exact .inr (.inr ⟨_, rfl⟩)
    | cutShort => exact (smooth _ (.tail _ (.tail _ (.tail _ (.head _))))).elim
    | told => exact (smooth _ (.tail _ (.tail _ (.tail _ (.tail _ (.head _)))))).elim
  | again waits _ ih =>
    obtain ⟨-, smoothRest⟩ := List.forall_mem_append.mp smooth
    exact (ih smoothRest hresult).imp_left (List.mem_append_right _)

theorem verifyRegistry_first_unhealthy {failure : Failure}
    (polls : Polls reconciler.verifyRegistry poll start trace (.error failure) after stop)
    (obeys : (Timetable.probing fun k => .ok (healthy k)).Obeys .zero trace) :
    healthy 0 = false := by
  obtain ⟨-, ⟨other, awaits, h⟩ | ⟨probed, message, -, -, h⟩⟩ := polls_verifyRegistry polls
  · cases h
    cases awaits with
    | raised =>
      obtain ⟨time, told⟩ := obeys.head
      cases told
    | stopped | again =>
      obtain ⟨time, told⟩ := obeys.head
      exact (Except.ok.inj told).symm
  · cases h

/-- A wait makes no call but its probes, and rests for one interval after the other. -/
theorem verifyRegistry_takes
    (polls : Polls reconciler.verifyRegistry poll start trace result after stop)
    (obeys : (Timetable.probing fun k => .ok (healthy k)).Obeys .zero trace) :
    Takes 0 0 (healths trace).length
      (reconciler.wait.intervalsFrom poll.interval (sleeps trace)) trace where
  created := callsOf_of_concerns Request.isCreation_port rfl (polls_verifyRegistry_concerns polls)
  listed := callsOf_of_concerns Request.isListing_port rfl (polls_verifyRegistry_concerns polls)
  probed := by rw [healths_of_obeys obeys, List.length_map, List.length_range']
  slept := verifyRegistry_delays_eq polls

/-- A wait that ends well ends with the first healthy probe. -/
theorem findsFirst_of_found
    (polls : Polls reconciler.verifyRegistry poll start trace (.ok ()) after stop)
    (obeys : (Timetable.probing fun k => .ok (healthy k)).Obeys .zero trace) :
    FindsFirst reconciler poll (healthy · = true) trace (.ok ()) after := by
  obtain ⟨rounds, within, found, slept, attempts⟩ := verifyRegistry_found polls
  have takes := verifyRegistry_takes polls obeys
  have last : healthy rounds = true := healthy_of_obeys obeys (by simp [found])
  have before : ∀ k < rounds, healthy k = false := fun k earlier =>
    healthy_of_obeys obeys (by simp [found, List.getElem?_append_left, earlier])
  rw [found, slept, List.length_append, List.length_replicate] at takes
  refine ⟨⟨fun _ => ⟨rounds, within, last⟩, fun _ => rfl⟩, ?_, ?_⟩
  · intro k _ here first
    -- Of two first healthy probes neither comes before the other.
    obtain earlier | rfl | later := Nat.lt_trichotomy k rounds
    · rw [before k earlier] at here
      cases here
    · exact ⟨takes, attempts⟩
    · exact absurd last (first rounds later)
  · exact fun none => absurd last (none rounds within)

/-- A wait that fails although every probe is answered has found none healthy. -/
theorem findsFirst_of_missed {failure : Failure}
    (polls : Polls reconciler.verifyRegistry poll start trace (.error failure) after stop)
    (obeys : (Timetable.probing fun k => .ok (healthy k)).Obeys .zero trace)
    (grows : healthy 0 = false → poll.attempt < reconciler.wait.maxAttempts →
      Grows reconciler.wait poll) :
    FindsFirst reconciler poll (healthy · = true) trace (.error failure) after := by
  have answered : ∀ reason, (⟨.probe, .error reason⟩ : Exchange) ∉ trace := by
    intro reason mem
    obtain ⟨k, told⟩ := obeys.probed mem
    cases told
  -- An interval is grown only after an unhealthy probe, and then the first probe was one.
  have first : healthy 0 = false := verifyRegistry_first_unhealthy polls obeys
  obtain ⟨missed, slept, rfl⟩ := verifyRegistry_missed polls (grows first) obeys.smooth answered
  have takes := verifyRegistry_takes polls obeys
  have unhealthy : ∀ k ≤ reconciler.budget poll, ¬ healthy k = true := by
    intro k within
    have told : (healths trace)[k]? = some false := by simp [missed, Nat.lt_succ_of_le within]
    rw [healthy_of_obeys obeys told]
    exact Bool.false_ne_true
  rw [missed, slept, List.length_replicate] at takes
  refine ⟨⟨nofun, ?_⟩, ?_, fun _ => ⟨takes, rfl⟩⟩
  · rintro ⟨k, within, here⟩
    exact absurd here (unhealthy k within)
  · exact fun k within here => absurd here (unhealthy k within)

theorem findsFirst_of_polls
    (polls : Polls reconciler.verifyRegistry poll start trace result after stop)
    (obeys : (Timetable.probing fun k => .ok (healthy k)).Obeys .zero trace)
    (grows : healthy 0 = false → poll.attempt < reconciler.wait.maxAttempts →
      Grows reconciler.wait poll) :
    FindsFirst reconciler poll (healthy · = true) trace result after := by
  cases result with
  | ok _ => exact findsFirst_of_found polls obeys
  | error failure => exact findsFirst_of_missed polls obeys grows

/-- Over HTTP, no failure of the transport ends a wait. -/
theorem verifyRegistry_keeps_transport {registry : HttpRegistry} {outcomes : Nat → Result Int}
    {failure : Failure}
    (polls : Polls reconciler.verifyRegistry poll start trace (.error failure) after stop)
    (obeys : (Timetable.probing fun k => registry.probed (outcomes k)).Obeys .zero trace) :
    HttpRegistry.isTransport failure.fault = false := by
  obtain ⟨-, ⟨other, awaits, h⟩ | ⟨probed, message, -, -, h⟩⟩ := polls_verifyRegistry polls
  · cases h
    rcases awaits.raises obeys.smooth with raised | ⟨attempts, rfl⟩ | ⟨reason, rfl⟩
    · obtain ⟨k, told⟩ := obeys.probed raised
      exact HttpRegistry.not_isTransport_of_probed told.symm
    · rfl
    · rfl
  · cases h

/-- A wait in which the probes are answered in turn, and no rest and no announcement fails, always
comes to an end. Provided that the interval can be grown if it has to be, it finds the first healthy
probe. So it does over an open HTTP client, whatever statuses and failures of the transport there
are, where the healthy probes are those answered by a status of success; and over any client no
failure of the transport ends the wait. -/
theorem verifyRegistry_finds_first (reconciler : Reconciler) (poll : PollState)
    (answers : Nat → Result Bool) (start : Phase) :
    (∃ trace result after stop,
      Polls reconciler.verifyRegistry poll start trace result after stop ∧
      (Timetable.probing answers).Obeys .zero trace) ∧
    ∀ trace result after stop,
      Polls reconciler.verifyRegistry poll start trace result after stop →
      (Timetable.probing answers).Obeys .zero trace →
      ((answers 0 = .ok false → poll.attempt < reconciler.wait.maxAttempts →
          Grows reconciler.wait poll) →
        (∀ healthy : Nat → Bool, (∀ k, answers k = .ok (healthy k)) →
          FindsFirst reconciler poll (healthy · = true) trace result after) ∧
        ∀ (registry : HttpRegistry) (outcomes : Nat → Result Int), registry.closed = false →
          (∀ k, HttpRegistry.Delivers (outcomes k)) →
          (∀ k, answers k = registry.probed (outcomes k)) →
          FindsFirst reconciler poll (fun k => registry.Succeeds (outcomes k)) trace result
            after) ∧
      ∀ (registry : HttpRegistry) (outcomes : Nat → Result Int),
        (∀ k, answers k = registry.probed (outcomes k)) →
        ∀ failure, result = .error failure →
          HttpRegistry.isTransport failure.fault = false := by
  constructor
  · exact ⟨_, _, _, _, runs_follow _ [] _, obeys_follow (Timetable.probing answers) 0 _ []⟩
  · intro trace result after stop polls obeys
    refine ⟨fun grows => ⟨?_, ?_⟩, ?_⟩
    · intro healthy told
      obtain rfl : answers = fun k => .ok (healthy k) := funext told
      exact findsFirst_of_polls polls obeys fun first => grows (congrArg _ first)
    · intro registry outcomes opened delivers told
      choose healthy probed means using fun k =>
        HttpRegistry.exists_probed_eq opened (delivers k)
      obtain rfl : answers = fun k => .ok (healthy k) :=
        funext fun k => (told k).trans (probed k)
      rw [← funext fun k => propext (means k)]
      exact findsFirst_of_polls polls obeys fun first => grows (congrArg _ first)
    · rintro registry outcomes told failure rfl
      obtain rfl : answers = fun k => registry.probed (outcomes k) := funext told
      exact verifyRegistry_keeps_transport polls obeys

end Search

section Refused

def schemaRegistry : HttpRegistry :=
  ⟨"http://schema-registry:8081", ⟨"http", "schema-registry:8081", "/", none, none⟩, "/health",
    .int 10, false⟩

/-- Nobody listens yet when the first request is made. -/
def refusedOnce : Nat → Result Int
  | 0 => .error (.of (.transport .connectError "connection refused"))
  | _ => .ok 204

theorem verifyRegistry_finds_first_refused :
    schemaRegistry.closed = false ∧ (∀ k, HttpRegistry.Delivers (refusedOnce k)) ∧
    Grows ordersOnly.wait (.start ordersOnly.wait) ∧
    ∃ trace result after stop, Polls ordersOnly.verifyRegistry (.start ordersOnly.wait)
        .verifyingRegistry trace result after stop ∧
      (Timetable.probing fun k => schemaRegistry.probed (refusedOnce k)).Obeys .zero trace ∧
      result = .ok () ∧ after.attempt = 2 ∧
      Takes 0 0 2 (ordersOnly.wait.intervalsFrom (.int 2000) 1) trace := by
  have delivers : ∀ k, HttpRegistry.Delivers (refusedOnce k) := by
    rintro (_ | k) failure failed
    · cases failed
      rfl
    · cases failed
  obtain ⟨⟨trace, result, after, stop, polls, obeys⟩, told⟩ :=
    verifyRegistry_finds_first ordersOnly (.start ordersOnly.wait)
      (fun k => schemaRegistry.probed (refusedOnce k)) .verifyingRegistry
  obtain ⟨finds, -⟩ := told trace result after stop polls obeys
  obtain ⟨returns, found, -⟩ := (finds fun _ _ => ordersOnly_grows).2 schemaRegistry refusedOnce
    rfl delivers fun _ => rfl
  have refused : ¬ schemaRegistry.Succeeds (refusedOnce 0) := by
    have failed : (schemaRegistry.requested (refusedOnce 0)).toBool = false := by decide +kernel
    rintro ⟨status, answered, -⟩
    rw [answered] at failed
    cases failed
  have answered : schemaRegistry.requested (refusedOnce 1) = .ok 204 := by decide +kernel
  have second : schemaRegistry.Succeeds (refusedOnce 1) :=
    ⟨204, answered, by decide, by decide⟩
  have within : 1 ≤ ordersOnly.budget (.start ordersOnly.wait) := by decide
  have first : ∀ j < 1, ¬ schemaRegistry.Succeeds (refusedOnce j) := by
    intro j earlier
    obtain rfl : j = 0 := by omega
    exact refused
  obtain ⟨takes, attempts⟩ := found 1 within second first
  exact ⟨rfl, delivers, ordersOnly_grows, trace, result, after, stop, polls, obeys,
    returns.mpr ⟨1, within, second⟩, attempts, takes⟩

end Refused

end Reconciler

end ClusterReadiness
