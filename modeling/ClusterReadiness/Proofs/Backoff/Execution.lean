import ClusterReadiness.Proofs.Program.Runs
import ClusterReadiness.Backoff.Retry
import Mathlib.Order.Bounds.Basic

/-!
# The course of a retried operation

An operation is called with outcomes that are given in advance, and a sleeper wakes from each
sleep as is given in advance. The call that decides is the first one that must not be repeated, or
the last one that the policy allows. It is reached unless a sleep before it fails, and a sleep that
fails ends the whole with its own failure. Texts of log lines are not looked at.
-/

namespace ClusterReadiness

namespace RetryPolicy

variable {α : Type}

section Steps

/-- One step of a retried operation. -/
inductive Step (α : Type) where
  | called (outcome : Result α)
  | noted (level : Level) (message : String)
  | slept (delay : Number)

def Step.outcome? : Step α → Option (Result α)
  | called outcome => some outcome
  | _ => none

def Step.delay? : Step α → Option Number
  | slept delay => some delay
  | _ => none

/-- The outcomes of the calls that were made. -/
def calls (steps : List (Step α)) : List (Result α) := steps.filterMap Step.outcome?

/-- The delays that were asked for. -/
def sleeps (steps : List (Step α)) : List Number := steps.filterMap Step.delay?

/-- Calls and sleeps are numbered from one. -/
def calling (outcomes : Nat → Result α) : StateM (List (Step α)) (Result α) := fun steps =>
  let outcome := outcomes ((calls steps).length + 1)
  (outcome, steps ++ [.called outcome])

def sleeping (wakings : Nat → Result Unit) (delay : Number) :
    StateM (List (Step α)) (Result Unit) := fun steps =>
  (wakings ((sleeps steps).length + 1), steps ++ [.slept delay])

def noting (level : Level) (message : String) : StateM (List (Step α)) Unit := fun steps =>
  ((), steps ++ [.noted level message])

@[simp] theorem calls_append {first rest : List (Step α)} :
    calls (first ++ rest) = calls first ++ calls rest := List.filterMap_append

@[simp] theorem sleeps_append {first rest : List (Step α)} :
    sleeps (first ++ rest) = sleeps first ++ sleeps rest := List.filterMap_append

@[simp] theorem calls_nil : calls ([] : List (Step α)) = [] := rfl

@[simp] theorem calls_called {outcome : Result α} {rest : List (Step α)} :
    calls (.called outcome :: rest) = outcome :: calls rest := rfl

@[simp] theorem calls_noted {level : Level} {message : String} {rest : List (Step α)} :
    calls (.noted level message :: rest) = calls rest := rfl

@[simp] theorem calls_slept {delay : Number} {rest : List (Step α)} :
    calls (.slept delay :: rest) = calls rest := rfl

@[simp] theorem sleeps_nil : sleeps ([] : List (Step α)) = [] := rfl

@[simp] theorem sleeps_called {outcome : Result α} {rest : List (Step α)} :
    sleeps (.called outcome :: rest) = sleeps rest := rfl

@[simp] theorem sleeps_noted {level : Level} {message : String} {rest : List (Step α)} :
    sleeps (.noted level message :: rest) = sleeps rest := rfl

@[simp] theorem sleeps_slept {delay : Number} {rest : List (Step α)} :
    sleeps (.slept delay :: rest) = delay :: sleeps rest := rfl

theorem run_bind {β : Type} {work : StateM (List (Step α)) β}
    {next : β → StateM (List (Step α)) (Result α)} {steps : List (Step α)} :
    (work >>= next).run steps = (next (work.run steps).1).run (work.run steps).2 := rfl

@[simp] theorem run_calling {outcomes : Nat → Result α} {steps : List (Step α)} :
    (calling outcomes).run steps = (outcomes ((calls steps).length + 1),
      steps ++ [.called (outcomes ((calls steps).length + 1))]) := rfl

@[simp] theorem run_sleeping {wakings : Nat → Result Unit} {delay : Number}
    {steps : List (Step α)} : (sleeping wakings delay).run steps =
      (wakings ((sleeps steps).length + 1), steps ++ [.slept delay]) := rfl

@[simp] theorem run_noting {level : Level} {message : String} {steps : List (Step α)} :
    (noting level message).run steps = ((), steps ++ [.noted level message]) := rfl

end Steps

section Course

/-- An outcome after which the operation may be called again. -/
def Retried : Result α → Prop
  | .ok _ => False
  | .error failure => failure.isRetryable = true

/-- No call follows the one of this number, whatever the sleeper does. -/
def Decides (policy : RetryPolicy) (outcomes : Nat → Result α) (number : Nat) : Prop :=
  ¬ Retried (outcomes number) ∨ (number : Int) = policy.maxAttempts

/-- What the outcome of the deciding call is made into: a failure that might have been retried is
the cause of another one, and all else stays as it is. -/
def verdict (policy : RetryPolicy) : Result α → Result α
  | .ok value => .ok value
  | .error failure =>
    if failure.isRetryable then
      .error (.because (.retryExhausted policy.maxAttempts failure.fault) failure)
    else .error failure

theorem exists_of_retried {outcome : Result α} (retried : Retried outcome) :
    ∃ failure, outcome = .error failure ∧ failure.isRetryable = true := by
  cases outcome with
  | ok value => exact retried.elim
  | error failure => exact ⟨failure, rfl, retried⟩

theorem verdict_final {policy : RetryPolicy} {outcome : Result α} (final : ¬ Retried outcome) :
    policy.verdict outcome = outcome := by
  cases outcome with
  | ok value => rfl
  | error failure => exact if_neg final

variable {policy : RetryPolicy} {name : String} {outcomes : Nat → Result α}
  {wakings : Nat → Result Unit} {delays : Nat → Number} {steps : List (Step α)}
  {past left : Nat}

/-- The course from some steps on. -/
def courseFrom (policy : RetryPolicy) (name : String) (outcomes : Nat → Result α)
    (wakings : Nat → Result Unit) (number : Int) (left : Nat) (steps : List (Step α)) :
    Result α × List (Step α) :=
  (policy.attempt name (sleeping wakings) noting (calling outcomes) number left).run steps

section Attempts

variable {number : Int} {failure : Failure} {delay : Number}

theorem courseFrom_final {outcome : Result α} (here : outcomes ((calls steps).length + 1) = outcome)
    (final : ¬ Retried outcome) : courseFrom policy name outcomes wakings number left steps =
      (outcome, steps ++ [.called outcome]) := by
  rw [courseFrom, attempt.eq_def, run_bind, run_calling, here]
  cases outcome with
  | ok value => rfl
  | error failure =>
    have unretried : failure.isRetryable = false := by simpa [Retried] using final
    simp only [unretried]
    rfl

theorem courseFrom_last (here : outcomes ((calls steps).length + 1) = .error failure)
    (retried : failure.isRetryable = true) :
    courseFrom policy name outcomes wakings number 0 steps =
      (.error (.because (.retryExhausted number failure.fault) failure),
        steps ++ [.called (.error failure), .noted .warning (policy.attemptText name number ++
          ", giving up: " ++ failure.message)]) := by
  rw [courseFrom, attempt.eq_def, run_bind, run_calling, here]
  simp only [retried, Bool.not_true, Bool.false_eq_true, if_false, run_bind, run_noting,
    List.append_assoc, List.singleton_append]
  rfl

/-- A failed call that is neither final nor the last, and the sleep after it. -/
theorem courseFrom_again (name : String) (wakings : Nat → Result Unit) (left : Nat)
    (here : outcomes ((calls steps).length + 1) = .error failure)
    (retried : failure.isRetryable = true) (timed : policy.delayAfter number = .ok delay) :
    ∃ between, calls between = calls steps ++ [.error failure] ∧
      sleeps between = sleeps steps ++ [delay] ∧
      courseFrom policy name outcomes wakings number (left + 1) steps =
        match wakings ((sleeps steps).length + 1) with
        | .error cut => (.error cut, between)
        | .ok () => courseFrom policy name outcomes wakings (number + 1) left between := by
  refine ⟨steps ++ [.called (.error failure), .noted .warning (policy.attemptText name number ++
    ", retrying in " ++ delay.text ++ " ms: " ++ failure.message), .slept delay], ?_, ?_, ?_⟩
  · simp
  · simp
  · rw [courseFrom, attempt.eq_def, run_bind, run_calling, here]
    simp only [retried, timed, Bool.not_true, Bool.false_eq_true, if_false, run_bind, run_noting,
      run_sleeping, List.append_assoc, List.singleton_append, sleeps_append, sleeps_called,
      sleeps_noted, sleeps_nil, List.append_nil]
    cases wakings ((sleeps steps).length + 1) <;> rfl

end Attempts

/-- A course that ends with this result, after calls with the next outcomes and sleeps with the next
delays, so many of each. -/
structure Ends (outcomes : Nat → Result α) (delays : Nat → Number) (past called slept : Nat)
    (steps : List (Step α)) (result : Result α) (course : Result α × List (Step α)) : Prop where
  result_eq : course.1 = result
  calls_eq : calls course.2 = calls steps ++ (List.range' (past + 1) called).map outcomes
  sleeps_eq : sleeps course.2 = sleeps steps ++ (List.range' (past + 1) slept).map delays

/-- What follows a call and the sleep after it, seen from before them. -/
theorem Ends.again {called slept : Nat} {result : Result α} {course : Result α × List (Step α)}
    {between : List (Step α)}
    (onward : Ends outcomes delays (past + 1) called slept between result course)
    (calls_eq : calls between = calls steps ++ [outcomes (past + 1)])
    (sleeps_eq : sleeps between = sleeps steps ++ [delays (past + 1)]) :
    Ends outcomes delays past (called + 1) (slept + 1) steps result course where
  result_eq := onward.result_eq
  calls_eq := by
    rw [onward.calls_eq, calls_eq, List.range'_succ, List.map_cons, List.append_assoc]
    rfl
  sleeps_eq := by
    rw [onward.sleeps_eq, sleeps_eq, List.range'_succ, List.map_cons, List.append_assoc]
    rfl

/-- The calls after those of the past that decide. -/
def deciding (policy : RetryPolicy) (outcomes : Nat → Result α) (past : Nat) : Set Nat :=
  {number | past < number ∧ policy.Decides outcomes number}

theorem isLeast_deciding_next (decides : policy.Decides outcomes (past + 1)) :
    IsLeast (policy.deciding outcomes past) (past + 1) :=
  ⟨⟨Nat.lt_succ_self past, decides⟩, fun _ later => later.1⟩

theorem isLeast_deciding_of_next {number : Nat}
    (least : IsLeast (policy.deciding outcomes (past + 1)) number)
    (undecided : ¬ policy.Decides outcomes (past + 1)) :
    IsLeast (policy.deciding outcomes past) number := by
  constructor
  · exact ⟨Nat.lt_of_succ_lt least.1.1, least.1.2⟩
  · rintro other ⟨later, decides⟩
    apply least.2
    refine ⟨?_, decides⟩
    by_cases next : other = past + 1
    · exact absurd (next ▸ decides) undecided
    · omega

/-- How a course goes on from some calls and as many sleeps: to the first call that decides, unless
a sleep before it fails. -/
def Concludes (policy : RetryPolicy) (outcomes : Nat → Result α) (wakings : Nat → Result Unit)
    (delays : Nat → Number) (past : Nat) (steps : List (Step α))
    (course : Result α × List (Step α)) : Prop :=
  ∃ last, IsLeast (policy.deciding outcomes past) last ∧
    ((∀ n, past < n → n < last → wakings n = .ok ()) →
      Ends outcomes delays past (last - past) (last - past - 1) steps
        (policy.verdict (outcomes last)) course) ∧
    ∀ n cut, past < n → n < last → (∀ earlier, past < earlier → earlier < n →
      wakings earlier = .ok ()) → wakings n = .error cut →
      Ends outcomes delays past (n - past) (n - past) steps (.error cut) course

theorem Ends.concludes {course : Result α × List (Step α)}
    (ends : Ends outcomes delays past 1 0 steps (policy.verdict (outcomes (past + 1))) course)
    (decides : policy.Decides outcomes (past + 1)) :
    policy.Concludes outcomes wakings delays past steps course := by
  refine ⟨past + 1, isLeast_deciding_next decides, fun _ => ?_, fun n _ more less => by omega⟩
  rw [Nat.add_sub_cancel_left, Nat.sub_self]
  exact ends

/-- A sleep that fails leaves nothing to the calls after it. -/
theorem Ends.cutShort {course : Result α × List (Step α)} {cut : Failure} {last : Nat}
    (ends : Ends outcomes delays past 1 1 steps (.error cut) course)
    (woken : wakings (past + 1) = .error cut)
    (least : IsLeast (policy.deciding outcomes (past + 1)) last)
    (undecided : ¬ policy.Decides outcomes (past + 1)) :
    policy.Concludes outcomes wakings delays past steps course := by
  have behind : past + 1 < last := least.1.1
  refine ⟨last, isLeast_deciding_of_next least undecided, fun slept => ?_, ?_⟩
  · have awake := slept (past + 1) (by omega) behind
    rw [woken] at awake
    cases awake
  · intro n other more less earlier stopped
    by_cases here : n = past + 1
    · subst here
      obtain rfl : cut = other := Except.error.inj (woken.symm.trans stopped)
      rwa [Nat.add_sub_cancel_left]
    · have awake := earlier (past + 1) (by omega) (by omega)
      rw [woken] at awake
      cases awake

theorem Concludes.again {course : Result α × List (Step α)} {between : List (Step α)}
    (onward : policy.Concludes outcomes wakings delays (past + 1) between course)
    (woken : wakings (past + 1) = .ok ()) (undecided : ¬ policy.Decides outcomes (past + 1))
    (calls_eq : calls between = calls steps ++ [outcomes (past + 1)])
    (sleeps_eq : sleeps between = sleeps steps ++ [delays (past + 1)]) :
    policy.Concludes outcomes wakings delays past steps course := by
  obtain ⟨last, least, through, cutShort⟩ := onward
  have behind : past + 1 < last := least.1.1
  refine ⟨last, isLeast_deciding_of_next least undecided, fun slept => ?_, ?_⟩
  · have ends := (through fun n more less => slept n (by omega) less).again calls_eq sleeps_eq
    have called : last - (past + 1) + 1 = last - past := by omega
    have rested : last - (past + 1) - 1 + 1 = last - past - 1 := by omega
    rwa [called, rested] at ends
  · intro n cut more less earlier stopped
    by_cases here : n = past + 1
    · rw [here, woken] at stopped
      cases stopped
    · have ends := (cutShort n cut (by omega) less (fun e after before =>
        earlier e (by omega) before) stopped).again calls_eq sleeps_eq
      have count : n - (past + 1) + 1 = n - past := by omega
      rwa [count] at ends

theorem concludes_of_final {number : Int} (called : (calls steps).length = past)
    (final : ¬ Retried (outcomes (past + 1))) :
    policy.Concludes outcomes wakings delays past steps
      (courseFrom policy name outcomes wakings number left steps) := by
  apply Ends.concludes _ (.inl final)
  rw [courseFrom_final (congrArg (outcomes <| · + 1) called) final, verdict_final final]
  constructor <;> simp

theorem concludes_of_last (called : (calls steps).length = past)
    (all : ((past + 1 : Nat) : Int) = policy.maxAttempts) :
    policy.Concludes outcomes wakings delays past steps
      (courseFrom policy name outcomes wakings ((past + 1 : Nat) : Int) 0 steps) := by
  by_cases retried : Retried (outcomes (past + 1))
  · obtain ⟨failure, here, retryable⟩ := exists_of_retried retried
    apply Ends.concludes _ (.inr all)
    rw [courseFrom_last (called ▸ here) retryable, here]
    constructor
    · simp [verdict, retryable, ← all]
    · simp [here]
    · simp
  · exact concludes_of_final called retried

theorem courseFrom_concludes (whole : (past : Int) + 1 + left = policy.maxAttempts)
    (timed : ∀ n : Nat, past < n → n ≤ past + left → policy.delayAfter n = .ok (delays n))
    (called : (calls steps).length = past) (slept : (sleeps steps).length = past) :
    policy.Concludes outcomes wakings delays past steps
      (courseFrom policy name outcomes wakings ((past + 1 : Nat) : Int) left steps) := by
  induction left generalizing past steps with
  | zero => exact concludes_of_last called (by omega)
  | succ left ih =>
    by_cases retried : Retried (outcomes (past + 1))
    · obtain ⟨failure, here, retryable⟩ := exists_of_retried retried
      have undecided : ¬ policy.Decides outcomes (past + 1) := by
        rintro (final | all)
        · exact final retried
        · omega
      have delay := timed (past + 1) (by omega) (by omega)
      obtain ⟨between, calls_eq, sleeps_eq, course⟩ :=
        courseFrom_again name wakings left (called ▸ here) retryable delay
      rw [slept] at course
      have onward := @ih between (past + 1) (by omega)
        (fun n more less => timed n (by omega) (by omega)) (by simp [calls_eq, called])
        (by simp [sleeps_eq, slept])
      rw [course]
      cases woken : wakings (past + 1) with
      | error cut =>
        obtain ⟨last, least, -⟩ := onward
        refine Ends.cutShort ⟨rfl, ?_, ?_⟩ woken least undecided
        · simpa [here] using calls_eq
        · simpa using sleeps_eq
      | ok _ => exact onward.again woken undecided (here ▸ calls_eq) sleeps_eq
    · exact concludes_of_final called retried

/-- An operation is called until a call decides, with the policy's delays between the calls; it then
comes to what the deciding call came to, or to exhausted retries if that call might have been
repeated. A sleep that fails before ends it after as many calls as sleeps, with its own failure. -/
theorem execute_until_decided (policy : RetryPolicy) (name : String) (outcomes : Nat → Result α)
    (wakings : Nat → Result Unit) (delays : Nat → Number)
    (timed : ∀ n : Nat, 1 ≤ n → n < policy.maxAttempts → policy.delayAfter n = .ok (delays n)) :
    let course := (policy.execute name (sleeping wakings) noting (calling outcomes)).run []
    ∃ last : Nat, IsLeast {n | 1 ≤ n ∧ policy.Decides outcomes n} last ∧
      ((∀ n, 1 ≤ n → n < last → wakings n = .ok ()) →
        course.1 = policy.verdict (outcomes last) ∧
        calls course.2 = (List.range' 1 last).map outcomes ∧
        sleeps course.2 = (List.range' 1 (last - 1)).map delays) ∧
      ∀ n cut, 1 ≤ n → n < last → (∀ earlier, 1 ≤ earlier → earlier < n →
        wakings earlier = .ok ()) → wakings n = .error cut →
        course.1 = .error cut ∧
        calls course.2 = (List.range' 1 n).map outcomes ∧
        sleeps course.2 = (List.range' 1 n).map delays := by
  intro course
  have positive := policy.attempts_pos
  have concludes : policy.Concludes outcomes wakings delays 0 []
      (courseFrom policy name outcomes wakings ((0 + 1 : Nat) : Int)
        (policy.maxAttempts - 1).toNat []) :=
    courseFrom_concludes (by omega) (fun n more less => timed n more (by omega)) rfl rfl
  obtain ⟨last, least, through, cutShort⟩ := concludes
  refine ⟨last, least, fun slept => ?_, fun n cut more less earlier woken => ?_⟩
  · have ends := through slept
    exact ⟨ends.result_eq, ends.calls_eq, ends.sleeps_eq⟩
  · have ends := cutShort n cut more less earlier woken
    exact ⟨ends.result_eq, ends.calls_eq, ends.sleeps_eq⟩

/-- Failures of an operation, the second of which reads as if retries of its own were exhausted. -/
def nestedFailure (number : Nat) : Failure :=
  if number = 2 then .of (.retryExhausted 5 (.timeout "broker away"))
  else .of (.adminCall "list_topics" "broker away")

/-- Three attempts fail, and the exhausted retries among the failures are no last word. -/
theorem execute_until_decided_exhausted :
    let delays : Nat → Number := fun n => if n = 1 then .float 1000.0 else .float 2000.0
    let course := (default.execute "list topics" (sleeping fun _ => .ok ()) noting
      (calling fun n => (.error (nestedFailure n) : Result Unit))).run []
    (∀ n : Nat, 1 ≤ n → n < default.maxAttempts → default.delayAfter n = .ok (delays n)) ∧
      course.1 = .error (.because (.retryExhausted 3 (nestedFailure 3).fault) (nestedFailure 3)) ∧
      calls course.2 = [.error (nestedFailure 1), .error (nestedFailure 2),
        .error (nestedFailure 3)] ∧
      sleeps course.2 = [.float 1000.0, .float 2000.0] := by
  intro delays course
  have timed : ∀ n : Nat, 1 ≤ n → n < default.maxAttempts →
      default.delayAfter n = .ok (delays n) := by
    intro n more less
    have few : n < 3 := Int.ofNat_lt.mp less
    obtain rfl | rfl : n = 1 ∨ n = 2 := by omega
    · decide +kernel
    · decide +kernel
  obtain ⟨last, least, through, -⟩ := execute_until_decided default "list topics"
    (fun n => (.error (nestedFailure n) : Result Unit)) (fun _ => .ok ()) delays timed
  have retried : ∀ n, Retried (.error (nestedFailure n) : Result Unit) := by
    intro n
    unfold nestedFailure
    split <;> rfl
  obtain rfl : last = 3 := by
    rcases least.1.2 with final | all
    · exact absurd (retried last) final
    · exact Int.ofNat_inj.mp all
  obtain ⟨result, called, slept⟩ := through fun _ _ _ => rfl
  exact ⟨timed, result, called, slept⟩

end Course

end RetryPolicy

end ClusterReadiness
