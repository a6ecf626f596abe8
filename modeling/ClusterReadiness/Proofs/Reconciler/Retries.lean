import ClusterReadiness.Proofs.Reconciler.Work

/-!
# Runs of retried calls

`Attempts` tells a retried call attempt by attempt: which exchanges it may take and what it then
comes to. Log lines are part of a trace, but their texts are left open.
-/

namespace ClusterReadiness

namespace Reconciler

variable {α : Type} {start stop : Phase} {trace : List Exchange}

/-- The exchanges of a retried call from the attempt of the given number on, with `left` attempts
after it, and what they come to. -/
inductive Attempts (policy : RetryPolicy) (call : Program (Result α)) :
    Int → Nat → List Exchange → Result α → Prop where
  | returned {number : Int} {left : Nat} {trace : List Exchange} {value : α}
      (called : Runs call trace (.ok value)) :
      Attempts policy call number left trace (.ok value)
  | refused {number : Int} {left : Nat} {trace : List Exchange} {failure : Failure}
      (called : Runs call trace (.error failure)) (final : failure.isRetryable = false) :
      Attempts policy call number left trace (.error failure)
  | exhausted {number : Int} {trace : List Exchange} {failure : Failure} {message : String}
      (called : Runs call trace (.error failure)) (retryable : failure.isRetryable = true) :
      Attempts policy call number 0 (trace ++ [logged .warning message])
        (.error (.because (.retryExhausted number failure.fault) failure))
  | undelayed {number : Int} {left : Nat} {trace : List Exchange} {failure : Failure}
      {reason : Overflow} (called : Runs call trace (.error failure))
      (retryable : failure.isRetryable = true) (delay : policy.delayAfter number = .error reason) :
      Attempts policy call number (left + 1) trace (.error (.of (.overflow reason)))
  | cutShort {number : Int} {left : Nat} {trace : List Exchange} {failure cut : Failure}
      {pause : Number} {message : String} (called : Runs call trace (.error failure))
      (retryable : failure.isRetryable = true) (delay : policy.delayAfter number = .ok pause) :
      Attempts policy call number (left + 1)
        (trace ++ [logged .warning message, ⟨.sleep pause, .error cut⟩]) (.error cut)
  | again {number : Int} {left : Nat} {trace rest : List Exchange} {failure : Failure}
      {pause : Number} {message : String} {result : Result α}
      (called : Runs call trace (.error failure)) (retryable : failure.isRetryable = true)
      (delay : policy.delayAfter number = .ok pause)
      (more : Attempts policy call (number + 1) left rest result) :
      Attempts policy call number (left + 1)
        (trace ++ [logged .warning message, ⟨.sleep pause, .ok ()⟩] ++ rest) result

theorem runs_lift_iff {program : Program α} {value : α} :
    Runs ((liftM program : StateT Phase Program α).run start) trace (value, stop) ↔
      Runs program trace value ∧ stop = start := by
  show Runs (program >>= fun value => .done (value, start)) trace (value, stop) ↔ _
  rw [runs_bind_iff]
  constructor
  · rintro ⟨first, other, rest, hfirst, hrest, rfl⟩
    obtain ⟨rfl, h⟩ := runs_done_iff.mp hrest
    obtain ⟨rfl, rfl⟩ := Prod.mk.inj h
    exact ⟨by simpa using hfirst, rfl⟩
  · rintro ⟨run, rfl⟩
    exact ⟨trace, value, [], run, .done _, by simp⟩

theorem runs_record_iff {level : Level} {message : String} :
    Runs ((record level message).run start) trace ((), stop) ↔
      trace = [logged level message] ∧ stop = start := by
  show Runs (.ask (.record level message) fun answer => .done (answer, start)) trace
    ((), stop) ↔ _
  rw [runs_ask_done_iff]
  constructor
  · rintro ⟨_, rfl, h⟩
    exact ⟨rfl, (Prod.mk.inj h).2⟩
  · rintro ⟨rfl, rfl⟩
    exact ⟨(), rfl, rfl⟩

theorem runs_sleep_iff {delay : Number} {result : Result Unit} :
    Runs ((sleep delay).run start) trace (result, stop) ↔
      trace = [⟨.sleep delay, result⟩] ∧ stop = start := by
  show Runs (.ask (.sleep delay) fun answer => .done (answer, start)) trace
    (result, stop) ↔ _
  rw [runs_ask_done_iff]
  constructor
  · rintro ⟨_, rfl, h⟩
    obtain ⟨rfl, rfl⟩ := Prod.mk.inj h
    exact ⟨rfl, rfl⟩
  · rintro ⟨rfl, rfl⟩
    exact ⟨result, rfl, rfl⟩

theorem runs_stateT_bind_iff {β : Type} {work : StateT Phase Program α}
    {next : α → StateT Phase Program β} {value : β} :
    Runs ((work >>= next).run start) trace (value, stop) ↔
      ∃ first other middle rest, Runs (work.run start) first (other, middle) ∧
        Runs ((next other).run middle) rest (value, stop) ∧ trace = first ++ rest := by
  rw [StateT.run_bind, runs_bind_iff]
  constructor
  · rintro ⟨first, ⟨other, middle⟩, rest, hfirst, hrest, rfl⟩
    exact ⟨first, other, middle, rest, hfirst, hrest, rfl⟩
  · rintro ⟨first, other, middle, rest, hfirst, hrest, rfl⟩
    exact ⟨first, (other, middle), rest, hfirst, hrest, rfl⟩

theorem runs_stateT_pure_iff {value other : α} :
    Runs ((pure value : StateT Phase Program α).run start) trace (other, stop) ↔
      trace = [] ∧ other = value ∧ stop = start := by
  show Runs (.done (value, start)) trace (other, stop) ↔ _
  rw [runs_done_iff, Prod.mk.injEq]

theorem runs_attempt {policy : RetryPolicy} {name : String} {call : Program (Result α)}
    {number : Int} {left : Nat} {start : Phase} {trace : List Exchange} {result : Result α}
    (run : Runs ((policy.attempt name sleep record (liftM call) number left).run start) trace
      (result, stop)) : Attempts policy call number left trace result ∧ stop = start := by
  rw [RetryPolicy.attempt.eq_def, runs_stateT_bind_iff] at run
  obtain ⟨first, outcome, middle, rest, hcall, hrest, rfl⟩ := run
  obtain ⟨called, rfl⟩ := runs_lift_iff.mp hcall
  cases outcome with
  | ok value =>
    obtain ⟨rfl, rfl, rfl⟩ := runs_stateT_pure_iff.mp hrest
    exact ⟨by simpa using Attempts.returned called, rfl⟩
  | error failure =>
    cases retryable : failure.isRetryable with
    | false =>
      simp only [retryable, Bool.not_false, if_true] at hrest
      obtain ⟨rfl, rfl, rfl⟩ := runs_stateT_pure_iff.mp hrest
      exact ⟨by simpa using Attempts.refused called retryable, rfl⟩
    | true =>
      simp only [retryable, Bool.not_true, Bool.false_eq_true, if_false] at hrest
      cases left with
      | zero =>
        rw [runs_stateT_bind_iff] at hrest
        obtain ⟨line, _, middle, last, hline, hlast, rfl⟩ := hrest
        obtain ⟨rfl, rfl⟩ := runs_record_iff.mp hline
        obtain ⟨rfl, rfl, rfl⟩ := runs_stateT_pure_iff.mp hlast
        exact ⟨by simpa using Attempts.exhausted called retryable, rfl⟩
      | succ left =>
        cases delay : policy.delayAfter number with
        | error reason =>
          simp only [delay] at hrest
          obtain ⟨rfl, rfl, rfl⟩ := runs_stateT_pure_iff.mp hrest
          exact ⟨by simpa using Attempts.undelayed called retryable delay, rfl⟩
        | ok pause =>
          simp only [delay, runs_stateT_bind_iff] at hrest
          obtain ⟨line, _, middle, last, hline, hlast, rfl⟩ := hrest
          obtain ⟨rfl, rfl⟩ := runs_record_iff.mp hline
          obtain ⟨slept, woken, middle, last, hslept, hlast, rfl⟩ := hlast
          obtain ⟨rfl, rfl⟩ := runs_sleep_iff.mp hslept
          cases woken with
          | error cut =>
            obtain ⟨rfl, rfl, rfl⟩ := runs_stateT_pure_iff.mp hlast
            exact ⟨by simpa using Attempts.cutShort called retryable delay, rfl⟩
          | ok _ =>
            obtain ⟨more, rfl⟩ := runs_attempt hlast
            exact ⟨by simpa using Attempts.again called retryable delay more, rfl⟩

/-- Exhausted retries surface as a failure of their own; every other failure surfaces as it is. -/
def surfacing (giveUp : Fault) : Result α → Result α
  | .ok value => .ok value
  | .error failure =>
    match failure.fault with
    | .retryExhausted .. => .error (.because giveUp failure)
    | _ => .error failure

theorem eq_ok_of_surfacing {giveUp : Fault} {value : α} {outcome : Result α}
    (surfaced : .ok value = surfacing giveUp outcome) : outcome = .ok value := by
  cases outcome with
  | ok other => exact surfaced.symm
  | error failure =>
    simp only [surfacing] at surfaced
    split at surfaced <;> cases surfaced

/-- The attempts that a policy allows after the first. -/
def spare (policy : RetryPolicy) : Nat := (policy.maxAttempts - 1).toNat

theorem goes_retried {reconciler : Reconciler} {name : String} {giveUp : Fault}
    {call : Program (Result α)} {result : Result α}
    (goes : Goes (reconciler.retried name giveUp call) start trace result stop) :
    ∃ outcome, Attempts reconciler.retry call 1 (spare reconciler.retry) trace outcome ∧
      result = surfacing giveUp outcome ∧ stop = start := by
  rcases goes_bind_iff.mp goes with
    ⟨_, hfirst, _⟩ | ⟨first, outcome, middle, rest, hfirst, hrest, rfl⟩
  · obtain ⟨_, _, h⟩ := goes_lift_iff.mp hfirst
    cases h
  · obtain ⟨_, run, h⟩ := goes_lift_iff.mp hfirst
    cases h
    obtain ⟨attempts, rfl⟩ := runs_attempt run
    refine ⟨outcome, ?_⟩
    cases outcome with
    | ok value =>
      obtain ⟨rfl, rfl, rfl⟩ := goes_pure_iff.mp hrest
      exact ⟨by rwa [List.append_nil], rfl, rfl⟩
    | error failure =>
      simp only at hrest
      split at hrest
      · rename_i spent
        obtain ⟨rfl, rfl, rfl⟩ := goes_throw_iff.mp hrest
        exact ⟨by rwa [List.append_nil], by simp [surfacing, spent], rfl⟩
      · obtain ⟨rfl, rfl, rfl⟩ := goes_throw_iff.mp hrest
        exact ⟨by rwa [List.append_nil], by simp only [surfacing], rfl⟩

section Calls

variable {policy : RetryPolicy} {call : Program (Result α)} {number : Int} {left : Nat}
  {outcome : Result α}

/-- A retried call exchanges what the call does, log lines and sleeps. -/
theorem Attempts.forall_mem {P : Exchange → Prop}
    (attempts : Attempts policy call number left trace outcome)
    (calls : ∀ t result, Runs call t result → ∀ e ∈ t, P e)
    (lines : ∀ message, P (logged .warning message))
    (sleeps : ∀ delay result, P ⟨.sleep delay, result⟩) : ∀ e ∈ trace, P e := by
  induction attempts with
  | returned called => exact calls _ _ called
  | refused called _ => exact calls _ _ called
  | exhausted called _ =>
    intro e he
    rcases List.mem_append.mp he with he | he
    · exact calls _ _ called e he
    · rw [List.mem_singleton.mp he]
      exact lines _
  | undelayed called _ _ => exact calls _ _ called
  | cutShort called _ _ =>
    intro e he
    simp only [List.mem_append, List.mem_cons, List.not_mem_nil, or_false] at he
    rcases he with he | rfl | rfl
    · exact calls _ _ called e he
    · exact lines _
    · exact sleeps _ _
  | again called _ _ _ ih =>
    intro e he
    simp only [List.mem_append, List.mem_cons, List.not_mem_nil, or_false] at he
    rcases he with (he | rfl | rfl) | he
    · exact calls _ _ called e he
    · exact lines _
    · exact sleeps _ _
    · exact ih e he

/-- A value is what the last call returned. -/
theorem Attempts.last_call {value : α}
    (attempts : Attempts policy call number left trace (.ok value)) :
    ∃ before last, trace = before ++ last ∧ Runs call last (.ok value) := by
  generalize hresult : Except.ok value = result at attempts
  induction attempts with
  | returned called =>
    cases hresult
    exact ⟨[], _, rfl, called⟩
  | again _ _ _ _ ih =>
    obtain ⟨before, last, rfl, called⟩ := ih hresult
    exact ⟨_, last, (List.append_assoc ..).symm, called⟩
  | _ => cases hresult

end Calls

end Reconciler

end ClusterReadiness
