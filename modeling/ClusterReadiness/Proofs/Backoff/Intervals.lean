import ClusterReadiness.Proofs.Backoff.Turns
import ClusterReadiness.Proofs.Number.Factors

/-!
# The intervals of a wait policy

The first interval of a wait is an integer, and a value once it has grown. From one value to the
next an interval never shrinks. The first growth is another matter: there is none where no value is
close to the integer, a NaN makes it a NaN, and the factor one leaves it at the closest value, which
may be below the integer.
-/

namespace ClusterReadiness

open Binary64

namespace WaitPolicy

open Number PollState

/-- A call under the policy, with a sleeper that never fails. -/
def undisturbed (policy : WaitPolicy) : Call := ⟨policy, fun _ => .ok ()⟩

/-- The delays that were asked for. -/
def delays (turns : List Turn) : List Number := turns.flatMap (·.delays)

/-- No call fails, and every delay is a number that is at least the one before it, which is `lower`
at first, and at least `least`. -/
structure Rises (least lower : Number) (turns : List Turn) : Prop where
  unfailing : ∀ turn ∈ turns, ∃ granted, turn.answer = .ok granted
  growing : (lower :: delays turns).IsChain AtMost
  bounded : ∀ delay ∈ delays turns, least.AtMost delay

/-- So many calls from the start. -/
def course (policy : WaitPolicy) (calls : ℕ) : List Turn :=
  (start policy).turns (List.replicate calls policy.undisturbed)

/-- The calls do not fail, and their delays never shrink, from the interval of the policy on. -/
def Steady (policy : WaitPolicy) (calls : ℕ) : Prop :=
  Rises (.int policy.interval) (.int policy.interval) (policy.course calls)

variable {policy : WaitPolicy} {poll : PollState} {least lower : Number} {calls n : ℕ}
  {x : Float} {u v : WithTop ℚ}

section Turns

theorem rises_nil : Rises least lower [] :=
  ⟨List.forall_mem_nil _, .singleton _, List.forall_mem_nil _⟩

theorem rises_refused_iff {turn : Turn} {rest : List Turn} (refused : Refused turn) :
    Rises least lower (turn :: rest) ↔ Rises least lower rest := by
  have same : delays (turn :: rest) = delays rest := by
    rw [delays, List.flatMap_cons, refused.delays_eq, List.nil_append]
    rfl
  constructor
  · rintro ⟨unfailing, growing, bounded⟩
    rw [same] at growing bounded
    exact ⟨(List.forall_mem_cons.mp unfailing).2, growing, bounded⟩
  · rintro ⟨unfailing, growing, bounded⟩
    refine ⟨List.forall_mem_cons.mpr ⟨⟨false, refused.answer_eq⟩, unfailing⟩, ?_, ?_⟩
    · rwa [same]
    · rwa [same]

theorem rises_asked_iff {turn : Turn} {rest : List Turn} {delay : Number}
    (asked : turn.delays = [delay]) : Rises least lower (turn :: rest) ↔
      (∃ granted, turn.answer = .ok granted) ∧ lower.AtMost delay ∧ least.AtMost delay ∧
        Rises least delay rest := by
  have split : delays (turn :: rest) = delay :: delays rest := by
    rw [delays, List.flatMap_cons, asked, List.singleton_append]
    rfl
  constructor
  · rintro ⟨unfailing, growing, bounded⟩
    rw [split] at growing bounded
    obtain ⟨answered, others⟩ := List.forall_mem_cons.mp unfailing
    obtain ⟨above, onward⟩ := List.isChain_cons_cons.mp growing
    obtain ⟨here, later⟩ := List.forall_mem_cons.mp bounded
    exact ⟨answered, above, here, others, onward, later⟩
  · rintro ⟨answered, above, here, others, onward, later⟩
    refine ⟨List.forall_mem_cons.mpr ⟨answered, others⟩, ?_, ?_⟩
    · rw [split]
      exact .cons_cons above onward
    · rw [split]
      exact List.forall_mem_cons.mpr ⟨here, later⟩

/-- Once the budget is spent nothing is slept. -/
theorem rises_spent (spent : policy.maxAttempts ≤ poll.attempt) (calls : ℕ) :
    Rises least lower (poll.turns (List.replicate calls policy.undisturbed)) := by
  induction calls generalizing poll with
  | zero => exact rises_nil
  | succ calls ih =>
    have yields := yields_turn poll policy.undisturbed
    rw [List.replicate_succ, turns, rises_refused_iff (yields.beyond spent)]
    apply ih
    rw [yields.attempt_eq]
    omega

/-- A call within the budget sleeps the interval, and the next one the interval that has grown. -/
theorem rises_within_iff (within : poll.attempt < policy.maxAttempts) :
    Rises least lower (poll.turns (List.replicate (calls + 1) policy.undisturbed)) ↔
      lower.AtMost poll.interval ∧ least.AtMost poll.interval ∧
      ∃ interval, poll.interval.scale policy.multiplier = .ok interval ∧
        Rises least poll.interval ((PollState.mk interval (poll.attempt + 1)).turns
          (List.replicate calls policy.undisturbed)) := by
  have yields := yields_turn poll policy.undisturbed
  rw [List.replicate_succ, turns]
  generalize poll.turn policy.undisturbed = turn at yields
  cases yields with
  | refused spent => exact absurd within (not_lt.mpr spent)
  | cutShort _ slept => cases slept
  | overgrown _ _ overflows =>
    rw [rises_asked_iff rfl]
    constructor
    · rintro ⟨⟨_, answered⟩, -⟩
      cases answered
    · rintro ⟨-, -, _, grown, -⟩
      cases overflows.symm.trans grown
  | @granted interval _ _ grown =>
    rw [rises_asked_iff rfl]
    constructor
    · rintro ⟨-, above, here, onward⟩
      exact ⟨above, here, interval, grown, onward⟩
    · rintro ⟨above, here, other, grown', onward⟩
      obtain rfl := Except.ok.inj (grown.symm.trans grown')
      exact ⟨⟨true, rfl⟩, above, here, onward⟩

end Turns

section Growth

theorem scale_int (converted : ofInt? n = some x) (factor : Float) :
    (Number.int n).scale factor = .ok (.float (x * factor)) := by
  rw [scale, toFloat, converted]
  rfl

theorem scale_unconverted (unconverted : ofInt? n = none) (factor : Float) :
    (Number.int n).scale factor = .error .integerTooLarge := by
  rw [scale, toFloat, unconverted]
  rfl

/-- Intervals that are values never shrink. -/
theorem rises_grown (factor : Holds policy.multiplier u) (grows : ((1 : ℚ) : WithTop ℚ) ≤ u)
    (positive : 0 < n) (interval : poll.interval = .float x) (holds : Holds x v)
    (least : ((n : ℚ) : WithTop ℚ) ≤ v) (lower_le : lower.AtMost (.float x)) (calls : ℕ) :
    Rises (.int n) lower (poll.turns (List.replicate calls policy.undisturbed)) := by
  induction calls generalizing poll x v lower with
  | zero => exact rises_nil
  | succ calls ih =>
    rcases le_or_gt policy.maxAttempts poll.attempt with spent | within
    · exact rises_spent spent _
    have above : (0 : WithTop ℚ) < v := lt_of_lt_of_le (by exact_mod_cast positive) least
    obtain ⟨w, product, le⟩ := exists_le_mul holds above factor grows
    rw [rises_within_iff within, interval]
    refine ⟨lower_le, (int_atMost_iff holds above positive).mpr least, _, rfl, ?_⟩
    exact ih rfl product (le_trans least le) ((float_atMost_iff holds product).mpr le)

end Growth

section Steadiness

/-- The second delay decides about all that follow. -/
theorem rises_second_iff (converted : ofInt? n = some x) (positive : 0 < n)
    (interval : poll.interval = .float (x * policy.multiplier)) (calls : ℕ) :
    Rises (.int n) (.int n) (poll.turns (List.replicate calls policy.undisturbed)) ↔
      calls = 0 ∨ policy.maxAttempts ≤ poll.attempt ∨ policy.multiplier.isNaN = false ∧
        (1.0 < policy.multiplier ∨ (Number.int n).AtMost (.float x)) := by
  cases calls with
  | zero => exact iff_of_true rises_nil (.inl rfl)
  | succ calls =>
    rcases le_or_gt policy.maxAttempts poll.attempt with spent | within
    · exact iff_of_true (rises_spent spent _) (.inr (.inl spent))
    rw [or_iff_right (Nat.succ_ne_zero calls), or_iff_right (not_le.mpr within),
      ← int_atMost_mul_iff converted positive policy.growing]
    constructor
    · intro rises
      rw [rises_within_iff within, interval] at rises
      exact rises.1
    · intro atMost
      have number := ((int_atMost_mul_iff converted positive policy.growing).mp atMost).1
      obtain ⟨u, factor, grows⟩ := exists_holds_of_growing number policy.growing
      obtain ⟨q, -, holds, large⟩ := holds_of_positive converted positive
      have above : (0 : WithTop ℚ) < q := WithTop.coe_pos.mpr (by linarith)
      obtain ⟨w, product, le⟩ := exists_le_mul holds above factor grows
      have least := (int_atMost_iff product (lt_of_lt_of_le above le) positive).mp atMost
      exact rises_grown factor grows positive interval product least atMost _

/-- The calls of a wait never fail and its delays never shrink exactly if the interval of the policy
converts, unless nothing is slept; and unless the first delay is the last one, the multiplier is a
number, and above one or the interval is not above the closest value. -/
theorem steady_iff (policy : WaitPolicy) (calls : ℕ) : policy.Steady calls ↔
    (calls = 0 ∨ policy.maxAttempts = 1 ∨ policy.interval < 2 ^ 1024 - 2 ^ 970) ∧
    (calls ≤ 1 ∨ policy.maxAttempts ≤ 2 ∨ policy.multiplier.isNaN = false ∧
      (1.0 < policy.multiplier ∨
        (Number.int policy.interval).AtMost (.float (Float.ofInt policy.interval)))) := by
  obtain ⟨n, whole⟩ : ∃ n : ℕ, policy.interval = n :=
    Int.eq_ofNat_of_zero_le (by have := policy.interval_pos; omega)
  have positive : 0 < n := by
    have := policy.interval_pos
    omega
  cases calls with
  | zero => exact iff_of_true rises_nil ⟨.inl rfl, .inl (Nat.zero_le 1)⟩
  | succ calls =>
    rcases policy.attempts_pos.eq_or_lt with single | within
    · refine iff_of_true (rises_spent single.ge _) ⟨.inr (.inl single.symm), .inr (.inl ?_)⟩
      omega
    have interval : (start policy).interval = .int n := congrArg _ whole
    rw [Steady, course, whole, rises_within_iff within, interval, and_iff_right (atMost_self n),
      and_iff_right (atMost_self n), or_iff_right (Nat.succ_ne_zero calls),
      or_iff_right within.ne', ← exists_ofInt?_iff_cast]
    cases converted : ofInt? n with
    | none =>
      refine iff_of_false ?_ fun ⟨⟨_, h⟩, _⟩ => by cases h
      rintro ⟨_, grown, -⟩
      cases (scale_unconverted converted _).symm.trans grown
    | some x =>
      have few : calls + 1 ≤ 1 ↔ calls = 0 := by omega
      rw [ofInt_eq_of_converted converted, scale_int converted, few]
      constructor
      · rintro ⟨_, grown, rises⟩
        obtain rfl := Except.ok.inj grown
        exact ⟨⟨x, rfl⟩, (rises_second_iff converted positive rfl calls).mp rises⟩
      · rintro ⟨-, kept⟩
        exact ⟨_, rfl, (rises_second_iff converted positive rfl calls).mpr kept⟩

/-- A NaN is not below one either. -/
def unordered : WaitPolicy :=
  { default with
    interval := 100, multiplier := 0.0 / 0.0,
    interval_pos := by decide, growing := by decide +kernel }

/-- The least interval between two values. -/
def uneven : WaitPolicy :=
  { default with
    interval := 9007199254740993, multiplier := 1.0,
    interval_pos := by decide, growing := by decide +kernel }

/-- An interval that no value is close to. -/
def boundless : WaitPolicy :=
  { default with interval := 2 ^ 1024, interval_pos := by decide +kernel }

theorem not_rises_of_delays {turns : List Turn} {first second : Number}
    (asked : delays turns = [first, second]) (shrinks : ¬ first.AtMost second) :
    ¬ Rises least lower turns := by
  rintro ⟨-, growing, -⟩
  rw [asked, List.isChain_cons_cons, List.isChain_cons_cons] at growing
  exact shrinks growing.2.1

theorem not_rises_of_fails {turns : List Turn} {failure : Failure}
    (fails : .error failure ∈ turns.map (·.answer)) : ¬ Rises least lower turns := by
  rintro ⟨unfailing, -, -⟩
  obtain ⟨turn, mem, failed⟩ := List.mem_map.mp fails
  obtain ⟨granted, answered⟩ := unfailing turn mem
  cases failed.symm.trans answered

/-- Policies that pass their own check, and a second delay that is a NaN, one that is less than the
first, and a call that fails. -/
theorem not_steady_of_accepted :
    (make 100 (0.0 / 0.0) 3 = .ok unordered ∧
      delays (unordered.course 2) = [.int 100, .float (0.0 / 0.0)] ∧ ¬ unordered.Steady 2) ∧
    (make 9007199254740993 1.0 3 = .ok uneven ∧
      delays (uneven.course 2) = [.int 9007199254740993, .float 9007199254740992.0] ∧
      ¬ uneven.Steady 2) ∧
    (make (2 ^ 1024) 2.0 3 = .ok boundless ∧
      (boundless.course 1).map (·.answer) = [.error (.of (.overflow .integerTooLarge))] ∧
      ¬ boundless.Steady 1) := by
  have second : delays (unordered.course 2) = [.int 100, .float (0.0 / 0.0)] := by decide +kernel
  have less : delays (uneven.course 2) =
      [.int 9007199254740993, .float 9007199254740992.0] := by decide +kernel
  have fails : (boundless.course 1).map (·.answer) =
      [.error (.of (.overflow .integerTooLarge))] := by decide +kernel
  refine ⟨⟨by decide +kernel, second, ?_⟩, ⟨by decide +kernel, less, ?_⟩,
    ⟨by decide +kernel, fails, ?_⟩⟩
  · exact not_rises_of_delays second (by decide +kernel)
  · exact not_rises_of_delays less (by decide +kernel)
  · have mem : (.error (.of (.overflow .integerTooLarge)) : Result Bool) ∈
        (boundless.course 1).map (·.answer) := by
      rw [fails]
      exact List.mem_cons_self
    exact not_rises_of_fails mem

end Steadiness

end WaitPolicy

end ClusterReadiness
