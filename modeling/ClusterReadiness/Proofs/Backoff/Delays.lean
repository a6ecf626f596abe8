import ClusterReadiness.Backoff.Retry
import ClusterReadiness.Proofs.Number.Growth

/-!
# The delays of a retry policy

A delay is capped after the whole product has been computed. So there is no delay where the power is
out of range, or where no value is close to the initial interval, and a delay that is a NaN is not
capped. Apart from that the delays grow with the attempts, up to the cap.
-/

namespace ClusterReadiness

open Binary64

namespace RetryPolicy

open Number

variable {policy : RetryPolicy} {attempt a b : ℤ} {delay : Number} {x : Float}

theorem delayAfter_iff : policy.delayAfter attempt = .ok delay ↔
    ∃ growth x, power policy.multiplier (attempt - 1) = .ok growth ∧
      ofInt? policy.initialInterval = some x ∧
      delay = capAt (x * growth) policy.maxInterval := by
  unfold delayAfter toFloat
  constructor
  · intro timed
    cases powered : power policy.multiplier (attempt - 1) with
    | error reason => rw [powered] at timed; cases timed
    | ok growth =>
      cases converted : ofInt? policy.initialInterval with
      | none => simp [powered, converted, bind, Except.bind] at timed
      | some x =>
        simp only [powered, converted, bind, Except.bind, pure, Except.pure, Except.ok.injEq]
          at timed
        exact ⟨growth, x, rfl, rfl, timed.symm⟩
  · rintro ⟨growth, x, powered, converted, rfl⟩
    simp only [powered, converted]
    rfl

theorem holds_initial (converted : ofInt? policy.initialInterval = some x) :
    ∃ q : ℚ, Holds x q ∧ 0 < q := by
  obtain ⟨n, whole⟩ : ∃ n : ℕ, policy.initialInterval = n :=
    Int.eq_ofNat_of_zero_le (by have := policy.initial_pos; omega)
  have positive : 0 < n := by
    have := policy.initial_pos
    omega
  rw [whole] at converted
  obtain ⟨q, -, holds, large⟩ := holds_of_positive converted positive
  exact ⟨q, holds, lt_of_lt_of_le one_pos large⟩

/-- Both attempts have a delay, the first one's is at most the second one's, and that is at most
the cap. -/
def Capped (policy : RetryPolicy) (a b : ℤ) : Prop :=
  ∃ d e, policy.delayAfter a = .ok d ∧ policy.delayAfter b = .ok e ∧
    d.AtMost e ∧ e.AtMost (.int policy.maxInterval)

theorem capped_of_ascends {m : ℕ} {s : Float} (before : a - 1 = m)
    (converted : ofInt? policy.initialInterval = some x)
    (powered : power policy.multiplier (b - 1) = .ok s)
    (ascends : Ascends policy.multiplier m s) : policy.Capped a b := by
  obtain ⟨r, v, w, powered', left, right, le⟩ := ascends
  obtain ⟨q, holds, positive⟩ := holds_initial converted
  obtain ⟨v', w', left', right', le'⟩ := exists_mul_le holds positive left right le
  have nonneg : 0 ≤ policy.maxInterval := by
    have := policy.initial_pos
    have := policy.initial_le_max
    omega
  refine ⟨_, _, delayAfter_iff.mpr ⟨r, x, before ▸ powered', converted, rfl⟩,
    delayAfter_iff.mpr ⟨s, x, powered, converted, rfl⟩, ?_, ?_⟩
  · exact capAt_mono left' right' le' nonneg
  · exact capAt_atMost right'

/-- With a number for a multiplier, a delay that can be computed is at most the cap, and no delay
before it is above it. -/
theorem capped_of_isNumber (first : 1 ≤ a) (later : a ≤ b)
    (number : policy.multiplier.isNaN = false) {growth : Float}
    (powered : power policy.multiplier (b - 1) = .ok growth)
    (converted : ofInt? policy.initialInterval = some x) : policy.Capped a b := by
  obtain ⟨m, before⟩ : ∃ m : ℕ, a - 1 = m := ⟨(a - 1).toNat, by omega⟩
  obtain ⟨n, past⟩ : ∃ n : ℕ, b - 1 = n := ⟨(b - 1).toNat, by omega⟩
  obtain ⟨v, holds, grows⟩ := exists_holds_of_growing number policy.growing
  have fewer : m ≤ n := by omega
  have ascends := power_mono holds grows fewer (past ▸ powered)
  exact capped_of_ascends before converted powered ascends

/-- A NaN does not matter to the first delay. -/
theorem capped_first (converted : ofInt? policy.initialInterval = some x) : policy.Capped 1 1 :=
  capped_of_ascends rfl converted (power_zero _)
    ⟨1.0, _, _, power_zero _, holds_one, holds_one, le_rfl⟩

/-- The delays of two attempts are computed, in order and under the cap exactly if the initial
interval converts, the later power is in range, and the multiplier is a number unless the later
attempt is the first. -/
theorem capped_iff (policy : RetryPolicy) {a b : ℤ} (first : 1 ≤ a) (later : a ≤ b) :
    policy.Capped a b ↔ policy.initialInterval < 2 ^ 1024 - 2 ^ 970 ∧
      (∃ growth, power policy.multiplier (b - 1) = .ok growth) ∧
      (policy.multiplier.isNaN = true → b = 1) := by
  obtain ⟨n, whole⟩ : ∃ n : ℕ, policy.initialInterval = n :=
    Int.eq_ofNat_of_zero_le (by have := policy.initial_pos; omega)
  have converts : (∃ x, ofInt? policy.initialInterval = some x) ↔
      policy.initialInterval < 2 ^ 1024 - 2 ^ 970 := by
    rw [whole, exists_ofInt?_iff_cast]
  rw [← converts]
  constructor
  · rintro ⟨d, e, -, timed, -, atMost⟩
    obtain ⟨growth, x, powered, converted, rfl⟩ := delayAfter_iff.mp timed
    refine ⟨⟨x, converted⟩, ⟨growth, powered⟩, fun nan => ?_⟩
    by_contra past
    obtain ⟨k, between⟩ : ∃ k : ℕ, b - 1 = k := ⟨(b - 1).toNat, by omega⟩
    rw [between] at powered
    exact not_atMost_of_isNaN (isNaN_mul x (isNaN_of_power nan (by omega) powered)) _ atMost
  · rintro ⟨⟨x, converted⟩, ⟨growth, powered⟩, lone⟩
    cases number : policy.multiplier.isNaN with
    | false => exact capped_of_isNumber first later number powered converted
    | true =>
      obtain rfl : b = 1 := lone number
      obtain rfl : a = 1 := by omega
      exact capped_first converted

/-- Like the default policy, with more attempts than the power has room for. -/
def persistent : RetryPolicy :=
  { default with maxAttempts := 2000, attempts_pos := show (0 : Int) < 2000 by decide }

/-- The last attempt whose power is in range has the cap for its delay. -/
theorem capped_iff_persistent : persistent.Capped 2 1024 := by
  refine (capped_iff persistent (by decide) (by decide)).mpr ⟨by decide +kernel, ?_, ?_⟩
  · exact ⟨.ofBits 0x7FE0000000000000, by decide +kernel⟩
  · decide +kernel

/-- The attempt after it has no delay at all, though the cap was reached long before. -/
theorem not_capped_out_of_range : persistent.delayAfter 5 = .ok (.int persistent.maxInterval) ∧
    persistent.delayAfter 1025 = .error .powerOutOfRange ∧ ¬ persistent.Capped 5 1025 := by
  have reached : persistent.delayAfter 5 = .ok (.int persistent.maxInterval) := by decide +kernel
  have lost : persistent.delayAfter 1025 = .error .powerOutOfRange := by decide +kernel
  refine ⟨reached, lost, ?_⟩
  rintro ⟨d, e, -, timed, -⟩
  rw [lost] at timed
  cases timed

end RetryPolicy

end ClusterReadiness
