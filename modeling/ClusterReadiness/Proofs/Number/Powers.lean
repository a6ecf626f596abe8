import ClusterReadiness.Proofs.Number.Arithmetic

/-!
# Powers by repeated squaring

A power is computed exactly but for the digits that are trimmed after each product. All that is lost
on the way stays far below the distance between one and the value after it. So powers of what is not
below one grow with the exponent, until they are out of range.
-/

namespace ClusterReadiness

namespace Dyadic

section Value

variable {d : Dyadic}

theorem value_nonneg (d : Dyadic) : 0 ≤ d.value :=
  mul_nonneg (Nat.cast_nonneg _) (zpow_pos two_pos _).le

theorem value_mul (a b : Dyadic) : (a.mul b).value = a.value * b.value := by
  simp only [value, mul, zpow_add₀ (two_ne_zero' ℚ)]
  push_cast
  ring

theorem value_of_nonneg (whole : ¬ d.exponent < 0) :
    d.value = (d.mantissa <<< d.exponent.toNat : ℕ) := by
  have none : (-d.exponent).toNat = 0 := by omega
  rw [value_eq, none, pow_zero, Nat.cast_one, div_one, Nat.shiftLeft_eq]

theorem value_of_neg (negative : d.exponent < 0) :
    d.value = d.mantissa / (2 ^ (-d.exponent).toNat : ℕ) := by
  have none : d.exponent.toNat = 0 := by omega
  rw [value_eq, none, pow_zero, mul_one]

/-- A fraction of a power of two, as a decimal. -/
theorem value_eq_decimal (negative : d.exponent < 0) :
    d.value = (d.mantissa * 5 ^ (-d.exponent).toNat : ℕ) / 10 ^ (-d.exponent).toNat := by
  have ten : (10 : ℚ) = 2 * 5 := by norm_num
  rw [value_of_neg negative, ten, mul_pow]
  push_cast
  rw [mul_div_mul_right _ _ (by positivity)]

theorem floor_eq (d : Dyadic) : d.floor = ⌊d.value⌋₊ := by
  rw [floor]
  split_ifs with negative
  · rw [value_of_neg negative, Nat.floor_div_eq_div, Nat.shiftRight_eq_div_pow]
  · rw [value_of_nonneg negative, Nat.floor_natCast]

theorem compare_eq_cmp_cast (m n : ℕ) : compare m n = cmp (m : ℚ) n := by
  rw [Nat.strictMono_cast.cmp_map_eq, cmp_eq_compare]

theorem compareQuotient_eq_cmp (d : Dyadic) (num : ℕ) {den : ℕ} (positive : 0 < den) :
    d.compareQuotient num den = cmp d.value (num / den : ℚ) := by
  have some : (0 : ℚ) < den := by exact_mod_cast positive
  rw [compareQuotient]
  split_ifs with negative
  · have reached : (0 : ℚ) < (2 ^ (-d.exponent).toNat : ℕ) := by positivity
    rw [value_of_neg negative, ← cmp_mul_pos_right reached, ← cmp_mul_pos_right some,
      div_mul_cancel₀ _ reached.ne', mul_right_comm (num / den : ℚ), div_mul_cancel₀ _ some.ne',
      compare_eq_cmp_cast, Nat.shiftLeft_eq]
    push_cast
    rfl
  · rw [value_of_nonneg negative, ← cmp_mul_pos_right some, div_mul_cancel₀ _ some.ne',
      compare_eq_cmp_cast, Nat.cast_mul]

theorem compareQuotient_eq_gt_iff (d : Dyadic) (num : ℕ) {den : ℕ} (positive : 0 < den) :
    d.compareQuotient num den = .gt ↔ (num / den : ℚ) < d.value := by
  rw [compareQuotient_eq_cmp d num positive, cmp_eq_gt_iff]

theorem compareQuotient_eq_lt_iff (d : Dyadic) (num : ℕ) {den : ℕ} (positive : 0 < den) :
    d.compareQuotient num den = .lt ↔ d.value < (num / den : ℚ) := by
  rw [compareQuotient_eq_cmp d num positive, cmp_eq_lt_iff]

end Value

section Closest

open Binary64

variable {d : Dyadic}

theorem value_lt (some : d.mantissa ≠ 0) : d.value < 2 ^ d.ceiling := by
  rw [value, ceiling, width, if_neg some, add_comm d.exponent, zpow_add₀ two_ne_zero, zpow_natCast]
  apply mul_lt_mul_of_pos_right _ (two_zpow_pos _)
  exact_mod_cast Nat.lt_log2_self

theorem le_value (some : d.mantissa ≠ 0) : 2 ^ (d.ceiling - 1) ≤ d.value := by
  have top : d.ceiling - 1 = (d.mantissa.log2 : ℤ) + d.exponent := by
    rw [ceiling, width, if_neg some]
    omega
  rw [top, zpow_add₀ two_ne_zero, zpow_natCast, value]
  apply mul_le_mul_of_nonneg_right _ (two_zpow_pos _).le
  exact_mod_cast Nat.log2_self_le some

theorem closest_nearest (d : Dyadic) : Closest d.value d.nearest := by
  have zero : (0.0 : Float) = .ofModel (.pack (.zero .positive)) := by decide +kernel
  have infinite : Float.ofScientific 1 false 400 = .ofModel (.pack (.infinity .positive)) := by
    decide +kernel
  by_cases none : d.mantissa = 0
  · rw [nearest, decide_eq_true none, Bool.true_or, if_pos rfl, zero, value, none, Nat.cast_zero,
      zero_mul]
    exact closest_zero
  rw [nearest, decide_eq_false none, Bool.false_or]
  simp only [decide_eq_true_eq]
  split_ifs with small large negative
  · rw [zero]
    apply closest_tiny d.value_nonneg
    calc d.value < 2 ^ d.ceiling := value_lt none
      _ ≤ 2 ^ (-1075 : ℤ) := zpow_le_zpow_right₀ one_le_two (by omega)
  · rw [infinite]
    apply closest_infinity
    calc (2 : ℚ) ^ (1024 : ℤ) ≤ 2 ^ (d.ceiling - 1) := zpow_le_zpow_right₀ one_le_two (by omega)
      _ ≤ d.value := le_value none
  · rw [value_eq_decimal negative]
    exact closest_ofScientific _ true _
  · rw [value_of_nonneg negative, ← mul_one ((_ : ℕ) : ℚ), ← pow_zero (10 : ℚ)]
    exact closest_ofScientific _ false 0

end Closest

section Trim

/-- How much of a value may be lost when it is trimmed. -/
def epsilon : ℚ := 2 ^ (-319 : ℤ)

/-- `w` is `v` up to `steps` such losses. -/
structure Within (steps : ℕ) (v w : ℚ) : Prop where
  above : (1 - epsilon) ^ steps * v ≤ w
  below : w ≤ (1 + epsilon) ^ steps * v

variable {steps more : ℕ} {v w v' w' : ℚ}

theorem epsilon_pos : 0 < epsilon := zpow_pos two_pos _

theorem epsilon_le : epsilon ≤ 1 := zpow_le_one_of_nonpos₀ one_le_two (by norm_num)

theorem epsilon_mul : epsilon * 2 ^ 319 = 1 := by
  rw [epsilon, zpow_neg, zpow_ofNat]
  exact inv_mul_cancel₀ (by positivity)

theorem Within.refl (v : ℚ) : Within 0 v v := ⟨by simp, by simp⟩

theorem Within.mono (within : Within steps v w) (nonneg : 0 ≤ v) (le : steps ≤ more) :
    Within more v w := by
  have small := epsilon_pos
  have := epsilon_le
  constructor
  · refine le_trans ?_ within.above
    apply mul_le_mul_of_nonneg_right _ nonneg
    exact pow_le_pow_of_le_one (by linarith) (by linarith) le
  · refine le_trans within.below ?_
    apply mul_le_mul_of_nonneg_right _ nonneg
    exact pow_le_pow_right₀ (by linarith) le

theorem Within.nonneg (within : Within steps v w) (nonneg : 0 ≤ v) : 0 ≤ w := by
  have := epsilon_le
  refine le_trans ?_ within.above
  exact mul_nonneg (pow_nonneg (by linarith) _) nonneg

theorem Within.mul (within : Within steps v w) (other : Within more v' w') (nonneg : 0 ≤ v)
    (nonneg' : 0 ≤ v') : Within (steps + more) (v * v') (w * w') := by
  have small := epsilon_pos
  have le := epsilon_le
  constructor
  · rw [pow_add, mul_mul_mul_comm]
    apply mul_le_mul within.above other.above _ (within.nonneg nonneg)
    exact mul_nonneg (pow_nonneg (by linarith) _) nonneg'
  · rw [pow_add, mul_mul_mul_comm]
    apply mul_le_mul within.below other.below (other.nonneg nonneg')
    exact mul_nonneg (pow_nonneg (by linarith) _) nonneg

theorem Within.trans {u : ℚ} (within : Within steps v w) (other : Within more w u) :
    Within (steps + more) v u := by
  have small := epsilon_pos
  have le := epsilon_le
  constructor
  · refine le_trans ?_ other.above
    rw [pow_add, mul_comm (_ ^ steps), mul_assoc]
    exact mul_le_mul_of_nonneg_left within.above (pow_nonneg (by linarith) _)
  · refine le_trans other.below ?_
    rw [pow_add, mul_comm (_ ^ steps), mul_assoc]
    exact mul_le_mul_of_nonneg_left within.below (pow_nonneg (by linarith) _)

theorem or_one_le (n : ℕ) : n ||| 1 ≤ n + 1 := by
  have half : (n ||| 1) / 2 = n / 2 := by
    rw [Nat.or_div_two]
    exact Nat.or_zero _
  omega

/-- What is left of a mantissa without its last digits. -/
theorem trim_bounds (m extra : ℕ) :
    let kept := if m % 2 ^ extra = 0 then m / 2 ^ extra else m / 2 ^ extra ||| 1
    kept * 2 ^ extra ≤ m + 2 ^ extra ∧ m ≤ kept * 2 ^ extra + 2 ^ extra := by
  intro kept
  have parts := Nat.div_add_mod m (2 ^ extra)
  have rest := Nat.mod_lt m (Nat.two_pow_pos extra)
  have least : m / 2 ^ extra ≤ kept := by
    unfold kept
    split_ifs
    · exact le_rfl
    · exact Nat.left_le_or
  have most : kept ≤ m / 2 ^ extra + 1 := by
    unfold kept
    split_ifs
    · exact Nat.le_succ _
    · exact or_one_le _
  have low := Nat.mul_le_mul_right (2 ^ extra) least
  have high := Nat.mul_le_mul_right (2 ^ extra) most
  rw [Nat.add_mul, one_mul] at high
  rw [mul_comm] at parts
  omega

theorem le_epsilon_mul {d : Dyadic} {extra : ℕ} (some : extra ≠ 0)
    (extra_eq : d.width - workingDigits = extra) : (2 : ℚ) ^ extra ≤ epsilon * d.mantissa := by
  have positive : d.mantissa ≠ 0 := by
    intro none
    rw [width, if_pos none] at extra_eq
    omega
  have digits : d.mantissa.log2 = extra + 319 := by
    rw [width, if_neg positive, workingDigits] at extra_eq
    omega
  calc (2 : ℚ) ^ extra = epsilon * 2 ^ d.mantissa.log2 := by
        rw [digits, pow_add, mul_left_comm, epsilon_mul, mul_one]
    _ ≤ epsilon * d.mantissa := by
        apply mul_le_mul_of_nonneg_left _ epsilon_pos.le
        exact_mod_cast Nat.log2_self_le positive

theorem trim_within (d : Dyadic) : Within 1 d.value (d.trim workingDigits).value := by
  have nonneg := d.value_nonneg
  simp only [trim, Nat.one_shiftLeft, Nat.shiftRight_eq_div_pow]
  generalize extra_eq : d.width - workingDigits = extra
  by_cases fits : extra = 0
  · rw [if_pos fits]
    exact (Within.refl _).mono nonneg (Nat.zero_le 1)
  rw [if_neg fits]
  have bounds := trim_bounds d.mantissa extra
  generalize (if d.mantissa % 2 ^ extra = 0 then d.mantissa / 2 ^ extra
    else d.mantissa / 2 ^ extra ||| 1) = kept at bounds ⊢
  have long : (2 : ℚ) ^ extra ≤ epsilon * d.mantissa := le_epsilon_mul fits extra_eq
  have above : (kept * 2 ^ extra : ℚ) ≤ d.mantissa + 2 ^ extra := by exact_mod_cast bounds.1
  have below : (d.mantissa : ℚ) ≤ kept * 2 ^ extra + 2 ^ extra := by exact_mod_cast bounds.2
  have trimmed : (kept * 2 ^ (d.exponent + extra) : ℚ) = kept * 2 ^ extra * 2 ^ d.exponent := by
    rw [zpow_add₀ two_ne_zero, zpow_natCast]
    ring
  have positive : (0 : ℚ) < 2 ^ d.exponent := zpow_pos two_pos _
  constructor
  · rw [pow_one, value, value, trimmed, ← mul_assoc]
    exact mul_le_mul_of_nonneg_right (by linarith) positive.le
  · rw [pow_one, value, value, trimmed, ← mul_assoc]
    exact mul_le_mul_of_nonneg_right (by linarith) positive.le

end Trim

section Squaring

/-- How often a value is trimmed on the way to a power. -/
def trims : ℕ → ℕ
  | 0 => 0
  | steps + 1 => 2 * trims steps + 2

theorem trims_eq (steps : ℕ) : trims steps + 2 = 2 ^ (steps + 1) := by
  induction steps with
  | zero => rfl
  | succ steps ih =>
    rw [trims, pow_succ, ← ih]
    ring

theorem powSteps_within (d : Dyadic) {steps n : ℕ} (enough : n < 2 ^ steps) :
    Within (trims steps) (d.value ^ n) (d.powSteps steps n).value := by
  induction steps generalizing n with
  | zero =>
    obtain rfl : n = 0 := by omega
    rw [pow_zero]
    have one : (d.powSteps 0 0).value = 1 := by simp [powSteps, value]
    rw [one]
    exact .refl 1
  | succ steps ih =>
    have nonneg := d.value_nonneg
    have half := ih (n := n / 2) (by rw [pow_succ] at enough; omega)
    have square : Within (2 * trims steps + 1) (d.value ^ (n / 2) * d.value ^ (n / 2))
        (((d.powSteps steps (n / 2)).mul (d.powSteps steps (n / 2))).trim workingDigits).value := by
      have exact := half.mul half (pow_nonneg nonneg _) (pow_nonneg nonneg _)
      rw [← value_mul, ← two_mul] at exact
      exact exact.trans (trim_within _)
    rw [powSteps]
    split_ifs with even
    · have power : d.value ^ n = d.value ^ (n / 2) * d.value ^ (n / 2) := by
        rw [← pow_add]
        congr 1
        omega
      rw [power]
      exact square.mono (by positivity) (Nat.le_succ _)
    · have power : d.value ^ n = d.value ^ (n / 2) * d.value ^ (n / 2) * d.value := by
        rw [← pow_add, ← pow_succ]
        congr 1
        omega
      have exact := square.mul (.refl d.value) (by positivity) nonneg
      rw [← value_mul] at exact
      rw [power]
      exact exact.trans (trim_within _)

/-- A power is right up to four losses for each factor. -/
theorem pow_within (d : Dyadic) {n : ℕ} (positive : 0 < n) :
    Within (4 * n) (d.value ^ n) (d.pow n).value := by
  refine (powSteps_within d Nat.lt_log2_self).mono (pow_nonneg d.value_nonneg n) ?_
  have counted := trims_eq (n.log2 + 1)
  have below := Nat.log2_self_le positive.ne'
  rw [pow_succ, pow_succ] at counted
  omega

end Squaring

section Unit

/-- One, written with any number of digits. -/
def IsOne (d : Dyadic) : Prop := ∃ j : ℕ, d.mantissa = 2 ^ j ∧ d.exponent = -j

variable {a b d : Dyadic}

theorem isOne_of_value (one : d.value = 1) : d.IsOne := by
  rw [value_eq, div_eq_one_iff_eq (by positivity)] at one
  have whole : d.mantissa * 2 ^ d.exponent.toNat = 2 ^ (-d.exponent).toNat := by exact_mod_cast one
  obtain ⟨j, -, power⟩ := (Nat.dvd_prime_pow Nat.prime_two).mp (Dvd.intro _ whole)
  rw [power, ← pow_add] at whole
  have exponents := Nat.pow_right_injective le_rfl whole
  exact ⟨j, power, by omega⟩

theorem IsOne.value (one : d.IsOne) : d.value = 1 := by
  obtain ⟨j, mantissa, exponent⟩ := one
  rw [Dyadic.value, mantissa, exponent, zpow_neg, zpow_natCast, Nat.cast_pow, Nat.cast_ofNat]
  exact mul_inv_cancel₀ (by positivity)

theorem IsOne.mul (one : a.IsOne) (other : b.IsOne) : (a.mul b).IsOne := by
  obtain ⟨j, mantissa, exponent⟩ := one
  obtain ⟨k, mantissa', exponent'⟩ := other
  refine ⟨j + k, ?_, ?_⟩
  · rw [Dyadic.mul, mantissa, mantissa', pow_add]
  · rw [Dyadic.mul, exponent, exponent']
    push_cast
    ring

theorem IsOne.trim {digits : ℕ} (one : d.IsOne) (some : 0 < digits) : (d.trim digits).IsOne := by
  obtain ⟨j, mantissa, exponent⟩ := one
  have width : d.width = j + 1 := by
    rw [width, mantissa, if_neg (by positivity), Nat.log2_two_pow]
  simp only [Dyadic.trim, Nat.one_shiftLeft, Nat.shiftRight_eq_div_pow]
  generalize extra_eq : d.width - digits = extra
  by_cases fits : extra = 0
  · rw [if_pos fits]
    exact ⟨j, mantissa, exponent⟩
  obtain ⟨i, rfl⟩ : ∃ i, j = extra + i := ⟨j - extra, by omega⟩
  have dropped : d.mantissa % 2 ^ extra = 0 := by
    rw [mantissa, pow_add, Nat.mul_mod_right]
  rw [if_neg fits, if_pos dropped]
  refine ⟨i, ?_, ?_⟩
  · show d.mantissa / 2 ^ extra = 2 ^ i
    rw [mantissa, pow_add, Nat.mul_div_cancel_left _ (Nat.two_pow_pos extra)]
  · show d.exponent + extra = -i
    rw [exponent]
    push_cast
    ring

theorem IsOne.powSteps (one : d.IsOne) (steps n : ℕ) : (d.powSteps steps n).IsOne := by
  induction steps generalizing n with
  | zero => exact ⟨0, rfl, rfl⟩
  | succ steps ih =>
    have some : 0 < workingDigits := by decide
    have square := ((ih (n / 2)).mul (ih (n / 2))).trim some
    rw [Dyadic.powSteps]
    split_ifs
    · exact square
    · exact (square.mul one).trim some

theorem IsOne.pow (one : d.IsOne) (n : ℕ) : (d.pow n).IsOne := one.powSteps _ n

theorem pow_zero_value (d : Dyadic) : (d.pow 0).value = 1 := by
  have unit : IsOne ⟨1, 0⟩ := ⟨0, rfl, rfl⟩
  have squared : d.powSteps 1 0 = (mul ⟨1, 0⟩ ⟨1, 0⟩).trim workingDigits := by
    simp only [powSteps, Nat.zero_mod, if_true]
  rw [pow, Nat.log2_zero, squared]
  exact ((unit.mul unit).trim (by decide)).value

end Unit

section Growth

variable {d : Dyadic} {n k : ℕ}

/-- What all losses together may come to, as long as the exponent stays below `2 ^ 63`. -/
def eta : ℚ := 2 ^ (-54 : ℤ)

theorem eta_pos : 0 < eta := zpow_pos two_pos _

theorem eta_le : eta ≤ 1 / 4 := by
  have : eta ≤ 2 ^ (-2 : ℤ) := zpow_le_zpow_right₀ one_le_two (by norm_num)
  rwa [show (2 : ℚ) ^ (-2 : ℤ) = 1 / 4 by norm_num] at this

theorem mul_epsilon_le (few : n ≤ 2 ^ 65) : n * epsilon ≤ eta := by
  calc (n : ℚ) * epsilon ≤ 2 ^ (65 : ℤ) * epsilon := by
        apply mul_le_mul_of_nonneg_right _ epsilon_pos.le
        exact_mod_cast few
    _ = 2 ^ (65 + -319 : ℤ) := by rw [epsilon, zpow_add₀ two_ne_zero]
    _ ≤ eta := zpow_le_zpow_right₀ one_le_two (by norm_num)

theorem one_sub_eta_le (few : n ≤ 2 ^ 65) : 1 - eta ≤ (1 - epsilon) ^ n := by
  have bernoulli := one_add_mul_le_pow (a := -epsilon) (by linarith [epsilon_le]) n
  have lost := mul_epsilon_le few
  rw [← sub_eq_add_neg] at bernoulli
  linarith

theorem pow_le_one_add_eta (few : n ≤ 2 ^ 65) : (1 + epsilon) ^ n ≤ 1 + 2 * eta := by
  have small := epsilon_pos
  have less := one_sub_eta_le few
  have quarter := eta_le
  have some := eta_pos
  have both : (1 + epsilon) ^ n * (1 - eta) ≤ 1 :=
    calc (1 + epsilon) ^ n * (1 - eta) ≤ (1 + epsilon) ^ n * (1 - epsilon) ^ n :=
          mul_le_mul_of_nonneg_left less (by positivity)
      _ = ((1 + epsilon) * (1 - epsilon)) ^ n := (mul_pow _ _ _).symm
      _ ≤ 1 := by
          apply pow_le_one₀
          · nlinarith [epsilon_le]
          · nlinarith
  nlinarith

theorem pow_value_le (positive : 0 < n) (few : n ≤ 2 ^ 63) :
    (d.pow n).value ≤ (1 + 2 * eta) * d.value ^ n := by
  have nonneg := d.value_nonneg
  refine (d.pow_within positive).below.trans ?_
  apply mul_le_mul_of_nonneg_right _ (by positivity)
  exact pow_le_one_add_eta (by omega)

theorem le_pow_value (positive : 0 < n) (few : n ≤ 2 ^ 63) :
    (1 - eta) * d.value ^ n ≤ (d.pow n).value := by
  have nonneg := d.value_nonneg
  refine le_trans ?_ (d.pow_within positive).above
  apply mul_le_mul_of_nonneg_right _ (by positivity)
  exact one_sub_eta_le (by omega)

/-- A power of more factors is not smaller, though both have been trimmed. -/
theorem pow_value_le_pow_value (grows : 1 + 4 * eta ≤ d.value) (positive : 0 < n) (less : n < k)
    (few : k ≤ 2 ^ 63) : (d.pow n).value ≤ (d.pow k).value := by
  have some := eta_pos
  have quarter := eta_le
  have one : 1 ≤ d.value := by linarith
  have factor : (1 + 4 * eta) * d.value ^ n ≤ d.value ^ k :=
    calc (1 + 4 * eta) * d.value ^ n ≤ d.value * d.value ^ n :=
          mul_le_mul_of_nonneg_right grows (by positivity)
      _ = d.value ^ (n + 1) := (pow_succ' _ _).symm
      _ ≤ d.value ^ k := pow_le_pow_right₀ one less
  calc (d.pow n).value ≤ (1 + 2 * eta) * d.value ^ n := pow_value_le positive (by omega)
    _ ≤ (1 - eta) * ((1 + 4 * eta) * d.value ^ n) := by
        rw [← mul_assoc]
        apply mul_le_mul_of_nonneg_right _ (by positivity)
        nlinarith
    _ ≤ (1 - eta) * d.value ^ k := mul_le_mul_of_nonneg_left factor (by linarith)
    _ ≤ (d.pow k).value := le_pow_value (by omega) few

theorem one_le_pow_value (grows : 1 + 4 * eta ≤ d.value) (positive : 0 < n) (few : n ≤ 2 ^ 63) :
    1 ≤ (d.pow n).value := by
  have some := eta_pos
  have quarter := eta_le
  have one : 1 ≤ d.value := by linarith
  calc 1 ≤ (1 - eta) * (1 + 4 * eta) := by nlinarith
    _ ≤ (1 - eta) * d.value ^ n := by
        apply mul_le_mul_of_nonneg_left _ (by linarith)
        exact le_trans grows (le_self_pow₀ one positive.ne')
    _ ≤ (d.pow n).value := le_pow_value positive few

theorem two_pow_le_pow {N : ℕ} (positive : 0 < N) (M : ℕ) :
    (2 : ℚ) ^ M ≤ (1 + (N : ℚ)⁻¹) ^ (N * M) := by
  have some : (N : ℚ) ≠ 0 := by exact_mod_cast positive.ne'
  have inverse : (0 : ℚ) ≤ (N : ℚ)⁻¹ := by positivity
  have bernoulli := one_add_mul_le_pow (a := (N : ℚ)⁻¹) (by linarith) N
  rw [mul_inv_cancel₀ some] at bernoulli
  rw [pow_mul]
  exact pow_le_pow_left₀ (by norm_num) (by linarith) M

/-- With so many factors a power is out of range. -/
theorem two_pow_le_pow_value (grows : 1 + 4 * eta ≤ d.value) (many : 2 ^ 63 ≤ n) :
    2 ^ (1024 : ℤ) ≤ (d.pow n).value := by
  have some := eta_pos
  have quarter := eta_le
  have inverse : 2 * eta = ((2 ^ 53 : ℕ) : ℚ)⁻¹ := by
    rw [Nat.cast_pow, Nat.cast_ofNat, ← zpow_natCast, ← zpow_neg, eta, ← zpow_one_add₀ two_ne_zero]
    norm_num
  have factor : 1 + 2 * eta ≤ (1 - epsilon) ^ 4 * d.value :=
    calc 1 + 2 * eta ≤ (1 - eta) * (1 + 4 * eta) := by nlinarith
      _ ≤ (1 - epsilon) ^ 4 * d.value := by
        apply mul_le_mul (one_sub_eta_le (by norm_num)) grows (by linarith)
        exact pow_nonneg (by linarith [epsilon_le]) 4
  calc (2 : ℚ) ^ (1024 : ℤ) = 2 ^ 1024 := zpow_natCast 2 1024
    _ ≤ (1 + 2 * eta) ^ (2 ^ 53 * 1024) := inverse ▸ two_pow_le_pow (Nat.two_pow_pos 53) 1024
    _ ≤ (1 + 2 * eta) ^ n := pow_le_pow_right₀ (by linarith) (by omega)
    _ ≤ ((1 - epsilon) ^ 4 * d.value) ^ n := pow_le_pow_left₀ (by linarith) factor n
    _ = (1 - epsilon) ^ (4 * n) * d.value ^ n := by rw [mul_pow, pow_mul]
    _ ≤ (d.pow n).value := (d.pow_within (by omega)).above

/-- Powers of what is one, or as much larger as a value can be, grow with the exponent. -/
theorem pow_value_mono (grows : d.value = 1 ∨ 1 + 4 * eta ≤ d.value) (le : n ≤ k) :
    (d.pow n).value ≤ (d.pow k).value ∨ 2 ^ (1024 : ℤ) ≤ (d.pow k).value := by
  rcases grows with one | grows
  · left
    rw [((isOne_of_value one).pow n).value, ((isOne_of_value one).pow k).value]
  rcases le.lt_or_eq with less | rfl
  · rcases Nat.lt_or_ge k (2 ^ 63) with few | many
    · left
      rcases Nat.eq_zero_or_pos n with rfl | positive
      · rw [pow_zero_value]
        exact one_le_pow_value grows less few.le
      · exact pow_value_le_pow_value grows positive less few.le
    · exact .inr (two_pow_le_pow_value grows many)
  · exact .inl le_rfl

end Growth

end Dyadic

end ClusterReadiness
