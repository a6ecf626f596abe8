import Mathlib

/-!
# Rounding to 53 binary digits

A number is rounded to the closest multiple of a power of two, a tie going to the even side. The
power is the smallest one at which 53 digits reach as far as the number, and no smaller than
`2 ^ -1074`. The mantissas of the core library, with their round bit and sticky bit, are such
roundings.
-/

namespace ClusterReadiness

namespace Binary64

open Float.Model Float.Model.UnpackedFloat

section Nearest

/-- The natural number closest to `x`, and the even one of two. -/
structure IsNearest (x : ℚ) (n : ℕ) : Prop where
  above : x ≤ n + 1 / 2
  below : n - 1 / 2 ≤ x
  tie : x = n + 1 / 2 ∨ x = n - 1 / 2 → Even n

variable {x y : ℚ} {n k : ℕ}

theorem IsNearest.mono (near : IsNearest x n) (other : IsNearest y k) (le : x ≤ y) : n ≤ k := by
  by_contra more
  have next : (k : ℚ) + 1 ≤ n := by exact_mod_cast Nat.lt_of_not_le more
  have top : x = n - 1 / 2 := by linarith [near.below, other.above]
  have bottom : y = k + 1 / 2 := by linarith [near.below, other.above]
  have same : n = k + 1 := by
    have : (n : ℚ) = k + 1 := by linarith [near.below, other.above]
    exact_mod_cast this
  have even := near.tie (.inr top)
  rw [same, Nat.even_add_one] at even
  exact even (other.tie (.inl bottom))

theorem isNearest_cast (n : ℕ) : IsNearest n n where
  above := by linarith
  below := by linarith
  tie := by rintro (tie | tie) <;> linarith

theorem IsNearest.eq_of_cast (near : IsNearest n k) : k = n :=
  Nat.le_antisymm (near.mono (isNearest_cast n) le_rfl) ((isNearest_cast n).mono near le_rfl)

theorem IsNearest.le (near : IsNearest x n) (le : x ≤ k) : n ≤ k := near.mono (isNearest_cast k) le

theorem IsNearest.ge (near : IsNearest x n) (le : k ≤ x) : k ≤ n := (isNearest_cast k).mono near le

/-- The half before an even number is rounded up to it. -/
theorem IsNearest.lt_iff (near : IsNearest x n) (even : Even k) : n < k ↔ x < k - 1 / 2 := by
  constructor
  · intro less
    by_contra reached
    have next : (n : ℚ) + 1 ≤ k := by exact_mod_cast less
    have tie : x = n + 1 / 2 := by linarith [near.above]
    have same : k = n + 1 := by
      have : (k : ℚ) = n + 1 := by linarith [near.above]
      exact_mod_cast this
    rw [same, Nat.even_add_one] at even
    exact even (near.tie (.inl tie))
  · intro less
    have : (n : ℚ) < k := by linarith [near.below]
    exact_mod_cast this

end Nearest

section Extended

/-- What a mantissa, its round bit and its sticky bit say of the number that they stand for. -/
def Represents : ExtendedMantissa → ℚ → Prop
  | ⟨m, false, false⟩, x => x = m
  | ⟨m, false, true⟩, x => m < x ∧ x < m + 1 / 2
  | ⟨m, true, false⟩, x => x = m + 1 / 2
  | ⟨m, true, true⟩, x => m + 1 / 2 < x ∧ x < m + 1

variable {em : ExtendedMantissa} {x : ℚ}

theorem represents_exact (m : ℕ) : Represents (.ofMantissaAndAccuracy m .exact) m := rfl

theorem represents_fraction {num den m : ℕ} (proper : num < den) :
    Represents (.ofMantissaAndAccuracy m (accuracyOfFraction num den)) (m + num / den) := by
  have positive : (0 : ℚ) < den := by exact_mod_cast Nat.zero_lt_of_lt proper
  have less : (num : ℚ) / den < 1 := by
    rw [div_lt_one positive]
    exact_mod_cast proper
  unfold accuracyOfFraction
  split_ifs with zero
  · simp [Represents, ExtendedMantissa.ofMantissaAndAccuracy, zero]
  · have some : (0 : ℚ) < num / den := by positivity
    rcases lt_trichotomy (2 * num) den with lt | eq | gt
    · have half : (num : ℚ) / den < 1 / 2 := by
        rw [div_lt_iff₀ positive]
        have : (2 * num : ℚ) < den := by exact_mod_cast lt
        linarith
      rw [Nat.compare_eq_lt.mpr lt]
      constructor <;> linarith
    · have half : (num : ℚ) / den = 1 / 2 := by
        rw [div_eq_iff positive.ne']
        have : (2 * num : ℚ) = den := by exact_mod_cast eq
        linarith
      rw [Nat.compare_eq_eq.mpr eq]
      simp [Represents, ExtendedMantissa.ofMantissaAndAccuracy, half]
    · have half : 1 / 2 < (num : ℚ) / den := by
        rw [lt_div_iff₀ positive]
        have : (den : ℚ) < 2 * num := by exact_mod_cast gt
        linarith
      rw [Nat.compare_eq_gt.mpr gt]
      constructor <;> linarith

/-- Either bit says that something is left of the number beyond the mantissa. -/
theorem Represents.rest {m : ℕ} {round sticky : Bool}
    (represents : Represents ⟨m, round, sticky⟩ x) :
    if (round || sticky) = true then (m : ℚ) < x ∧ x < m + 1 else x = m := by
  cases round <;> cases sticky
  · exact represents
  · exact ⟨represents.1, by linarith [represents.2]⟩
  · obtain rfl : x = m + 1 / 2 := represents
    constructor <;> linarith
  · exact ⟨by linarith [represents.1], represents.2⟩

theorem Represents.shiftRightOne (represents : Represents em x) :
    Represents em.shiftRightOne (x / 2) := by
  obtain ⟨m, round, sticky⟩ := em
  have rest := represents.rest
  have parts : (m : ℚ) = 2 * (m / 2 : ℕ) + (m % 2 : ℕ) := by
    exact_mod_cast (Nat.div_add_mod m 2).symm
  show Represents ⟨m / 2, m % 2 != 0, round || sticky⟩ (x / 2)
  -- the digit shifted out is the round bit, and what was beyond it makes the sticky bit
  generalize (round || sticky) = beyond at rest ⊢
  rcases Nat.mod_two_eq_zero_or_one m with digit | digit <;> rw [digit] at parts ⊢ <;>
    push_cast at parts <;> cases beyond
  · rw [if_neg Bool.false_ne_true] at rest
    show x / 2 = (m / 2 : ℕ)
    linarith
  · rw [if_pos rfl] at rest
    constructor <;> linarith [rest.1, rest.2]
  · rw [if_neg Bool.false_ne_true] at rest
    show x / 2 = (m / 2 : ℕ) + 1 / 2
    linarith
  · rw [if_pos rfl] at rest
    constructor <;> linarith [rest.1, rest.2]

theorem Represents.shiftRight (represents : Represents em x) (k : ℕ) :
    Represents (em >>> k) (x / 2 ^ k) := by
  change Represents (k.repeat ExtendedMantissa.shiftRightOne em) _
  induction k with
  | zero => simpa [Nat.repeat] using represents
  | succ k ih =>
    rw [pow_succ, div_mul_eq_div_div]
    exact ih.shiftRightOne

theorem Represents.isNearest (represents : Represents em x) : IsNearest x em.roundedMantissa := by
  obtain ⟨m, round, sticky⟩ := em
  cases round <;> cases sticky
  · obtain rfl : x = m := represents
    exact isNearest_cast m
  · obtain ⟨more, less⟩ : (m : ℚ) < x ∧ x < m + 1 / 2 := represents
    show IsNearest x m
    exact ⟨by linarith, by linarith, by rintro (tie | tie) <;> linarith⟩
  · obtain rfl : x = m + 1 / 2 := represents
    show IsNearest _ (m + m % 2)
    rcases Nat.mod_two_eq_zero_or_one m with bit | bit <;> rw [bit]
    · exact ⟨by simp, by simp; linarith, fun _ => Nat.even_iff.mpr bit⟩
    · refine ⟨by push_cast; linarith, by push_cast; linarith, fun _ => ?_⟩
      exact Nat.even_add_one.mpr (Nat.not_even_iff.mpr bit)
  · obtain ⟨more, less⟩ : (m : ℚ) + 1 / 2 < x ∧ x < m + 1 := represents
    show IsNearest x (m + 1)
    refine ⟨?_, ?_, ?_⟩ <;> push_cast
    · linarith
    · linarith
    · rintro (tie | tie) <;> linarith

end Extended

section Rounds

/-- Rounded to `n` steps of `2 ^ t`. -/
structure Rounds (q : ℚ) (n : ℕ) (t : ℤ) : Prop where
  least : -1074 ≤ t
  below : q < 2 ^ (t + 53)
  normal : 2 ^ (t + 52) ≤ q ∨ t = -1074
  nearest : IsNearest (q / 2 ^ t) n

variable {q r : ℚ} {n k : ℕ} {t u : ℤ}

theorem two_zpow_pos (t : ℤ) : (0 : ℚ) < 2 ^ t := zpow_pos two_pos t

theorem Rounds.digits (rounds : Rounds q n t) : n ≤ 2 ^ 53 := by
  apply rounds.nearest.le
  rw [div_le_iff₀ (two_zpow_pos t)]
  have below := rounds.below
  rw [zpow_add₀ two_ne_zero] at below
  push_cast
  rw [mul_comm]
  exact below.le

theorem Rounds.leading (rounds : Rounds q n t) : 2 ^ 52 ≤ n ∨ t = -1074 := by
  refine rounds.normal.imp_left fun normal => rounds.nearest.ge ?_
  rw [le_div_iff₀ (two_zpow_pos t)]
  rw [zpow_add₀ two_ne_zero] at normal
  push_cast
  rw [mul_comm]
  exact normal

theorem Rounds.value_le (rounds : Rounds q n t) : (n * 2 ^ t : ℚ) ≤ 2 ^ (t + 53) := by
  rw [zpow_add₀ two_ne_zero, mul_comm]
  apply mul_le_mul_of_nonneg_left _ (two_zpow_pos t).le
  exact_mod_cast rounds.digits

theorem Rounds.le_value (rounds : Rounds q n t) (some : t ≠ -1074) :
    (2 : ℚ) ^ (t + 52) ≤ n * 2 ^ t := by
  rw [zpow_add₀ two_ne_zero, mul_comm]
  apply mul_le_mul_of_nonneg_right _ (two_zpow_pos t).le
  exact_mod_cast rounds.leading.resolve_right some

/-- Of two roundings at different exponents, the coarser one is of a number that is larger. -/
theorem Rounds.lt_of_exponent (rounds : Rounds q n t) (other : Rounds r k u) (finer : t < u) :
    q < r := by
  have least := rounds.least
  calc q < 2 ^ (t + 53) := rounds.below
    _ ≤ 2 ^ (u + 52) := zpow_le_zpow_right₀ one_le_two (by omega)
    _ ≤ r := other.normal.resolve_right (by omega)

theorem Rounds.mono (rounds : Rounds q n t) (other : Rounds r k u) (le : q ≤ r) :
    (n * 2 ^ t : ℚ) ≤ k * 2 ^ u := by
  rcases lt_trichotomy t u with finer | rfl | coarser
  · have least := rounds.least
    calc (n * 2 ^ t : ℚ) ≤ 2 ^ (t + 53) := rounds.value_le
      _ ≤ 2 ^ (u + 52) := zpow_le_zpow_right₀ one_le_two (by omega)
      _ ≤ k * 2 ^ u := other.le_value (by omega)
  · apply mul_le_mul_of_nonneg_right _ (two_zpow_pos t).le
    have scaled := div_le_div_of_nonneg_right le (two_zpow_pos t).le
    exact_mod_cast rounds.nearest.mono other.nearest scaled
  · exact absurd le (not_le.mpr (other.lt_of_exponent rounds coarser))

/-- A number that 53 digits hold is not changed. -/
theorem Rounds.exact (rounds : Rounds (k * 2 ^ u) n t) (digits : k < 2 ^ 53) (least : -1074 ≤ u) :
    (n * 2 ^ t : ℚ) = k * 2 ^ u := by
  have finer : t ≤ u := by
    rcases rounds.normal with normal | rfl
    · by_contra coarser
      have : (k * 2 ^ u : ℚ) < 2 ^ (t + 52) :=
        calc (k * 2 ^ u : ℚ) < 2 ^ 53 * 2 ^ u := by
              apply mul_lt_mul_of_pos_right _ (two_zpow_pos u)
              exact_mod_cast digits
          _ = 2 ^ (u + 53) := by rw [zpow_add₀ two_ne_zero]; ring
          _ ≤ 2 ^ (t + 52) := zpow_le_zpow_right₀ one_le_two (by omega)
      linarith
    · exact least
  obtain ⟨d, rfl⟩ : ∃ d : ℕ, u = t + d := ⟨(u - t).toNat, by omega⟩
  have whole : (k * 2 ^ (t + d : ℤ) : ℚ) / 2 ^ t = (k * 2 ^ d : ℕ) := by
    rw [zpow_add₀ two_ne_zero, zpow_natCast, div_eq_iff (two_zpow_pos t).ne']
    push_cast
    ring
  have nearest := rounds.nearest
  rw [whole] at nearest
  rw [nearest.eq_of_cast, zpow_add₀ two_ne_zero, zpow_natCast]
  push_cast
  ring

theorem Rounds.lt_of_finer (rounds : Rounds q n t) (finer : t < 971) :
    (n * 2 ^ t : ℚ) < 2 ^ (1024 : ℤ) ∧ q < 2 ^ (1024 : ℤ) - 2 ^ (970 : ℤ) := by
  have reach : (2 : ℚ) ^ (t + 53) ≤ 2 ^ (1023 : ℤ) := zpow_le_zpow_right₀ one_le_two (by omega)
  constructor
  · calc (n * 2 ^ t : ℚ) ≤ 2 ^ (1023 : ℤ) := rounds.value_le.trans reach
      _ < 2 ^ (1024 : ℤ) := zpow_lt_zpow_right₀ one_lt_two (by norm_num)
  · have half : (2 : ℚ) ^ (1024 : ℤ) = 2 ^ (1023 : ℤ) + 2 ^ (1023 : ℤ) := by
      rw [← two_mul, ← zpow_one_add₀ two_ne_zero]
      norm_num
    have small : (2 : ℚ) ^ (970 : ℤ) ≤ 2 ^ (1023 : ℤ) :=
      zpow_le_zpow_right₀ one_le_two (by norm_num)
    calc q < 2 ^ (1023 : ℤ) := rounds.below.trans_le reach
      _ ≤ 2 ^ (1024 : ℤ) - 2 ^ (970 : ℤ) := by
        rw [half, add_sub_assoc]
        exact le_add_of_nonneg_right (sub_nonneg.mpr small)

theorem Rounds.le_of_coarser (rounds : Rounds q n t) (coarser : 971 < t) :
    2 ^ (1024 : ℤ) ≤ (n * 2 ^ t : ℚ) ∧ 2 ^ (1024 : ℤ) ≤ q := by
  have reach : (2 : ℚ) ^ (1024 : ℤ) ≤ 2 ^ (t + 52) := zpow_le_zpow_right₀ one_le_two (by omega)
  have normal := rounds.normal.resolve_right (by omega)
  exact ⟨reach.trans (rounds.le_value (by omega)), reach.trans normal⟩

theorem Rounds.lt_iff_of_last (rounds : Rounds q n 971) :
    (n * 2 ^ (971 : ℤ) : ℚ) < 2 ^ (1024 : ℤ) ↔ q < 2 ^ (1024 : ℤ) - 2 ^ (970 : ℤ) := by
  have top : (2 : ℚ) ^ (1024 : ℤ) = (2 ^ 53 : ℕ) * 2 ^ (971 : ℤ) := by
    rw [Nat.cast_pow, Nat.cast_ofNat, ← zpow_natCast, ← zpow_add₀ two_ne_zero]
    norm_num
  have half : (2 : ℚ) ^ (970 : ℤ) = 1 / 2 * 2 ^ (971 : ℤ) := by
    rw [one_div, ← zpow_neg_one, ← zpow_add₀ two_ne_zero]
    norm_num
  rw [top, half, ← sub_mul, mul_lt_mul_iff_left₀ (two_zpow_pos 971),
    ← div_lt_iff₀ (two_zpow_pos 971), Nat.cast_lt]
  exact rounds.nearest.lt_iff (by decide)

/-- Rounding reaches `2 ^ 1024` from the middle of the last step before it. -/
theorem Rounds.lt_iff (rounds : Rounds q n t) :
    (n * 2 ^ t : ℚ) < 2 ^ (1024 : ℤ) ↔ q < 2 ^ (1024 : ℤ) - 2 ^ (970 : ℤ) := by
  rcases lt_trichotomy t 971 with finer | rfl | coarser
  · obtain ⟨value, number⟩ := rounds.lt_of_finer finer
    exact iff_of_true value number
  · exact rounds.lt_iff_of_last
  · obtain ⟨value, number⟩ := rounds.le_of_coarser coarser
    have less : (2 : ℚ) ^ (1024 : ℤ) - 2 ^ (970 : ℤ) ≤ 2 ^ (1024 : ℤ) :=
      sub_le_self _ (two_zpow_pos 970).le
    exact iff_of_false (not_lt.mpr value) (not_lt.mpr (less.trans number))

end Rounds

section Library

variable {m n : ℕ} {e t : ℤ} {accuracy : Accuracy} {x : ℚ}

/-- The exponent at which a number of this mantissa and exponent is rounded. -/
def target (m : ℕ) (e : ℤ) : ℤ := Format.binary64.targetExponent (totalExponent m e)

theorem target_eq (m : ℕ) (e : ℤ) : target m e = max (m.log2 + e - 52) (-1074) := by
  simp only [target, Format.targetExponent, totalExponent, Format.mantissaBits, Format.minExponent]
  norm_num
  omega

theorem Represents.mantissa_le (represents : Represents (.ofMantissaAndAccuracy m accuracy) x) :
    (m : ℚ) ≤ x := by
  rcases accuracy with _ | _ | _ | _ <;>
    simp only [Represents, ExtendedMantissa.ofMantissaAndAccuracy] at represents <;> linarith

theorem Represents.lt_mantissa (represents : Represents (.ofMantissaAndAccuracy m accuracy) x) :
    x < m + 1 := by
  rcases accuracy with _ | _ | _ | _ <;>
    simp only [Represents, ExtendedMantissa.ofMantissaAndAccuracy] at represents <;> linarith

theorem Represents.lt_two_zpow (represents : Represents (.ofMantissaAndAccuracy m accuracy) x)
    (e : ℤ) : x * 2 ^ e < 2 ^ (m.log2 + e + 1) := by
  have less : x < 2 ^ (m.log2 + 1) :=
    calc x < m + 1 := represents.lt_mantissa
      _ ≤ 2 ^ (m.log2 + 1) := by exact_mod_cast Nat.lt_log2_self
  calc x * 2 ^ e < 2 ^ (m.log2 + 1) * 2 ^ e := mul_lt_mul_of_pos_right less (two_zpow_pos e)
    _ = 2 ^ (m.log2 + e + 1) := by
      rw [← zpow_natCast, ← zpow_add₀ two_ne_zero, Nat.cast_succ, add_right_comm]

theorem Represents.two_zpow_le (represents : Represents (.ofMantissaAndAccuracy m accuracy) x)
    (e : ℤ) (some : m ≠ 0) : 2 ^ (m.log2 + e) ≤ x * 2 ^ e := by
  rw [zpow_add₀ two_ne_zero, zpow_natCast]
  apply mul_le_mul_of_nonneg_right _ (two_zpow_pos e).le
  calc (2 : ℚ) ^ m.log2 ≤ m := by exact_mod_cast Nat.log2_self_le some
    _ ≤ x := represents.mantissa_le

/-- The first shift of the core library, and the rounding of what it leaves. -/
theorem Represents.rounds (represents : Represents (.ofMantissaAndAccuracy m accuracy) x)
    (fine : e ≤ target m e) : Rounds (x * 2 ^ e)
      (ExtendedMantissa.ofMantissaAndAccuracy m accuracy >>>
        (target m e - e).toNat).roundedMantissa (target m e) := by
  have target_eq := target_eq m e
  obtain ⟨k, shifted⟩ : ∃ k : ℕ, target m e = e + k := ⟨(target m e - e).toNat, by omega⟩
  refine ⟨by omega, ?_, ?_, ?_⟩
  · calc x * 2 ^ e < 2 ^ (m.log2 + e + 1) := represents.lt_two_zpow e
      _ ≤ 2 ^ (target m e + 53) := zpow_le_zpow_right₀ one_le_two (by omega)
  · by_cases least : target m e = -1074
    · exact .inr least
    · left
      have some : m ≠ 0 := by
        rintro rfl
        simp only [Nat.log2_zero] at target_eq
        omega
      have leading : target m e + 52 = m.log2 + e := by omega
      rw [leading]
      exact represents.two_zpow_le e some
  · have divided : x * 2 ^ e / 2 ^ target m e = x / 2 ^ k := by
      rw [shifted, zpow_add₀ two_ne_zero, zpow_natCast, mul_comm ((2 : ℚ) ^ e),
        mul_div_mul_right _ _ (two_zpow_pos e).ne']
    have amount : (target m e - e).toNat = k := by omega
    rw [divided, amount]
    exact (represents.shiftRight k).isNearest

/-- A rounded mantissa that has become `2 ^ 53` is halved once more. -/
def carry (sign : Sign) (n : ℕ) (t : ℤ) : UnpackedFloat :=
  if h : n = 0 then .zero sign
  else if n < 2 ^ 53 then .finite sign n t (Nat.pos_of_ne_zero h)
  else .finite sign (2 ^ 52) (t + 1) (Nat.two_pow_pos 52)

theorem shift_rounded (digits : n < 2 ^ 53) (least : -1074 ≤ t) :
    shiftToTargetExponent .binary64 n t .exact = (⟨n, false, false⟩, t) := by
  have reach : n.log2 ≤ 52 := by
    rcases Nat.eq_zero_or_pos n with rfl | positive
    · decide
    · exact Nat.le_of_lt_succ ((Nat.log2_lt positive.ne').mpr digits)
  have target_eq := target_eq n t
  have amount : (target n t - t).toNat = 0 := by omega
  show (ExtendedMantissa.ofMantissaAndAccuracy n .exact >>> (target n t - t).toNat,
    t + ((target n t - t).toNat : ℤ)) = _
  rw [amount]
  exact congrArg _ (add_zero t)

theorem shift_carried (least : -1074 ≤ t) :
    shiftToTargetExponent .binary64 (2 ^ 53) t .exact = (⟨2 ^ 52, false, false⟩, t + 1) := by
  have target_eq := target_eq (2 ^ 53) t
  rw [Nat.log2_two_pow] at target_eq
  have amount : (target (2 ^ 53) t - t).toNat = 1 := by omega
  show (ExtendedMantissa.ofMantissaAndAccuracy (2 ^ 53) .exact >>> (target (2 ^ 53) t - t).toNat,
    t + ((target (2 ^ 53) t - t).toNat : ℤ)) = _
  rw [amount]
  rfl

theorem roundWithAccuracy_of_shifts {first second : ExtendedMantissa × ℤ} (sign : Sign)
    (shifted : shiftToTargetExponent .binary64 m e accuracy = first)
    (carried : shiftToTargetExponent .binary64 first.1.roundedMantissa first.2 .exact = second) :
    roundWithAccuracy .binary64 sign m e accuracy =
      if h : second.1.mantissa = 0 then .zero sign
      else .finite sign second.1.mantissa second.2 (Nat.pos_of_ne_zero h) := by
  subst shifted carried
  rfl

/-- The rounding of the core library is a rounding. -/
theorem roundWithAccuracy_eq (sign : Sign)
    (represents : Represents (.ofMantissaAndAccuracy m accuracy) x) (fine : e ≤ target m e) :
    ∃ n t, Rounds (x * 2 ^ e) n t ∧
      roundWithAccuracy .binary64 sign m e accuracy = carry sign n t := by
  have rounds := represents.rounds fine
  refine ⟨_, _, rounds, ?_⟩
  have reached : e + ((target m e - e).toNat : ℤ) = target m e := by omega
  have shifted : shiftToTargetExponent .binary64 m e accuracy =
      (ExtendedMantissa.ofMantissaAndAccuracy m accuracy >>> (target m e - e).toNat, target m e) :=
    congrArg _ reached
  generalize ExtendedMantissa.ofMantissaAndAccuracy m accuracy >>> (target m e - e).toNat = em
    at rounds shifted ⊢
  rcases rounds.digits.lt_or_eq with less | full
  · rw [roundWithAccuracy_of_shifts sign shifted (shift_rounded less rounds.least)]
    simp only [carry, less, if_true]
  · have carried := shift_carried rounds.least
    rw [← full] at carried
    rw [roundWithAccuracy_of_shifts sign shifted carried, full]
    rfl

end Library

end Binary64

end ClusterReadiness
