import ClusterReadiness.Proofs.Number.Growth

/-!
# Factors of at least one

A factor that is not below one makes no value smaller, and one above one makes up for what an
integer lost when it was rounded. Only the factor one itself leaves that loss to be seen. The
comparisons of integers with values are exact, in both directions.
-/

namespace ClusterReadiness

open Binary64

namespace Binary64

open Float.Model Float.Model.UnpackedFloat

variable {x y : Float} {u v : WithTop ℚ} {q r : ℚ} {n k : ℕ} {t : ℤ}

section Products

theorem holds_infinity_mul (holds : Holds x ⊤) (factor : Holds y u) (positive : 0 < u) :
    Holds (x * y) ⊤ := by
  have product : UnpackedFloat.mul .binary64 x.toModel.unpack y.toModel.unpack =
      .infinity .positive := by
    unfold Holds at holds factor
    generalize x.toModel.unpack = left at holds
    generalize y.toModel.unpack = right at factor
    cases holds
    cases factor with
    | zero => exact absurd positive (lt_irrefl 0)
    | finite => rfl
    | infinity => rfl
  show Stands (Float.Model.pack (UnpackedFloat.mul .binary64 _ _)).unpack ⊤
  rw [product, unpack_pack_infinity]
  exact .infinity

/-- No value shrinks by a factor of at least one. -/
theorem exists_le_mul (holds : Holds x v) (positive : 0 < v) (factor : Holds y u)
    (grows : ((1 : ℚ) : WithTop ℚ) ≤ u) : ∃ w, Holds (x * y) w ∧ v ≤ w := by
  by_cases infinite : v = ⊤
  · subst infinite
    exact ⟨⊤, holds_infinity_mul holds factor (lt_of_lt_of_le (by norm_num) grows), le_rfl⟩
  · lift v to ℚ using infinite with q
    obtain ⟨p, w, unit, product, le⟩ :=
      exists_mul_le holds (WithTop.coe_pos.mp positive) holds_one factor grows
    refine ⟨w, product, le_trans ?_ le⟩
    exact holds.closest.value_le (closest_mul holds holds_one) holds unit (mul_one q).ge

/-- The factor one changes nothing. -/
theorem holds_mul_one (holds : Holds x q) (factor : Holds y ((1 : ℚ) : WithTop ℚ)) :
    Holds (x * y) q := by
  have closest := closest_mul holds factor
  obtain ⟨w, product⟩ := closest.holds
  rw [mul_one] at closest
  have below := closest.value_le holds.closest product holds le_rfl
  have above := holds.closest.value_le closest holds product le_rfl
  rwa [le_antisymm above below]

theorem le_bounded (q : ℚ) : (q : WithTop ℚ) ≤ bounded q := by
  unfold bounded
  split_ifs
  · exact le_rfl
  · exact le_top

/-- What is not below a number of 53 digits, or the power of two after them, is not rounded below
it. -/
theorem Closest.ge_of_le (closest : Closest q x) (holds : Holds x v) (digits : k ≤ 2 ^ 53)
    (least : -1074 ≤ t) (le : k * 2 ^ t ≤ q) : bounded (k * 2 ^ t) ≤ v := by
  rcases digits.eq_or_lt with rfl | less
  · have halved : ((2 ^ 53 : ℕ) * 2 ^ t : ℚ) = (2 ^ 52 : ℕ) * 2 ^ (t + 1) := by
      rw [zpow_add₀ two_ne_zero]
      push_cast
      ring
    rw [halved] at le ⊢
    exact closest.ge holds (by norm_num) (by omega) le
  · exact closest.ge holds less least le

/-- An integer that was rounded down is still below the next step. -/
theorem Rounds.lt_step (rounds : Rounds n k t) (lost : (k * 2 ^ t : ℚ) < n) :
    k < 2 ^ 53 ∧ (n : ℚ) ≤ (k + 1 : ℕ) * 2 ^ t := by
  have positive := two_zpow_pos t
  constructor
  · have below := lt_trans lost rounds.below
    rw [zpow_add₀ two_ne_zero, mul_comm, mul_lt_mul_iff_right₀ positive] at below
    exact_mod_cast below
  · have above := (div_le_iff₀ positive).mp rounds.nearest.above
    refine le_trans above (mul_le_mul_of_nonneg_right ?_ positive.le)
    push_cast
    linarith

/-- A factor above one adds a step at least to what has 53 digits. -/
theorem step_le_mul (leading : 2 ^ 52 ≤ k) (t : ℤ) (gap : 1 + 4 * Dyadic.eta ≤ r) :
    ((k + 1 : ℕ) * 2 ^ t : ℚ) ≤ k * 2 ^ t * r := by
  have positive := two_zpow_pos t
  have many : (2 ^ 52 : ℚ) ≤ k := by exact_mod_cast leading
  have step : (1 : ℚ) ≤ k * (4 * Dyadic.eta) := by
    calc (1 : ℚ) = 2 ^ 52 * (4 * Dyadic.eta) := by norm_num [Dyadic.eta]
      _ ≤ k * (4 * Dyadic.eta) := by
        apply mul_le_mul_of_nonneg_right many
        linarith [Dyadic.eta_pos]
  calc ((k + 1 : ℕ) * 2 ^ t : ℚ) = (k + 1) * 2 ^ t := by push_cast; rfl
    _ ≤ (k + k * (4 * Dyadic.eta)) * 2 ^ t := by
      apply mul_le_mul_of_nonneg_right _ positive.le
      linarith
    _ = k * 2 ^ t * (1 + 4 * Dyadic.eta) := by ring
    _ ≤ k * 2 ^ t * r := mul_le_mul_of_nonneg_left gap (by positivity)

theorem Rounds.leading_of_one_le (rounds : Rounds q k t) (large : (1 : ℚ) ≤ k * 2 ^ t) :
    2 ^ 52 ≤ k := by
  refine rounds.leading.resolve_right ?_
  rintro rfl
  have tiny : (k * 2 ^ (-1074 : ℤ) : ℚ) ≤ 2 ^ (-1021 : ℤ) := rounds.value_le
  have less : (2 : ℚ) ^ (-1021 : ℤ) < 1 := zpow_lt_one_of_neg₀ one_lt_two (by norm_num)
  linarith

theorem Holds.eq_of_bounded (holds : Holds x q) (stored : Holds x (bounded r)) : q = r := by
  have eq := holds.unique stored
  unfold bounded at eq
  split_ifs at eq
  · exact WithTop.coe_injective eq
  · cases eq

/-- What an integer loses when it is rounded, a factor above one brings back. -/
theorem Closest.cast_le_mul (closest : Closest n x) (holds : Holds x q) (large : 1 ≤ q)
    (factor : Holds y u) (grows : ((1 : ℚ) : WithTop ℚ) < u) :
    ∃ w, Holds (x * y) w ∧ ((n : ℚ) : WithTop ℚ) ≤ w := by
  have positive : 0 < q := by linarith
  rcases le_or_gt (n : ℚ) q with kept | lost
  · obtain ⟨w, product, le⟩ := exists_le_mul holds (WithTop.coe_pos.mpr positive) factor grows.le
    exact ⟨w, product, le_trans (WithTop.coe_le_coe.mpr kept) le⟩
  by_cases infinite : u = ⊤
  · subst infinite
    exact ⟨⊤, holds_mul_infinity holds positive factor, le_top⟩
  lift u to ℚ using infinite with r
  obtain ⟨k, t, rounds, stored⟩ := closest
  have same := holds.eq_of_bounded stored
  obtain ⟨digits, next⟩ := rounds.lt_step (same ▸ lost)
  have step := step_le_mul (rounds.leading_of_one_le (same ▸ large)) t
    (factor.gap (WithTop.coe_lt_coe.mp grows))
  rw [← same] at step
  have product := closest_mul holds factor
  obtain ⟨w, held⟩ := product.holds
  refine ⟨w, held, ?_⟩
  calc ((n : ℚ) : WithTop ℚ) ≤ ((k + 1 : ℕ) * 2 ^ t : ℚ) := WithTop.coe_le_coe.mpr next
    _ ≤ bounded ((k + 1 : ℕ) * 2 ^ t) := le_bounded _
    _ ≤ w := product.ge_of_le held digits rounds.least step

end Products

section Negation

theorem unpack_neg (x : Float) : (-x).toModel.unpack = x.toModel.unpack.neg := by
  have stored := stored x
  show (Float.Model.pack x.toModel.unpack.neg).unpack = x.toModel.unpack.neg
  generalize x.toModel.unpack = left at stored
  generalize Dyadic.ofFinite x = d at stored
  cases stored with
  | notANumber => rfl
  | infinity sign => exact unpack_pack_infinity (-sign)
  | zero sign => exact unpack_pack_zero (-sign)
  | finite sign positive canonical small => exact unpack_pack_finite canonical small

theorem unpack_zero_literal : (0.0 : Float).toModel.unpack = .zero .positive := by
  have packed : (0.0 : Float) = .ofModel (.pack (.zero .positive)) := by decide +kernel
  rw [packed]
  rfl

theorem le_iff_compare :
    x ≤ y ↔ (x.toModel.unpack.compare y.toModel.unpack).any Ordering.isLE = true := by
  show decide (x.toModel ≤ y.toModel) = true ↔ _
  rw [decide_eq_true_iff]
  rfl

end Negation

end Binary64

namespace Number

section Comparison

variable {x y : Float} {v w : WithTop ℚ} {n : ℕ}

/-- A value is compared with an integer on its negated side. -/
theorem isBelow_int_iff (holds : Holds x v) (positive : 0 < v) (some : 0 < n) :
    (float x).isBelow (int n) = true ↔ v < ((n : ℚ) : WithTop ℚ) := by
  have negated := unpack_neg x
  have stored := stored (-x)
  change intBelowFloat (-n) (-x) = true ↔ _
  unfold Holds at holds
  generalize x.toModel.unpack = left at holds negated
  cases holds with
  | zero => exact absurd positive (lt_irrefl 0)
  | finite mantissa_pos =>
    have number : (-x).isNaN = false := congrArg _ negated
    have finite : (-x).isInf = false := congrArg _ negated
    have below : ¬ (0.0 : Float) ≤ -x := by
      rw [le_iff_compare, unpack_zero_literal, negated]
      exact Bool.false_ne_true
    have negative : (-n : ℤ) < 0 := by omega
    rw [negated] at stored
    obtain ⟨-, -, read⟩ := stored.finite_inv
    rw [intBelowFloat, number, finite, if_neg Bool.false_ne_true, if_neg Bool.false_ne_true,
      if_neg below, decide_eq_true negative, Bool.true_and, beq_iff_eq, read, Int.natAbs_neg,
      Int.natAbs_natCast, Dyadic.compareQuotient_eq_lt_iff _ _ Nat.one_pos, Nat.cast_one, div_one,
      WithTop.coe_lt_coe]
    exact Iff.rfl
  | infinity =>
    have number : (-x).isNaN = false := congrArg _ negated
    have infinite : (-x).isInf = true := congrArg _ negated
    have below : ¬ (0.0 : Float) < -x := by
      rw [lt_iff_compare, unpack_zero_literal, negated]
      exact fun less => by cases less
    rw [intBelowFloat, number, infinite, if_neg Bool.false_ne_true, if_pos rfl,
      decide_eq_false below]
    exact iff_of_false Bool.false_ne_true not_top_lt

/-- An integer is at most a value exactly if it is at most its magnitude. -/
theorem int_atMost_iff (holds : Holds x v) (positive : 0 < v) (some : 0 < n) :
    (int n).AtMost (float x) ↔ ((n : ℚ) : WithTop ℚ) ≤ v := by
  rw [← not_lt, ← isBelow_int_iff holds positive some, Bool.not_eq_true]
  exact ⟨fun atMost => atMost.2.2, fun kept => ⟨rfl, holds.isNaN, kept⟩⟩

/-- An integer that was rounded and multiplied is at least what it was, unless the factor is a NaN,
or is one and the rounding lost something. -/
theorem int_atMost_mul_iff (converted : ofInt? n = some x) (positive : 0 < n)
    (growing : ¬ y < 1.0) : (int n).AtMost (float (x * y)) ↔
      y.isNaN = false ∧ (1.0 < y ∨ (int n).AtMost (float x)) := by
  cases number : y.isNaN with
  | true =>
    have lost : (x * y).isNaN = true := isNaN_mul x number
    exact iff_of_false (fun atMost => Bool.eq_false_iff.mp atMost.2.1 lost) (by simp)
  | false =>
    obtain ⟨u, factor, grows⟩ := exists_holds_of_growing number growing
    obtain ⟨q, closest, holds, large⟩ := holds_of_positive converted positive
    have above : (0 : WithTop ℚ) < q := WithTop.coe_pos.mpr (by linarith)
    rw [holds_one.lt_iff factor, int_atMost_iff holds above positive]
    rcases grows.eq_or_lt with rfl | more
    · rw [int_atMost_iff (holds_mul_one holds factor) above positive]
      simp
    · obtain ⟨w, product, le⟩ := closest.cast_le_mul holds large factor more
      have some : (0 : WithTop ℚ) < w := lt_of_lt_of_le (by exact_mod_cast positive) le
      rw [int_atMost_iff product some positive]
      exact iff_of_true le ⟨rfl, .inl more⟩

end Comparison

end Number

end ClusterReadiness
