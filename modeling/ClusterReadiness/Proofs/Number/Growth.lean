import ClusterReadiness.Proofs.Number.Powers

/-!
# Powers and caps of numbers

The order of magnitudes is kept by rounding, by a positive factor and by a cap, and the powers of a
value that is not below one follow their exponents. A NaN is kept as well, and compares with
nothing.
-/

namespace ClusterReadiness

open Binary64

namespace Binary64

variable {x y : Float} {v w : WithTop ℚ} {q r : ℚ}

theorem Closest.holds (closest : Closest q x) : ∃ v, Holds x v := by
  obtain ⟨n, t, -, holds⟩ := closest
  exact ⟨_, holds⟩

/-- Rounding keeps the order. -/
theorem Closest.value_le (closest : Closest q x) (other : Closest r y) (holds : Holds x v)
    (holds' : Holds y w) (le : q ≤ r) : v ≤ w :=
  (holds.le_iff holds').mp (closest.mono other le)

/-- A positive factor keeps the order. -/
theorem exists_mul_le {r s : Float} (holds : Holds x q) (positive : 0 < q) (left : Holds r v)
    (right : Holds s w) (le : v ≤ w) :
    ∃ v' w', Holds (x * r) v' ∧ Holds (x * s) w' ∧ v' ≤ w' := by
  by_cases infinite : w = ⊤
  · subst infinite
    have product := holds_mul_infinity holds positive right
    by_cases infinite' : v = ⊤
    · subst infinite'
      exact ⟨⊤, ⊤, holds_mul_infinity holds positive left, product, le_rfl⟩
    · lift v to ℚ using infinite'
      obtain ⟨v', holds'⟩ := (closest_mul holds left).holds
      exact ⟨v', ⊤, holds', product, le_top⟩
  · lift w to ℚ using infinite
    lift v to ℚ using (lt_of_le_of_lt le (WithTop.coe_lt_top w)).ne
    have closest := closest_mul holds left
    have closest' := closest_mul holds right
    obtain ⟨v', holds'⟩ := closest.holds
    obtain ⟨w', holds''⟩ := closest'.holds
    refine ⟨v', w', holds', holds'', closest.value_le closest' holds' holds'' ?_⟩
    exact mul_le_mul_of_nonneg_left (WithTop.coe_le_coe.mp le) positive.le

/-- A value is closest to itself. -/
theorem Holds.closest (holds : Holds x q) : Closest q x := by
  have nonneg : 0 ≤ q := WithTop.coe_le_coe.mp holds.nonneg
  rcases nonneg.eq_or_lt with rfl | positive
  · refine ⟨0, -1074, rounds_zero, ?_⟩
    rwa [bounded_zero]
  · obtain ⟨m, e, canonical, small, rfl⟩ := holds.exists_canonical positive
    refine ⟨m, e, canonical.rounds, ?_⟩
    rwa [bounded_of_lt (canonical.lt_iff.mpr small)]

theorem holds_one : Holds 1.0 ((1 : ℚ) : WithTop ℚ) := by
  have positive : isPositive (1.0 : Float).toModel.unpack = true := by decide +kernel
  have one : (Dyadic.ofFinite 1.0).IsOne := ⟨52, by decide +kernel, by decide +kernel⟩
  rw [← one.value]
  exact holds_of_isPositive positive

theorem holds_zero : Holds 0.0 ((0 : ℚ) : WithTop ℚ) := by
  have zero : (0.0 : Float) = .ofModel (.pack (.zero .positive)) := by decide +kernel
  rw [zero]
  exact .zero

/-- What is neither NaN nor below one is one or more. -/
theorem exists_holds_of_growing (number : x.isNaN = false) (growing : ¬ x < 1.0) :
    ∃ v, Holds x v ∧ ((1 : ℚ) : WithTop ℚ) ≤ v := by
  suffices some : ∃ v, Holds x v by
    obtain ⟨v, holds⟩ := some
    exact ⟨v, holds, not_lt.mp (mt (holds.lt_iff holds_one).mpr growing)⟩
  have one : isPositive (1.0 : Float).toModel.unpack = true := by decide +kernel
  rw [lt_iff_compare] at growing
  change x.toModel.unpack.isNaN = false at number
  unfold Holds
  generalize (1.0 : Float).toModel.unpack = unit at one growing
  generalize x.toModel.unpack = u at number growing
  cases unit with
  | finite sign m e positive =>
    cases sign with
    | negative => cases one
    | positive =>
      cases u with
      | notANumber => cases number
      | infinity sign =>
        cases sign with
        | negative => exact absurd rfl growing
        | positive => exact ⟨_, .infinity⟩
      | zero sign => exact absurd rfl growing
      | finite sign m e positive =>
        cases sign with
        | negative => exact absurd rfl growing
        | positive => exact ⟨_, .finite positive⟩
  | _ => cases one

/-- There is nothing between one and the next value after it. -/
theorem Holds.gap (holds : Holds x q) (more : 1 < q) : 1 + 4 * Dyadic.eta ≤ q := by
  obtain ⟨m, e, canonical, -, rfl⟩ := holds.exists_canonical (by linarith)
  have unit : Canonical (2 ^ 52) (-52) := ⟨by norm_num, by norm_num, .inl le_rfl⟩
  have unit_eq : ((2 ^ 52 : ℕ) * 2 ^ (-52 : ℤ) : ℚ) = 1 := by norm_num
  have step : 4 * Dyadic.eta = 2 ^ (-52 : ℤ) := by
    rw [Dyadic.eta]
    norm_num
  rw [step]
  rcases lt_trichotomy e (-52) with finer | rfl | coarser
  · have less := canonical.rounds.lt_of_exponent unit.rounds finer
    rw [unit_eq] at less
    exact absurd more less.not_gt
  · have next : 2 ^ 52 + 1 ≤ m := by
      rw [← unit_eq, mul_lt_mul_iff_left₀ (two_zpow_pos _)] at more
      exact_mod_cast more
    calc (1 : ℚ) + 2 ^ (-52 : ℤ) = (2 ^ 52 + 1 : ℕ) * 2 ^ (-52 : ℤ) := by norm_num
      _ ≤ m * 2 ^ (-52 : ℤ) := by
        apply mul_le_mul_of_nonneg_right _ (two_zpow_pos _).le
        exact_mod_cast next
  · have leading : 2 ^ 52 ≤ m := canonical.leading.resolve_right (by omega)
    calc (1 : ℚ) + 2 ^ (-52 : ℤ) ≤ (2 ^ 52 : ℕ) * 2 ^ (-51 : ℤ) := by norm_num
      _ ≤ m * 2 ^ e := by
        apply mul_le_mul
        · exact_mod_cast leading
        · exact zpow_le_zpow_right₀ one_le_two (by omega)
        · exact (two_zpow_pos _).le
        · exact Nat.cast_nonneg m

end Binary64

namespace Number

section Integers

variable {n k : ℕ} {x y : Float} {v w : WithTop ℚ}

theorem closest_ofInt (n : ℕ) : Closest n (Float.ofInt n) := by
  have closest := closest_ofScientific n false 0
  rw [if_neg Bool.false_ne_true, pow_zero, mul_one] at closest
  exact closest

theorem holds_of_ofInt? (converted : ofInt? n = some x) : ∃ q : ℚ, Closest n x ∧ Holds x q := by
  have closest := closest_ofInt n
  obtain ⟨v, holds⟩ := closest.holds
  unfold ofInt? at converted
  by_cases infinite : (Float.ofInt n).isInf = true
  · simp [infinite] at converted
  · simp only [infinite] at converted
    cases converted
    lift v to ℚ using mt holds.isInf.mpr infinite
    exact ⟨v, closest, holds⟩

theorem holds_of_positive (converted : ofInt? n = some x) (positive : 0 < n) :
    ∃ q : ℚ, Closest n x ∧ Holds x q ∧ 1 ≤ q := by
  obtain ⟨q, closest, holds⟩ := holds_of_ofInt? converted
  have one : (1 : ℚ) ≤ n := by exact_mod_cast positive
  have least := holds_one.closest.value_le closest holds_one holds one
  exact ⟨q, closest, holds, WithTop.coe_le_coe.mp least⟩

/-- What is not above an integer that converts, converts as well. -/
theorem exists_ofInt? (converted : ofInt? n = some y) (le : k ≤ n) : ∃ x, ofInt? k = some x := by
  obtain ⟨q, closest, holds⟩ := holds_of_ofInt? converted
  obtain ⟨v, holds'⟩ := (closest_ofInt k).holds
  have below := (closest_ofInt k).value_le closest holds' holds (by exact_mod_cast le)
  have finite : ¬ (Float.ofInt k).isInf = true := by
    rw [holds'.isInf]
    rintro rfl
    exact absurd below (not_le.mpr (WithTop.coe_lt_top q))
  exact ⟨Float.ofInt k, if_neg finite⟩

theorem cast_limit (R : Type) [CommRing R] {a b : ℕ} (le : b ≤ a) :
    ((2 ^ a - 2 ^ b : ℕ) : R) = 2 ^ a - 2 ^ b := by
  rw [Nat.cast_sub (Nat.pow_le_pow_right two_pos le), Nat.cast_pow, Nat.cast_pow, Nat.cast_ofNat]

/-- The integers that convert are those below the last half step before `2 ^ 1024`. -/
theorem exists_ofInt?_iff : (∃ x, ofInt? n = some x) ↔ n < 2 ^ 1024 - 2 ^ 970 := by
  obtain ⟨m, t, rounds, holds⟩ := closest_ofInt n
  have converts : (∃ x, ofInt? n = some x) ↔ ¬ (Float.ofInt n).isInf = true := by
    simp only [ofInt?]
    split_ifs with infinite
    · exact iff_of_false (by simp) (not_not.mpr infinite)
    · exact iff_of_true ⟨_, rfl⟩ infinite
  rw [converts, holds.isInf, ← ne_eq, bounded_ne_top_iff, rounds.lt_iff, ← Nat.cast_lt (α := ℚ),
    cast_limit ℚ (by norm_num), ← zpow_natCast, ← zpow_natCast]
  exact Iff.rfl

theorem exists_ofInt?_iff_cast : (∃ x, ofInt? n = some x) ↔ (n : ℤ) < 2 ^ 1024 - 2 ^ 970 := by
  rw [exists_ofInt?_iff, ← Nat.cast_lt (α := ℤ), cast_limit ℤ (by norm_num)]

theorem ofInt_eq_of_converted {m : ℤ} (converted : ofInt? m = some x) : Float.ofInt m = x := by
  unfold ofInt? at converted
  dsimp only at converted
  split_ifs at converted
  exact Option.some.inj converted

theorem rounded_eq {q : ℚ} (holds : Holds x q) : rounded x n = ⌊q⌋₊ := by
  have nonneg : ¬ (n : ℤ) < 0 := by omega
  rw [rounded, if_neg nonneg, Dyadic.floor_eq, holds.value]

end Integers

section Comparison

variable {x : Float} {v : WithTop ℚ} {cap : ℤ}

theorem intBelowFloat_iff (holds : Holds x v) (nonneg : 0 ≤ cap) :
    intBelowFloat cap x = true ↔ ((cap : ℚ) : WithTop ℚ) < v := by
  rw [intBelowFloat, holds.isNaN, if_neg Bool.false_ne_true]
  by_cases infinite : v = ⊤
  · rw [if_pos (holds.isInf.mpr infinite), infinite, decide_eq_true_iff, holds_zero.lt_iff holds,
      infinite]
    exact iff_of_true (WithTop.coe_lt_top _) (WithTop.coe_lt_top _)
  · lift v to ℚ using infinite with q
    have finite : ¬ x.isInf = true := mt holds.isInf.mp WithTop.coe_ne_top
    have above : 0.0 ≤ x := (holds_zero.le_iff holds).mpr holds.nonneg
    have below : ¬ cap < 0 := not_lt.mpr nonneg
    have whole : ((cap.toNat : ℕ) : ℚ) / ((1 : ℕ) : ℚ) = cap := by
      rw [Nat.cast_one, div_one]
      exact_mod_cast Int.toNat_of_nonneg nonneg
    rw [if_neg finite, if_pos above, decide_eq_false below, Bool.false_or, beq_iff_eq,
      Dyadic.compareQuotient_eq_gt_iff _ _ Nat.one_pos, whole, holds.value, WithTop.coe_lt_coe]

/-- An integer is never a NaN. -/
def isNaN : Number → Bool
  | int _ => false
  | float x => x.isNaN

/-- Less or equal; a NaN is so in no comparison. -/
def AtMost (a b : Number) : Prop := a.isNaN = false ∧ b.isNaN = false ∧ b.isBelow a = false

instance (a b : Number) : Decidable (a.AtMost b) :=
  inferInstanceAs (Decidable (_ ∧ _ ∧ _))

theorem atMost_self (n : ℤ) : (int n).AtMost (int n) :=
  ⟨rfl, rfl, decide_eq_false (lt_irrefl n)⟩

theorem float_atMost_iff {y : Float} {w : WithTop ℚ} (holds : Holds x v) (other : Holds y w) :
    (float x).AtMost (float y) ↔ v ≤ w := by
  rw [← not_lt, ← other.lt_iff holds, ← decide_eq_false_iff_not]
  exact ⟨fun atMost => atMost.2.2, fun kept => ⟨holds.isNaN, other.isNaN, kept⟩⟩

/-- A cap keeps the order. -/
theorem capAt_mono {y : Float} {w : WithTop ℚ} (holds : Holds x v) (other : Holds y w)
    (le : v ≤ w) (nonneg : 0 ≤ cap) : (capAt x cap).AtMost (capAt y cap) := by
  unfold capAt
  by_cases capped : intBelowFloat cap x = true
  · have above := (intBelowFloat_iff holds nonneg).mp capped
    rw [if_pos capped, if_pos ((intBelowFloat_iff other nonneg).mpr (lt_of_lt_of_le above le))]
    exact atMost_self cap
  · rw [if_neg capped]
    by_cases capped' : intBelowFloat cap y = true
    · rw [if_pos capped']
      exact ⟨holds.isNaN, rfl, Bool.eq_false_iff.mpr capped⟩
    · rw [if_neg capped']
      exact (float_atMost_iff holds other).mpr le

theorem capAt_atMost (holds : Holds x v) : (capAt x cap).AtMost (.int cap) := by
  unfold capAt
  split_ifs with capped
  · exact atMost_self cap
  · exact ⟨holds.isNaN, rfl, Bool.eq_false_iff.mpr capped⟩

/-- A cap does not help against a NaN. -/
theorem not_atMost_of_isNaN (nan : x.isNaN = true) (b : Number) : ¬ (capAt x cap).AtMost b := by
  have uncapped : intBelowFloat cap x = false := if_pos nan
  rw [capAt, uncapped, if_neg Bool.false_ne_true]
  rintro ⟨number, -⟩
  exact absurd nan (Bool.eq_false_iff.mp number)

end Comparison

section Powers

variable {base r s : Float} {v : WithTop ℚ} {m n : ℕ}

theorem exists_converted (powered : power base n = .ok s) : ∃ y, ofInt? n = some y := by
  unfold power at powered
  cases converted : ofInt? (n : ℤ) with
  | none => rw [converted] at powered; cases powered
  | some y => exact ⟨y, rfl⟩

theorem power_zero (base : Float) : power base 0 = .ok 1.0 := by
  have converted : ofInt? 0 = some 0.0 := by decide +kernel
  have whole : rounded 0.0 0 = 0 := by decide +kernel
  rw [power, converted]
  exact if_pos whole

theorem power_eq {y : Float} {q : ℚ} (converted : ofInt? n = some y) (holds : Holds y q) :
    power base n = if ⌊q⌋₊ = 0 then .ok 1.0
      else if base.isNaN then .ok base
      else if base.isInf then .ok base
      else if ((Dyadic.ofFinite base).pow ⌊q⌋₊).nearest.isInf then .error .powerOutOfRange
      else .ok ((Dyadic.ofFinite base).pow ⌊q⌋₊).nearest := by
  have nonneg : ¬ ((⌊q⌋₊ : ℕ) : ℤ) < 0 := by omega
  unfold power
  rw [converted]
  simp only [rounded_eq holds, nonneg, if_false, Int.natCast_eq_zero, Int.natAbs_natCast]

theorem power_infinite {y : Float} {q : ℚ} (converted : ofInt? n = some y) (holds : Holds y q)
    (infinite : base.isInf = true) (number : base.isNaN = false) :
    power base n = .ok (if ⌊q⌋₊ = 0 then 1.0 else base) := by
  rw [power_eq converted holds, number, if_neg Bool.false_ne_true, if_pos infinite]
  split_ifs <;> rfl

/-- A power of a finite value is a rounded one, unless it is out of range. -/
theorem power_finite {y : Float} {q : ℚ} (converted : ofInt? n = some y) (holds : Holds y q)
    (finite : ¬ base.isInf = true) (number : base.isNaN = false) :
    ∃ r, Closest ((Dyadic.ofFinite base).pow ⌊q⌋₊).value r ∧
      power base n = if r.isInf then .error .powerOutOfRange else .ok r := by
  rw [power_eq converted holds, number, if_neg Bool.false_ne_true, if_neg finite]
  by_cases none : ⌊q⌋₊ = 0
  · refine ⟨1.0, ?_, ?_⟩
    · rw [none, Dyadic.pow_zero_value]
      exact holds_one.closest
    · have some : (1.0 : Float).isInf = false := by decide +kernel
      rw [if_pos none, some]
      rfl
  · rw [if_neg none]
    exact ⟨_, Dyadic.closest_nearest _, rfl⟩

/-- How powers compare: both can be computed, and the first is at most the second. -/
def Ascends (base : Float) (m : ℕ) (s : Float) : Prop :=
  ∃ r p q, power base m = .ok r ∧ Holds r p ∧ Holds s q ∧ p ≤ q

section Ascent

variable {x y : Float} {j k : ℚ}

theorem ascends_infinite (holds : Holds base v) (grows : ((1 : ℚ) : WithTop ℚ) ≤ v)
    (infinite : base.isInf = true) (converted : ofInt? m = some x) (holds_x : Holds x j)
    (converted' : ofInt? n = some y) (holds_y : Holds y k) (fewer : ⌊j⌋₊ ≤ ⌊k⌋₊)
    (powered : power base n = .ok s) : Ascends base m s := by
  rw [power_infinite converted' holds_y infinite holds.isNaN] at powered
  cases powered
  have first := power_infinite converted holds_x infinite holds.isNaN
  by_cases none : ⌊j⌋₊ = 0
  · rw [if_pos none] at first
    by_cases none' : ⌊k⌋₊ = 0
    · rw [if_pos none']
      exact ⟨_, _, _, first, holds_one, holds_one, le_rfl⟩
    · rw [if_neg none']
      exact ⟨_, _, _, first, holds_one, holds, grows⟩
  · have some : ⌊k⌋₊ ≠ 0 := by omega
    rw [if_neg none] at first
    rw [if_neg some]
    exact ⟨_, _, _, first, holds, holds, le_rfl⟩

theorem ascends_finite {b : ℚ} (holds : Holds base b) (grows : 1 ≤ b)
    (converted : ofInt? m = some x) (holds_x : Holds x j)
    (converted' : ofInt? n = some y) (holds_y : Holds y k) (fewer : ⌊j⌋₊ ≤ ⌊k⌋₊)
    (powered : power base n = .ok s) : Ascends base m s := by
  have finite : ¬ base.isInf = true := mt holds.isInf.mp WithTop.coe_ne_top
  obtain ⟨r, rounded, r_eq⟩ := power_finite converted holds_x finite holds.isNaN
  obtain ⟨s', rounded', s_eq⟩ := power_finite converted' holds_y finite holds.isNaN
  obtain ⟨p, holds_r⟩ := rounded.holds
  obtain ⟨q, holds_s⟩ := rounded'.holds
  rw [powered] at s_eq
  split_ifs at s_eq with large
  cases s_eq
  have gap : (Dyadic.ofFinite base).value = 1 ∨
      1 + 4 * Dyadic.eta ≤ (Dyadic.ofFinite base).value := by
    rw [holds.value]
    exact grows.eq_or_lt.imp Eq.symm holds.gap
  rcases Dyadic.pow_value_mono gap fewer with le | out
  · have below := rounded.value_le rounded' holds_r holds_s le
    have small : ¬ r.isInf = true := by
      rw [holds_r.isInf]
      rintro rfl
      exact large (holds_s.isInf.mpr (top_le_iff.mp below))
    rw [if_neg small] at r_eq
    exact ⟨r, p, q, r_eq, holds_r, holds_s, below⟩
  · have reached := rounded'.ge (k := 1) (u := 1024) holds_s (by norm_num) (by norm_num)
      (by rw [Nat.cast_one, one_mul]; exact out)
    rw [Nat.cast_one, one_mul, bounded_of_le le_rfl, top_le_iff] at reached
    exact absurd (holds_s.isInf.mpr reached) large

end Ascent

/-- The powers of one value grow with the exponent, and if one of them is in range then so are all
before it. -/
theorem power_mono (holds : Holds base v) (grows : ((1 : ℚ) : WithTop ℚ) ≤ v) (le : m ≤ n)
    (powered : power base n = .ok s) : Ascends base m s := by
  obtain ⟨y, converted'⟩ := exists_converted powered
  obtain ⟨x, converted⟩ := exists_ofInt? converted' le
  obtain ⟨k, closest', holds_y⟩ := holds_of_ofInt? converted'
  obtain ⟨j, closest, holds_x⟩ := holds_of_ofInt? converted
  have fewer : ⌊j⌋₊ ≤ ⌊k⌋₊ := by
    apply Nat.floor_le_floor
    apply WithTop.coe_le_coe.mp
    exact closest.value_le closest' holds_x holds_y (by exact_mod_cast le)
  by_cases infinite : v = ⊤
  · exact ascends_infinite holds grows (holds.isInf.mpr infinite) converted holds_x converted'
      holds_y fewer powered
  · lift v to ℚ using infinite with b
    exact ascends_finite holds (WithTop.coe_le_coe.mp grows) converted holds_x converted' holds_y
      fewer powered

/-- Every power of a NaN is a NaN, but for the zeroth. -/
theorem isNaN_of_power (nan : base.isNaN = true) (positive : 0 < n)
    (powered : power base n = .ok s) : s.isNaN = true := by
  obtain ⟨y, converted⟩ := exists_converted powered
  obtain ⟨k, -, holds, large⟩ := holds_of_positive converted positive
  have some := (Nat.floor_pos.mpr large).ne'
  rw [power_eq converted holds, if_neg some, if_pos nan] at powered
  cases powered
  exact nan

end Powers

end Number

end ClusterReadiness
