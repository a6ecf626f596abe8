import ClusterReadiness.Proofs.Number.Magnitude

/-!
# Products, quotients and decimals

Values that are not negative are multiplied, divided and read from decimals to the closest value.
-/

namespace ClusterReadiness

namespace Binary64

open Float.Model Float.Model.UnpackedFloat

section Closest

/-- What is not below `2 ^ 1024` is infinite. -/
def bounded (q : ℚ) : WithTop ℚ := if q < 2 ^ (1024 : ℤ) then q else ⊤

/-- The value closest to `q`. -/
def Closest (q : ℚ) (x : Float) : Prop := ∃ n t, Rounds q n t ∧ Holds x (bounded (n * 2 ^ t))

variable {q r : ℚ} {n k : ℕ} {t u : ℤ} {x y : Float} {v w : WithTop ℚ}

theorem bounded_of_lt (less : q < 2 ^ (1024 : ℤ)) : bounded q = q := if_pos less

theorem bounded_of_le (reached : 2 ^ (1024 : ℤ) ≤ q) : bounded q = ⊤ := if_neg (not_lt.mpr reached)

theorem bounded_zero (t : ℤ) : bounded ((0 : ℕ) * 2 ^ t) = 0 := by
  rw [Nat.cast_zero, zero_mul, bounded_of_lt (two_zpow_pos 1024)]
  rfl

theorem bounded_mono (le : q ≤ r) : bounded q ≤ bounded r := by
  rcases lt_or_ge r (2 ^ (1024 : ℤ)) with less | reached
  · rw [bounded_of_lt less, bounded_of_lt (lt_of_le_of_lt le less)]
    exact WithTop.coe_le_coe.mpr le
  · rw [bounded_of_le reached]
    exact le_top

theorem bounded_ne_top_iff : bounded q ≠ ⊤ ↔ q < 2 ^ (1024 : ℤ) := by
  rcases lt_or_ge q (2 ^ (1024 : ℤ)) with less | reached
  · exact iff_of_true (by simp [bounded_of_lt less]) less
  · exact iff_of_false (by simp [bounded_of_le reached]) (not_lt.mpr reached)

theorem rounds_zero : Rounds 0 0 (-1074) :=
  ⟨le_rfl, two_zpow_pos _, .inr rfl, by simpa using isNearest_cast 0⟩

theorem exists_isNearest (nonneg : 0 ≤ q) : ∃ n, IsNearest q n := by
  have below := Nat.floor_le nonneg
  have above := Nat.lt_floor_add_one q
  obtain ⟨em, represents⟩ : ∃ em, Represents em q := by
    rcases eq_or_lt_of_le below with whole | more
    · exact ⟨⟨⌊q⌋₊, false, false⟩, whole.symm⟩
    · rcases lt_trichotomy q (⌊q⌋₊ + 1 / 2) with lower | half | upper
      · exact ⟨⟨⌊q⌋₊, false, true⟩, more, lower⟩
      · exact ⟨⟨⌊q⌋₊, true, false⟩, half⟩
      · exact ⟨⟨⌊q⌋₊, true, true⟩, upper, above⟩
  exact ⟨em.roundedMantissa, represents.isNearest⟩

theorem exists_rounds (nonneg : 0 ≤ q) : ∃ n t, Rounds q n t := by
  rcases eq_or_lt_of_le nonneg with rfl | positive
  · exact ⟨0, -1074, rounds_zero⟩
  · obtain ⟨n, nearest⟩ := exists_isNearest
      (div_nonneg nonneg (two_zpow_pos (max (Int.log 2 q - 52) (-1074))).le)
    refine ⟨n, _, le_max_right _ _, ?_, ?_, nearest⟩
    · calc q < 2 ^ (Int.log 2 q + 1) := by exact_mod_cast Int.lt_zpow_succ_log_self one_lt_two q
        _ ≤ 2 ^ (max (Int.log 2 q - 52) (-1074) + 53) :=
          zpow_le_zpow_right₀ one_le_two (by omega)
    · rcases max_choice (Int.log 2 q - 52) (-1074) with normal | least
      · left
        rw [normal, sub_add_cancel]
        exact_mod_cast Int.zpow_log_le_self one_lt_two positive
      · exact .inr least

theorem Holds.unique (holds : Holds x v) (other : Holds x w) : v = w := by
  have self : x ≤ x := (holds.le_iff holds).mpr le_rfl
  exact le_antisymm ((holds.le_iff other).mp self) ((other.le_iff holds).mp self)

theorem Closest.mono (closest : Closest q x) (other : Closest r y) (le : q ≤ r) : x ≤ y := by
  obtain ⟨n, t, rounds, holds⟩ := closest
  obtain ⟨k, u, rounds', holds'⟩ := other
  exact (holds.le_iff holds').mpr (bounded_mono (rounds.mono rounds' le))

theorem Closest.exact (closest : Closest (k * 2 ^ u) x) (digits : k < 2 ^ 53) (least : -1074 ≤ u) :
    Holds x (bounded (k * 2 ^ u)) := by
  obtain ⟨n, t, rounds, holds⟩ := closest
  rwa [rounds.exact digits least] at holds

/-- What is not below a number of 53 digits is not rounded below it. -/
theorem Closest.ge (closest : Closest q x) (holds : Holds x v) (digits : k < 2 ^ 53)
    (least : -1074 ≤ u) (le : k * 2 ^ u ≤ q) : bounded (k * 2 ^ u) ≤ v := by
  obtain ⟨n, t, rounds, stored⟩ := closest
  obtain ⟨m, e, rounds'⟩ := exists_rounds (mul_nonneg (Nat.cast_nonneg k) (two_zpow_pos u).le)
  rw [holds.unique stored, ← rounds'.exact digits least]
  exact bounded_mono (rounds'.mono rounds le)

theorem Canonical.stands (canonical : Canonical n t) (positive : 0 < n) :
    Stands (Float.Model.pack (.finite .positive n t positive)).unpack (bounded (n * 2 ^ t)) := by
  by_cases small : t ≤ 971
  · rw [unpack_pack_finite canonical small, bounded_of_lt (canonical.lt_iff.mpr small)]
    exact .finite positive
  · rw [pack_of_lt (not_le.mp small), unpack_pack_infinity,
      bounded_of_le (not_lt.mp (mt canonical.lt_iff.mp small))]
    exact .infinity

theorem Rounds.stands (rounds : Rounds q n t) :
    Stands (Float.Model.pack (carry .positive n t)).unpack (bounded (n * 2 ^ t)) := by
  have least := rounds.least
  unfold carry
  split_ifs with zero less
  · rw [unpack_pack_zero, zero, bounded_zero]
    exact .zero
  · exact Canonical.stands ⟨less, least, rounds.leading⟩ _
  · obtain rfl : n = 2 ^ 53 := le_antisymm rounds.digits (not_lt.mp less)
    have halved : ((2 ^ 53 : ℕ) * 2 ^ t : ℚ) = (2 ^ 52 : ℕ) * 2 ^ (t + 1) := by
      rw [zpow_add₀ two_ne_zero]
      push_cast
      ring
    rw [halved]
    exact Canonical.stands ⟨by norm_num, by omega, .inl le_rfl⟩ _

/-- A rounding of the core library, stored. -/
theorem closest_of_represents {m : ℕ} {e : ℤ} {accuracy : Accuracy} {p : ℚ}
    (represents : Represents (.ofMantissaAndAccuracy m accuracy) p) (fine : e ≤ target m e) :
    Closest (p * 2 ^ e)
      (.ofModel (.pack (roundWithAccuracy .binary64 .positive m e accuracy))) := by
  obtain ⟨n, t, rounds, eq⟩ := roundWithAccuracy_eq .positive represents fine
  refine ⟨n, t, rounds, ?_⟩
  rw [eq]
  exact rounds.stands

end Closest

section Products

variable {x y : Float} {v w : WithTop ℚ} {p q : ℚ}

/-- Two mantissas that fill 53 digits, or stand at the least exponent, leave no digit to find. -/
theorem fine_mul {m n : ℕ} {e t : ℤ} (canonical : Canonical m e) (other : Canonical n t)
    (positive : 0 < m) (positive' : 0 < n) : e + t ≤ target (m * n) (e + t) := by
  rw [target_eq]
  by_cases full : 2 ^ 52 ≤ m * n
  · have reach : 52 ≤ (m * n).log2 := (Nat.le_log2 (Nat.mul_pos positive positive').ne').mpr full
    omega
  · have least : e = -1074 := by
      refine canonical.leading.resolve_left fun leading => full ?_
      exact le_trans leading (Nat.le_mul_of_pos_right m positive')
    have least' : t = -1074 := by
      refine other.leading.resolve_left fun leading => full ?_
      exact le_trans leading (Nat.le_mul_of_pos_left n positive)
    omega

theorem closest_zero : Closest 0 (.ofModel (.pack (.zero .positive))) := by
  refine ⟨0, -1074, rounds_zero, ?_⟩
  rw [bounded_zero]
  exact .zero

theorem Stands.mul {left right : UnpackedFloat} {d d' : Dyadic} (stands : Stands left p)
    (other : Stands right q) (stored : Stored left d) (stored' : Stored right d') :
    Closest (p * q) (.ofModel (.pack (UnpackedFloat.mul .binary64 left right))) := by
  rcases stands.zero_or_finite with ⟨rfl, rfl⟩ | ⟨m, e, positive, rfl, rfl⟩
  · rw [zero_mul]
    rcases other.zero_or_finite with ⟨rfl, -⟩ | ⟨n, t, positive', rfl, -⟩ <;> exact closest_zero
  rcases other.zero_or_finite with ⟨rfl, rfl⟩ | ⟨n, t, positive', rfl, rfl⟩
  · rw [mul_zero]
    exact closest_zero
  · have product : (m * 2 ^ e * (n * 2 ^ t) : ℚ) = (m * n : ℕ) * 2 ^ (e + t) := by
      rw [zpow_add₀ two_ne_zero]
      push_cast
      ring
    rw [product]
    exact closest_of_represents (represents_exact _)
      (fine_mul stored.finite_inv.1 stored'.finite_inv.1 positive positive')

theorem closest_mul (holds : Holds x p) (other : Holds y q) : Closest (p * q) (x * y) :=
  Stands.mul holds other (stored x) (stored y)

theorem holds_mul_infinity (holds : Holds x p) (positive : 0 < p) (other : Holds y ⊤) :
    Holds (x * y) ⊤ := by
  have product : UnpackedFloat.mul .binary64 x.toModel.unpack y.toModel.unpack =
      .infinity .positive := by
    unfold Holds at other
    generalize y.toModel.unpack = right at other
    cases other
    rcases Stands.zero_or_finite holds with ⟨-, rfl⟩ | ⟨m, e, some, unpacked, -⟩
    · exact absurd positive (lt_irrefl 0)
    · rw [unpacked]
      rfl
  show Stands (Float.Model.pack (UnpackedFloat.mul .binary64 _ _)).unpack ⊤
  rw [product, unpack_pack_infinity]
  exact .infinity

theorem isNaN_mul (x : Float) (nan : y.isNaN = true) : (x * y).isNaN = true := by
  have product : UnpackedFloat.mul .binary64 x.toModel.unpack y.toModel.unpack = .notANumber := by
    change y.toModel.unpack.isNaN = true at nan
    generalize y.toModel.unpack = right at nan
    cases right with
    | notANumber => cases x.toModel.unpack <;> rfl
    | _ => cases nan
  show (Float.Model.pack (UnpackedFloat.mul .binary64 _ _)).unpack.isNaN = true
  rw [product, unpack_pack_notANumber]
  rfl

end Products

section Quotients

variable {m n : ℕ} {e t : ℤ}

/-- The exponent of a quotient, small enough to leave 53 digits. -/
def quotientExponent (m : ℕ) (e : ℤ) (n : ℕ) (t : ℤ) : ℤ :=
  min (e - t) (Format.binary64.targetExponent (totalExponent m e - totalExponent n t))

theorem quotientExponent_le (m : ℕ) (e : ℤ) (n : ℕ) (t : ℤ) : quotientExponent m e n t ≤ e - t ∧
    quotientExponent m e n t ≤ max (m.log2 + e - (n.log2 + t) - 53) (-1074) := by
  simp only [quotientExponent, Format.targetExponent, totalExponent, Format.mantissaBits,
    Format.minExponent]
  norm_num
  omega

theorem fine_div {k : ℕ} (positive : 0 < m) (positive' : 0 < n)
    (shifted : e - t = quotientExponent m e n t + k) : quotientExponent m e n t ≤
      target (m <<< k / n) (quotientExponent m e n t) := by
  obtain ⟨-, le⟩ := quotientExponent_le m e n t
  rw [target_eq]
  rcases le_max_iff.mp le with wide | least
  · have reach : 2 ^ 52 ≤ m <<< k / n := by
      rw [Nat.le_div_iff_mul_le positive', Nat.shiftLeft_eq]
      calc 2 ^ 52 * n ≤ 2 ^ 52 * 2 ^ (n.log2 + 1) := Nat.mul_le_mul_left _ Nat.lt_log2_self.le
        _ = 2 ^ (n.log2 + 53) := by rw [← pow_add]; congr 1; omega
        _ ≤ 2 ^ (m.log2 + k) := Nat.pow_le_pow_right two_pos (by omega)
        _ = 2 ^ m.log2 * 2 ^ k := pow_add _ _ _
        _ ≤ m * 2 ^ k := Nat.mul_le_mul_right _ (Nat.log2_self_le positive.ne')
    have digits : 52 ≤ (m <<< k / n).log2 := (Nat.le_log2 (by omega)).mpr reach
    omega
  · omega

theorem cast_div_add_mod (positive : 0 < n) : ((m / n : ℕ) + (m % n : ℕ) / n : ℚ) = m / n := by
  have some : (n : ℚ) ≠ 0 := by exact_mod_cast positive.ne'
  have parts : (n * (m / n : ℕ) + (m % n : ℕ) : ℚ) = m := by exact_mod_cast Nat.div_add_mod m n
  rw [← parts, add_div, mul_div_cancel_left₀ _ some]

theorem closest_div_finite (positive : 0 < m) (positive' : 0 < n) :
    Closest ((m * 2 ^ e) / (n * 2 ^ t)) (.ofModel (.pack (UnpackedFloat.div .binary64
      (.finite .positive m e positive) (.finite .positive n t positive')))) := by
  obtain ⟨k, shifted⟩ : ∃ k : ℕ, e - t = quotientExponent m e n t + k :=
    ⟨(e - t - quotientExponent m e n t).toNat, by have := (quotientExponent_le m e n t).1; omega⟩
  have core : divCore .binary64 m e n t = (m <<< k / n, quotientExponent m e n t,
      accuracyOfFraction (m <<< k % n) n) := by
    have amount : (e - t - quotientExponent m e n t).toNat = k := by omega
    show (m <<< (e - t - quotientExponent m e n t).toNat / n, quotientExponent m e n t,
      accuracyOfFraction (m <<< (e - t - quotientExponent m e n t).toNat % n) n) = _
    rw [amount]
  have value : ((m * 2 ^ e) / (n * 2 ^ t) : ℚ) =
      ((m <<< k / n : ℕ) + (m <<< k % n : ℕ) / n) * 2 ^ quotientExponent m e n t := by
    rw [cast_div_add_mod positive', Nat.shiftLeft_eq]
    push_cast
    calc (m * 2 ^ e / (n * 2 ^ t) : ℚ) = m / n * 2 ^ (e - t) := by
          rw [zpow_sub₀ two_ne_zero, mul_div_mul_comm]
      _ = m * 2 ^ k / n * 2 ^ quotientExponent m e n t := by
          rw [shifted, zpow_add₀ two_ne_zero, zpow_natCast]
          ring
  rw [value]
  show Closest _ (.ofModel (.pack (roundWithAccuracy .binary64 .positive
    (divCore .binary64 m e n t).1 (divCore .binary64 m e n t).2.1
    (divCore .binary64 m e n t).2.2)))
  rw [core]
  exact closest_of_represents (represents_fraction (Nat.mod_lt _ positive'))
    (fine_div positive positive' shifted)

theorem closest_div {x y : Float} {p q : ℚ} (holds : Holds x p) (other : Holds y q)
    (positive : 0 < q) : Closest (p / q) (x / y) := by
  show Closest _ (.ofModel (.pack (UnpackedFloat.div .binary64 x.toModel.unpack y.toModel.unpack)))
  rcases Stands.zero_or_finite other with ⟨-, rfl⟩ | ⟨n, t, some, unpacked, rfl⟩
  · exact absurd positive (lt_irrefl 0)
  rw [unpacked]
  rcases Stands.zero_or_finite holds with ⟨unpacked', rfl⟩ | ⟨m, e, some', unpacked', rfl⟩
  · rw [unpacked', zero_div]
    exact closest_zero
  · rw [unpacked']
    exact closest_div_finite _ _

end Quotients

section Integers

variable {m k : ℕ} {e : ℤ}

theorem log2_shiftLeft (positive : 0 < m) (k : ℕ) : (m <<< k).log2 = m.log2 + k := by
  rw [Nat.shiftLeft_eq, Nat.log2_eq_iff (Nat.mul_pos positive (Nat.two_pow_pos k)).ne']
  have below := Nat.log2_self_le positive.ne'
  have above := @Nat.lt_log2_self m
  constructor
  · rw [pow_add]
    exact Nat.mul_le_mul_right _ below
  · rw [Nat.add_right_comm, pow_add]
    exact Nat.mul_lt_mul_of_pos_right above (Nat.two_pow_pos k)

theorem closest_round (positive : 0 < m) (e : ℤ) :
    Closest (m * 2 ^ e) (.ofModel (.pack (UnpackedFloat.round .binary64 .positive m e))) := by
  have fine : e - (e - target m e).toNat ≤
      target (m <<< (e - target m e).toNat) (e - (e - target m e).toNat) := by
    have first := target_eq m e
    have shifted := target_eq (m <<< (e - target m e).toNat) (e - (e - target m e).toNat)
    rw [log2_shiftLeft positive] at shifted
    omega
  have same : (m * 2 ^ e : ℚ) = (m <<< (e - target m e).toNat : ℕ) *
      2 ^ (e - (e - target m e).toNat) := by
    rw [Nat.shiftLeft_eq, zpow_sub₀ two_ne_zero, zpow_natCast]
    push_cast
    field_simp
  rw [same]
  exact closest_of_represents (represents_exact _) fine

theorem closest_toFloat (word : UInt64) : Closest (word.toNat : ℚ) word.toFloat := by
  show Closest _ (.ofModel (.pack (normalize .binary64 word.toNat 0 .positive)))
  rcases Nat.eq_zero_or_pos word.toNat with zero | positive
  · rw [zero]
    exact closest_zero
  · have more : compare (word.toNat : ℤ) 0 = .gt := Int.compare_eq_gt.mpr (by omega)
    have closest := closest_round positive 0
    rw [zpow_zero, mul_one] at closest
    simp only [UnpackedFloat.normalize, more]
    exact closest

theorem holds_toFloat (digits : m < 2 ^ 53) : Holds m.toUInt64.toFloat ((m : ℚ) : WithTop ℚ) := by
  have word : m.toUInt64.toNat = m := by
    show m % 2 ^ 64 = m
    omega
  have closest := closest_toFloat m.toUInt64
  rw [word, ← mul_one (m : ℚ), ← zpow_zero (2 : ℚ)] at closest
  have holds := closest.exact digits (by omega)
  rw [zpow_zero, mul_one, bounded_of_lt] at holds
  · exact holds
  · calc (m : ℚ) < 2 ^ (53 : ℤ) := by exact_mod_cast digits
      _ ≤ 2 ^ (1024 : ℤ) := zpow_le_zpow_right₀ one_le_two (by norm_num)

end Integers

section Decimals

variable {m e : ℕ} {q : ℚ}

theorem closest_infinity (reached : 2 ^ (1024 : ℤ) ≤ q) :
    Closest q (.ofModel (.pack (.infinity .positive))) := by
  obtain ⟨n, t, rounds⟩ := exists_rounds (le_trans (two_zpow_pos 1024).le reached)
  obtain ⟨k, u, rounds'⟩ := exists_rounds (two_zpow_pos 1024).le
  have exact : (k * 2 ^ u : ℚ) = 2 ^ (1024 : ℤ) := by
    rw [← one_mul ((2 : ℚ) ^ (1024 : ℤ)), ← Nat.cast_one] at rounds' ⊢
    exact rounds'.exact (by norm_num) (by norm_num)
  refine ⟨n, t, rounds, ?_⟩
  rw [bounded_of_le (exact.symm.le.trans (rounds'.mono rounds reached))]
  show Stands (Float.Model.pack _).unpack _
  rw [unpack_pack_infinity]
  exact .infinity

theorem closest_tiny (nonneg : 0 ≤ q) (tiny : q < 2 ^ (-1075 : ℤ)) :
    Closest q (.ofModel (.pack (.zero .positive))) := by
  obtain ⟨n, t, rounds⟩ := exists_rounds nonneg
  have least : t = -1074 := by
    refine rounds.normal.resolve_left fun normal => ?_
    have := rounds.least
    have : (2 : ℚ) ^ (-1075 : ℤ) ≤ 2 ^ (t + 52) := zpow_le_zpow_right₀ one_le_two (by omega)
    linarith
  have none : n = 0 := by
    have half : q / 2 ^ t < 1 / 2 := by
      rw [div_lt_iff₀ (two_zpow_pos t), least]
      calc q < 2 ^ (-1074 - 1 : ℤ) := tiny
        _ = 1 / 2 * 2 ^ (-1074 : ℤ) := by rw [zpow_sub₀ two_ne_zero]; ring
    have : (n : ℚ) < 1 := by linarith [rounds.nearest.below]
    exact Nat.lt_one_iff.mp (by exact_mod_cast this)
  refine ⟨n, t, rounds, ?_⟩
  rw [none, bounded_zero]
  exact .zero

def isPositive : UnpackedFloat → Bool
  | .finite .positive _ _ _ => true
  | _ => false

theorem holds_of_isPositive {x : Float} (positive : isPositive x.toModel.unpack = true) :
    Holds x ((Dyadic.ofFinite x).value : WithTop ℚ) := by
  have stored := stored x
  unfold Holds
  generalize x.toModel.unpack = u at positive stored
  generalize Dyadic.ofFinite x = d at stored
  cases stored with
  | finite sign some =>
    cases sign with
    | positive => exact .finite some
    | negative => cases positive
  | _ => cases positive

theorem powersOfTen_exact : ∀ e : Fin Float.exactlyRepresentablePowersOfTen.size,
    let x := Float.exactlyRepresentablePowersOfTen[e]
    isPositive x.toModel.unpack = true ∧
      (Dyadic.ofFinite x).mantissa * 2 ^ (Dyadic.ofFinite x).exponent.toNat =
        10 ^ e.val * 2 ^ (-(Dyadic.ofFinite x).exponent).toNat := by
  decide +kernel

theorem holds_powerOfTen (small : e < Float.exactlyRepresentablePowersOfTen.size) :
    Holds Float.exactlyRepresentablePowersOfTen[e] ((10 ^ e : ℚ) : WithTop ℚ) := by
  obtain ⟨positive, exact⟩ := powersOfTen_exact ⟨e, small⟩
  have holds := holds_of_isPositive positive
  rw [Dyadic.value_eq, exact, Nat.cast_mul, mul_div_cancel_right₀ _ (by positivity)] at holds
  exact_mod_cast holds

theorem closest_ofScientific_of_le (digits : m < 2 ^ 53) (small : e ≤ 22) (sign : Bool) :
    Closest (if sign then (m : ℚ) / 10 ^ e else m * 10 ^ e) (Float.ofScientific m sign e) := by
  have holds := holds_powerOfTen (Nat.lt_succ_of_le small)
  rw [Float.ofScientific, dif_pos ⟨digits, small⟩]
  cases sign
  · exact closest_mul (holds_toFloat digits) holds
  · exact closest_div (holds_toFloat digits) holds (by positivity)

theorem two_pow_le_ten_pow (e : ℕ) : (2 : ℚ) ^ e ≤ 10 ^ e :=
  pow_le_pow_left₀ (by norm_num) (by norm_num) e

theorem two_zpow_le_decimal (some : 0 < m) (long : 1024 ≤ e) :
    (2 : ℚ) ^ (1024 : ℤ) ≤ m * 10 ^ e := by
  have one : (1 : ℚ) ≤ m := by exact_mod_cast some
  calc (2 : ℚ) ^ (1024 : ℤ) ≤ 2 ^ (e : ℤ) := zpow_le_zpow_right₀ one_le_two (by omega)
    _ = 2 ^ e := zpow_natCast _ _
    _ ≤ 10 ^ e := two_pow_le_ten_pow e
    _ ≤ m * 10 ^ e := le_mul_of_one_le_left (by positivity) one

theorem decimal_lt_two_zpow (long : m.log2 + 1076 ≤ e) :
    (m / 10 ^ e : ℚ) < 2 ^ (-1075 : ℤ) := by
  rw [div_lt_iff₀ (by positivity)]
  calc (m : ℚ) < 2 ^ (m.log2 + 1) := by exact_mod_cast Nat.lt_log2_self
    _ = 2 ^ (m.log2 + 1 : ℤ) := by exact_mod_cast rfl
    _ ≤ 2 ^ (-1075 + e : ℤ) := zpow_le_zpow_right₀ one_le_two (by omega)
    _ = 2 ^ (-1075 : ℤ) * 2 ^ e := by rw [zpow_add₀ two_ne_zero, zpow_natCast]
    _ ≤ 2 ^ (-1075 : ℤ) * 10 ^ e :=
      mul_le_mul_of_nonneg_left (two_pow_le_ten_pow e) (two_zpow_pos _).le

/-- Fifty-three digits more than it has are enough for a whole number. -/
theorem fine_decimal (some : 0 < m) (e : ℕ) :
    -53 + 0 ≤ target (m <<< 53 * 10 ^ e) (-53 + 0) := by
  have full : 2 ^ 53 ≤ m <<< 53 * 10 ^ e := by
    have one : 1 ≤ m * 10 ^ e := Nat.mul_pos some (by positivity)
    calc 2 ^ 53 = 1 * 2 ^ 53 := (one_mul _).symm
      _ ≤ m * 10 ^ e * 2 ^ 53 := Nat.mul_le_mul_right _ one
      _ = m <<< 53 * 10 ^ e := by rw [Nat.shiftLeft_eq, Nat.mul_right_comm]
  have digits : 53 ≤ (m <<< 53 * 10 ^ e).log2 := (Nat.le_log2 (by omega)).mpr full
  rw [target_eq]
  omega

theorem closest_model_mul (m e : ℕ) :
    Closest (m * 10 ^ e) (.ofModel (Float.Model.ofScientific m e)) := by
  unfold Float.Model.ofScientific UnpackedFloat.ofScientific
  split_ifs with zero large small
  · rw [zero, Nat.cast_zero, zero_mul]
    exact closest_zero
  · have long : (2 : ℤ) ^ 11 < e := large
    exact closest_infinity (two_zpow_le_decimal (Nat.pos_of_ne_zero zero) (by omega))
  · omega
  · have same : (m * 10 ^ e : ℚ) = (m <<< 53 * 10 ^ e : ℕ) * 2 ^ (-53 + 0 : ℤ) := by
      rw [Nat.shiftLeft_eq, add_zero, zpow_neg]
      push_cast
      field_simp
    rw [same]
    exact closest_of_represents (represents_exact _) (fine_decimal (Nat.pos_of_ne_zero zero) e)
  · omega

theorem closest_model_div (m e : ℕ) :
    Closest (m / 10 ^ e) (.ofModel (Float.Model.ofScientific m (-e))) := by
  rcases Nat.eq_zero_or_pos e with rfl | some
  · have closest := closest_model_mul m 0
    rw [pow_zero, mul_one] at closest
    rw [pow_zero, div_one]
    exact closest
  unfold Float.Model.ofScientific UnpackedFloat.ofScientific
  split_ifs with zero large small whole
  · rw [zero, Nat.cast_zero, zero_div]
    exact closest_zero
  · have : (2 : ℤ) ^ 11 < -e := large
    omega
  · have long : (-e : ℤ) < -(2 ^ 11 + m.log2) := small
    exact closest_tiny (by positivity) (decimal_lt_two_zpow (by omega))
  · omega
  · have closest := closest_div_finite (e := 0) (t := 0) (Nat.pos_of_ne_zero zero)
      (Nat.pow_pos (a := 10) (n := e) (by norm_num))
    rw [zpow_zero, mul_one, mul_one] at closest
    have power : (-(-e : ℤ)).toNat = e := by omega
    simp only [power]
    exact_mod_cast closest

/-- Decimals are read to the closest value. -/
theorem closest_ofScientific (m : ℕ) (sign : Bool) (e : ℕ) :
    Closest (if sign then (m : ℚ) / 10 ^ e else m * 10 ^ e) (Float.ofScientific m sign e) := by
  by_cases fast : m < 2 ^ 53 ∧ e ≤ 22
  · exact closest_ofScientific_of_le fast.1 fast.2 sign
  · have slow : Float.ofScientific m sign e = .ofModel (Float.Model.ofScientific m
        (if sign then Int.negOfNat e else Int.ofNat e)) := by
      rw [Float.ofScientific, dif_neg fast]
    rw [slow]
    cases sign
    · exact closest_model_mul m e
    · have negated : Int.negOfNat e = -e := Int.negOfNat_eq
      simp only [if_true, negated]
      exact closest_model_div m e

end Decimals

end Binary64

end ClusterReadiness
