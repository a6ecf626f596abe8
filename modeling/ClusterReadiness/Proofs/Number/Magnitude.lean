import ClusterReadiness.Number.Basic
import ClusterReadiness.Proofs.Number.Rounding
import Mathlib

/-!
# What a binary64 value stands for

The bits of a value are taken apart into sign, exponent and mantissa, and the mantissas with their
exponents are the roundings that are stored as they are. A value that is neither negative nor NaN
stands for a magnitude, with infinity above all, and the comparisons of values are those of their
magnitudes.
-/

namespace ClusterReadiness

/-- The number that mantissa and exponent stand for. -/
def Dyadic.value (d : Dyadic) : ℚ := d.mantissa * 2 ^ d.exponent

/-- The number as a quotient of naturals. -/
theorem Dyadic.value_eq (d : Dyadic) :
    d.value = (d.mantissa * 2 ^ d.exponent.toNat : ℕ) / (2 ^ (-d.exponent).toNat : ℕ) := by
  rw [eq_div_iff (by positivity), Dyadic.value]
  push_cast
  rw [mul_assoc, ← zpow_natCast, ← zpow_natCast, ← zpow_add₀ two_ne_zero]
  congr 2
  omega

namespace Binary64

open Float.Model Float.Model.UnpackedFloat

section Packing

/-- Mantissa and exponent of a finite value as it is stored. -/
structure Canonical (m : ℕ) (e : ℤ) : Prop where
  digits : m < 2 ^ 53
  least : -1074 ≤ e
  leading : 2 ^ 52 ≤ m ∨ e = -1074

variable {sign : Sign} {m n : ℕ} {e t : ℤ} {positive : 0 < m}

theorem Canonical.rounds (canonical : Canonical m e) : Rounds (m * 2 ^ e) m e where
  least := canonical.least
  below := by
    rw [zpow_add₀ two_ne_zero, mul_comm ((2 : ℚ) ^ e)]
    apply mul_lt_mul_of_pos_right _ (two_zpow_pos e)
    exact_mod_cast canonical.digits
  normal := by
    refine canonical.leading.imp_left fun leading => ?_
    rw [zpow_add₀ two_ne_zero, mul_comm ((2 : ℚ) ^ e)]
    apply mul_le_mul_of_nonneg_right _ (two_zpow_pos e).le
    exact_mod_cast leading
  nearest := by
    rw [mul_div_cancel_right₀ _ (two_zpow_pos e).ne']
    exact isNearest_cast m

/-- Where the finite values end. -/
theorem Canonical.lt_iff (canonical : Canonical m e) :
    (m * 2 ^ e : ℚ) < 2 ^ (1024 : ℤ) ↔ e ≤ 971 := by
  constructor
  · intro less
    by_contra more
    have normal := canonical.rounds.normal.resolve_right (by omega)
    have : (2 : ℚ) ^ (1024 : ℤ) ≤ 2 ^ (e + 52) := zpow_le_zpow_right₀ one_le_two (by omega)
    linarith
  · intro le
    have : (2 : ℚ) ^ (e + 53) ≤ 2 ^ (1024 : ℤ) := zpow_le_zpow_right₀ one_le_two (by omega)
    exact lt_of_lt_of_le canonical.rounds.below this

/-- Beyond the largest exponent the magnitude is lost. -/
theorem pack_of_lt (large : 971 < e) :
    Float.Model.pack (.finite sign m e positive) = Float.Model.pack (.infinity sign) := by
  have biased : 2 ^ 11 ≤ (e + 1023 + 52).toNat + 1 := by omega
  unfold Float.Model.pack
  congr 2
  exact if_pos biased

theorem log2_eq_iff (positive : 0 < m) (digits : m < 2 ^ 53) : m.log2 + 1 = 53 ↔ 2 ^ 52 ≤ m := by
  rw [← Nat.le_log2 positive.ne']
  have := (Nat.log2_lt positive.ne').mpr digits
  omega

section Components

variable {exponent : BitVec 11} {mantissa : BitVec 52}

theorem toNat_implicit (mantissa : BitVec 52) :
    (1#1 ++ mantissa).toNat = 2 ^ 52 + mantissa.toNat := by
  rw [BitVec.toNat_append, ← Nat.shiftLeft_add_eq_or_of_lt mantissa.isLt]
  simp

theorem unpack_normal (some : exponent ≠ 0#11) (less : exponent ≠ -1#11) :
    UnpackedFloat.unpack .binary64 (packComponents .binary64 sign exponent mantissa) =
      .finite sign (2 ^ 52 + mantissa.toNat) (exponent.toNat - 1075) (by positivity) := by
  simp only [UnpackedFloat.unpack, unpackMantissa_packComponents, unpackExponent_packComponents,
    unpackSign_packComponents, Sign.ofBitVec_toBitVec, some, less, if_false, toNat_implicit]
  rfl

theorem unpack_subnormal (some : mantissa ≠ 0#52) (positive : 0 < mantissa.toNat) :
    UnpackedFloat.unpack .binary64 (packComponents .binary64 sign 0#11 mantissa) =
      .finite sign mantissa.toNat (-1074) positive := by
  have less : (0#11) ≠ -1#11 := by decide
  simp only [UnpackedFloat.unpack, unpackMantissa_packComponents, unpackExponent_packComponents,
    unpackSign_packComponents, Sign.ofBitVec_toBitVec, some, less, if_false, if_true, dif_neg,
    not_false_eq_true]
  rfl

theorem unpack_last :
    UnpackedFloat.unpack .binary64 (packComponents .binary64 sign (-1#11) mantissa) =
      if mantissa = 0#52 then .infinity sign else .notANumber := by
  simp only [UnpackedFloat.unpack, unpackMantissa_packComponents, unpackExponent_packComponents,
    unpackSign_packComponents, Sign.ofBitVec_toBitVec, if_true]

theorem unpack_zero :
    UnpackedFloat.unpack .binary64 (packComponents .binary64 sign 0#11 0#52) = .zero sign := by
  cases sign <;> rfl

/-- The parts of a stored value. -/
theorem exists_components (x : Float) : ∃ (sign : Sign) (exponent : BitVec 11)
    (mantissa : BitVec 52),
    x.toModel.unpack =
      UnpackedFloat.unpack .binary64 (packComponents .binary64 sign exponent mantissa) ∧
    Dyadic.ofFinite x = if exponent.toNat = 0 then ⟨mantissa.toNat, -1074⟩
      else ⟨2 ^ 52 + mantissa.toNat, exponent.toNat - 1075⟩ := by
  let bits : BitVec 64 := x.toModel.toBits.toBitVec
  refine ⟨.ofBitVec (@unpackSign .binary64 bits), @unpackExponent .binary64 bits,
    @unpackMantissa .binary64 bits, ?_, ?_⟩
  · rw [packComponents_unpackSign_unpackExponent_unpackMantissa]
    rfl
  · rw [unpackExponent_def, unpackMantissa_def, BitVec.extractLsb'_toNat,
      BitVec.extractLsb'_toNat]
    rfl

end Components

theorem pack_finite (canonical : Canonical m e) (small : e ≤ 971) :
    UnpackedFloat.pack .binary64 (.finite sign m e positive) =
      if 2 ^ 52 ≤ m then packComponents .binary64 sign (BitVec.ofNat 11 (e + 1023 + 52).toNat)
        (BitVec.ofNat 52 m)
      else packComponents .binary64 sign 0#11 (BitVec.ofNat 52 m) := by
  have unbiased : ¬ 2 ^ 11 ≤ (e + 1023 + 52).toNat + 1 := by omega
  simp only [← log2_eq_iff positive canonical.digits]
  exact if_neg unbiased

theorem unpack_pack_finite (canonical : Canonical m e) (small : e ≤ 971) :
    (Float.Model.pack (.finite sign m e positive)).unpack = .finite sign m e positive := by
  have least := canonical.least
  have digits := canonical.digits
  show UnpackedFloat.unpack .binary64 (UnpackedFloat.pack .binary64 _) = _
  rw [pack_finite canonical small]
  have mantissa_eq : (BitVec.ofNat 52 m).toNat = m % 2 ^ 52 := BitVec.toNat_ofNat _ _
  split_ifs with normal
  · have exponent_eq : (BitVec.ofNat 11 (e + 1023 + 52).toNat).toNat = (e + 1023 + 52).toNat := by
      rw [BitVec.toNat_ofNat]
      omega
    rw [unpack_normal]
    · congr 1 <;> omega
    · intro none
      rw [none] at exponent_eq
      simp only [BitVec.toNat_ofNat] at exponent_eq
      omega
    · intro all
      rw [all] at exponent_eq
      change 2047 = _ at exponent_eq
      omega
  · obtain rfl : e = -1074 := canonical.leading.resolve_left normal
    have mantissa_eq : (BitVec.ofNat 52 m).toNat = m := by omega
    rw [unpack_subnormal]
    · congr 1
    · intro none
      rw [none] at mantissa_eq
      simp only [BitVec.toNat_ofNat] at mantissa_eq
      omega
    · omega

theorem unpack_pack_infinity (sign : Sign) :
    (Float.Model.pack (.infinity sign)).unpack = .infinity sign := by
  cases sign <;> rfl

theorem unpack_pack_zero (sign : Sign) : (Float.Model.pack (.zero sign)).unpack = .zero sign := by
  cases sign <;> rfl

theorem unpack_pack_notANumber : (Float.Model.pack .notANumber).unpack = .notANumber := rfl

/-- What is stored, and what is read off its bits. -/
inductive Stored : UnpackedFloat → Dyadic → Prop where
  | notANumber (d : Dyadic) : Stored .notANumber d
  | infinity (sign : Sign) (d : Dyadic) : Stored (.infinity sign) d
  | zero (sign : Sign) : Stored (.zero sign) ⟨0, -1074⟩
  | finite {m : ℕ} {e : ℤ} (sign : Sign) (positive : 0 < m) (canonical : Canonical m e)
    (small : e ≤ 971) : Stored (.finite sign m e positive) ⟨m, e⟩

theorem Stored.finite_inv {d : Dyadic} (stored : Stored (.finite sign m e positive) d) :
    Canonical m e ∧ e ≤ 971 ∧ d = ⟨m, e⟩ := by
  cases stored with | finite _ _ canonical small =>
  exact ⟨canonical, small, rfl⟩

theorem Stored.zero_inv {d : Dyadic} (stored : Stored (.zero sign) d) : d = ⟨0, -1074⟩ := by
  cases stored
  rfl

theorem stored (x : Float) : Stored x.toModel.unpack (Dyadic.ofFinite x) := by
  obtain ⟨sign, exponent, mantissa, parts, read⟩ := exists_components x
  have digits := mantissa.isLt
  rw [parts, read]
  by_cases last : exponent = -1#11
  · rw [last, unpack_last]
    split
    · exact .infinity sign _
    · exact .notANumber _
  by_cases none : exponent = 0#11
  · have zero : exponent.toNat = 0 := congrArg BitVec.toNat none
    rw [if_pos zero, none]
    by_cases empty : mantissa = 0#52
    · rw [empty, unpack_zero]
      exact .zero sign
    · have some : 0 < mantissa.toNat := by
        rw [Nat.pos_iff_ne_zero]
        exact fun zero => empty (BitVec.eq_of_toNat_eq zero)
      rw [unpack_subnormal empty some]
      exact .finite sign some ⟨by omega, by omega, .inr rfl⟩ (by omega)
  · have some : exponent.toNat ≠ 0 := fun zero => none (BitVec.eq_of_toNat_eq zero)
    have less : exponent.toNat ≠ 2047 := fun all => last (BitVec.eq_of_toNat_eq all)
    have bound := exponent.isLt
    rw [if_neg some, unpack_normal none last]
    exact .finite sign _ ⟨by omega, by omega, .inl (by omega)⟩ (by omega)

end Packing

section Values

/-- A value that is not negative, with its magnitude; infinity is above all. -/
inductive Stands : UnpackedFloat → WithTop ℚ → Prop where
  | zero : Stands (.zero .positive) 0
  | finite {m : ℕ} {e : ℤ} (positive : 0 < m) :
    Stands (.finite .positive m e positive) ((m * 2 ^ e : ℚ) : WithTop ℚ)
  | infinity : Stands (.infinity .positive) ⊤

/-- The magnitude of what is stored in `x`. -/
def Holds (x : Float) (v : WithTop ℚ) : Prop := Stands x.toModel.unpack v

variable {u : UnpackedFloat} {x y : Float} {v w : WithTop ℚ} {q : ℚ}

theorem Stands.isNaN (stands : Stands u v) : u.isNaN = false := by
  cases stands <;> rfl

theorem Stands.isInf (stands : Stands u v) : u.isInf = true ↔ v = ⊤ := by
  cases stands with
  | zero => exact iff_of_false Bool.false_ne_true WithTop.zero_ne_top
  | finite => exact iff_of_false Bool.false_ne_true WithTop.coe_ne_top
  | infinity => exact iff_of_true rfl rfl

theorem Stands.nonneg (stands : Stands u v) : 0 ≤ v := by
  cases stands with
  | zero => exact le_rfl
  | finite => exact WithTop.coe_le_coe.mpr (by positivity)
  | infinity => exact le_top

/-- A magnitude below infinity is zero, or has a mantissa and an exponent. -/
theorem Stands.zero_or_finite (stands : Stands u q) : (u = .zero .positive ∧ q = 0) ∨
    ∃ m e positive, u = .finite .positive m e positive ∧ q = m * 2 ^ e := by
  generalize same : (q : WithTop ℚ) = v at stands
  cases stands with
  | zero => exact .inl ⟨rfl, WithTop.coe_eq_zero.mp same⟩
  | finite positive => exact .inr ⟨_, _, positive, rfl, WithTop.coe_injective same⟩
  | infinity => cases same

theorem Holds.isNaN (holds : Holds x v) : x.isNaN = false := Stands.isNaN holds

theorem Holds.isInf (holds : Holds x v) : x.isInf = true ↔ v = ⊤ := Stands.isInf holds

theorem Holds.nonneg (holds : Holds x v) : 0 ≤ v := Stands.nonneg holds

theorem Holds.exists_canonical (holds : Holds x q) (positive : 0 < q) :
    ∃ m e, Canonical m e ∧ e ≤ 971 ∧ q = m * 2 ^ e := by
  have stored := stored x
  rcases Stands.zero_or_finite holds with ⟨-, rfl⟩ | ⟨m, e, some, unpacked, rfl⟩
  · exact absurd positive (lt_irrefl 0)
  · rw [unpacked] at stored
    obtain ⟨canonical, small, -⟩ := stored.finite_inv
    exact ⟨m, e, canonical, small, rfl⟩

theorem Holds.value (holds : Holds x q) : (Dyadic.ofFinite x).value = q := by
  have stored := stored x
  rcases Stands.zero_or_finite holds with ⟨unpacked, rfl⟩ | ⟨m, e, some, unpacked, rfl⟩
  · rw [unpacked] at stored
    rw [stored.zero_inv, Dyadic.value, Nat.cast_zero, zero_mul]
  · rw [unpacked] at stored
    obtain ⟨-, -, read⟩ := stored.finite_inv
    rw [read, Dyadic.value]

/-- Exponents decide first, for a larger one reaches further than any mantissa. -/
theorem Canonical.compare {m n : ℕ} {e t : ℤ} (canonical : Canonical m e)
    (other : Canonical n t) :
    (compare e t).then (compare m n) = cmp (m * 2 ^ e : ℚ) (n * 2 ^ t) := by
  rcases lt_trichotomy e t with finer | rfl | coarser
  · rw [Int.compare_eq_lt.mpr finer, Ordering.lt_then, eq_comm, cmp_eq_lt_iff]
    exact canonical.rounds.lt_of_exponent other.rounds finer
  · rw [Int.compare_eq_eq.mpr rfl, Ordering.eq_then]
    rcases lt_trichotomy m n with less | rfl | more
    · rw [Nat.compare_eq_lt.mpr less, eq_comm, cmp_eq_lt_iff]
      apply mul_lt_mul_of_pos_right _ (two_zpow_pos e)
      exact_mod_cast less
    · rw [Nat.compare_eq_eq.mpr rfl, cmp_self_eq_eq]
    · rw [Nat.compare_eq_gt.mpr more, eq_comm, cmp_eq_gt_iff]
      apply mul_lt_mul_of_pos_right _ (two_zpow_pos e)
      exact_mod_cast more
  · rw [Int.compare_eq_gt.mpr coarser, Ordering.gt_then, eq_comm, cmp_eq_gt_iff]
    exact other.rounds.lt_of_exponent canonical.rounds coarser

theorem finite_pos {m : ℕ} {e : ℤ} (positive : 0 < m) :
    (0 : WithTop ℚ) < ((m * 2 ^ e : ℚ) : WithTop ℚ) :=
  WithTop.coe_pos.mpr (mul_pos (Nat.cast_pos.mpr positive) (two_zpow_pos e))

theorem Stands.compare {left right : UnpackedFloat} {d d' : Dyadic} (stands : Stands left v)
    (other : Stands right w) (stored : Stored left d) (stored' : Stored right d') :
    left.compare right = some (cmp v w) := by
  cases stands with
  | zero =>
    cases other with
    | zero => exact congrArg some (cmp_self_eq_eq _).symm
    | finite positive =>
      exact congrArg some ((cmp_eq_lt_iff _ _).mpr (finite_pos positive)).symm
    | infinity => exact congrArg some ((cmp_eq_lt_iff _ _).mpr (WithTop.coe_lt_top 0)).symm
  | finite positive =>
    cases other with
    | zero => exact congrArg some ((cmp_eq_gt_iff _ _).mpr (finite_pos positive)).symm
    | finite positive' =>
      show some _ = some _
      rw [stored.finite_inv.1.compare stored'.finite_inv.1, WithTop.coe_strictMono.cmp_map_eq]
    | infinity => exact congrArg some ((cmp_eq_lt_iff _ _).mpr (WithTop.coe_lt_top _)).symm
  | infinity =>
    cases other with
    | zero => exact congrArg some ((cmp_eq_gt_iff _ _).mpr (WithTop.coe_lt_top 0)).symm
    | finite positive => exact congrArg some ((cmp_eq_gt_iff _ _).mpr (WithTop.coe_lt_top _)).symm
    | infinity => exact congrArg some (cmp_self_eq_eq _).symm

theorem Holds.compare (holds : Holds x v) (other : Holds y w) :
    x.toModel.unpack.compare y.toModel.unpack = some (cmp v w) :=
  Stands.compare holds other (stored x) (stored y)

theorem lt_iff_compare : x < y ↔ x.toModel.unpack.compare y.toModel.unpack = some .lt := by
  show decide (x.toModel < y.toModel) = true ↔ _
  rw [decide_eq_true_iff]
  show (x.toModel.unpack.compare y.toModel.unpack == some .lt) = true ↔ _
  rw [beq_iff_eq]

theorem Holds.lt_iff (holds : Holds x v) (other : Holds y w) : x < y ↔ v < w := by
  rw [lt_iff_compare, holds.compare other, Option.some_inj, cmp_eq_lt_iff]

theorem Holds.le_iff (holds : Holds x v) (other : Holds y w) : x ≤ y ↔ v ≤ w := by
  show decide (x.toModel ≤ y.toModel) = true ↔ _
  rw [decide_eq_true_iff]
  show (x.toModel.unpack.compare y.toModel.unpack).any Ordering.isLE = true ↔ _
  rw [holds.compare other, Option.any_some, Ordering.isLE_iff_ne_gt]
  exact (not_congr (cmp_eq_gt_iff v w)).trans not_lt

end Values

end Binary64

end ClusterReadiness
