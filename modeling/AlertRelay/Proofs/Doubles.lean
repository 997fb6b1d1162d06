import AlertRelay.Json.Field
import AlertRelay.Json.Numeral
import Mathlib.Tactic.Linarith
import Mathlib.Tactic.Positivity
import Mathlib.Tactic.Ring
import Mathlib.Tactic.NormNum
import Mathlib.Algebra.Order.Field.Power
import Mathlib.Data.Rat.Cast.Order

/-! How far the arithmetic of doubles can carry a number: a result is finite whose
exact value, enlarged by the error of one rounding, is below `2 ^ 1024`. -/

namespace AlertRelay

open Float.Model (UnpackedFloat Format totalExponent)
open Float.Model.UnpackedFloat

section Powers

theorem two_zpow_pos (e : Int) : (0 : ℚ) < 2 ^ e := zpow_pos (by norm_num) e

theorem two_zpow_le {a b : Int} (h : a ≤ b) : (2 : ℚ) ^ a ≤ 2 ^ b := zpow_le_zpow_right₀ (by norm_num) h

theorem two_zpow_lt_iff {a b : Int} : (2 : ℚ) ^ a < 2 ^ b ↔ a < b := zpow_lt_zpow_iff_right₀ (by norm_num)

theorem two_zpow_add (a b : Int) : (2 : ℚ) ^ (a + b) = 2 ^ a * 2 ^ b := zpow_add₀ (by norm_num) a b

/-- The leading bit of a significand. -/
theorem log2_bounds {m : Nat} (hm : 0 < m) (e : Int) :
    (2 : ℚ) ^ (totalExponent m e - 1) ≤ m * 2 ^ e ∧ (m : ℚ) * 2 ^ e < 2 ^ totalExponent m e := by
  have hlow : ((2 ^ m.log2 : Nat) : ℚ) ≤ m := by exact_mod_cast Nat.log2_self_le (Nat.ne_of_gt hm)
  have hhigh : (m : ℚ) < ((2 ^ (m.log2 + 1) : Nat) : ℚ) := by exact_mod_cast Nat.lt_log2_self
  have he := two_zpow_pos e
  have hl : totalExponent m e - 1 = (m.log2 : Int) + e := by unfold totalExponent; omega
  have hh : totalExponent m e = ((m.log2 + 1 : Nat) : Int) + e := by unfold totalExponent; omega
  constructor
  · rw [hl, two_zpow_add, zpow_natCast]
    push_cast at hlow
    exact mul_le_mul_of_nonneg_right hlow he.le
  · rw [hh, two_zpow_add, zpow_natCast]
    push_cast at hhigh
    exact mul_lt_mul_of_pos_right hhigh he

end Powers

/-- A number and the error of one rounding: a unit in the last place of a number
with all its bits, or the least positive number. -/
def rounded (v : ℚ) : ℚ := v * (1 + 2 ^ (-52 : Int)) + 2 ^ (-1074 : Int)

/-- Where the doubles end. -/
def overflow : ℚ := 2 ^ (1024 : Int)

theorem le_rounded {v : ℚ} (hv : 0 ≤ v) : v ≤ rounded v := by
  have h := two_zpow_pos (-52)
  have h' := two_zpow_pos (-1074)
  unfold rounded
  nlinarith

theorem rounded_le {v : ℚ} (hv : 0 ≤ v) : rounded v ≤ 2 * v + 1 := by
  have h : (2 : ℚ) ^ (-52 : Int) ≤ 1 := zpow_le_one_of_nonpos₀ (by norm_num) (by norm_num)
  have h' : (2 : ℚ) ^ (-1074 : Int) ≤ 1 := zpow_le_one_of_nonpos₀ (by norm_num) (by norm_num)
  unfold rounded
  nlinarith

/-- The exponent at which a number with this leading bit keeps all the bits that a double has room for. -/
theorem targetExponent_eq (t : Int) : Format.binary64.targetExponent t = max (t - 53) (-1074) := rfl

theorem two_zpow_lt_overflow {e : Int} (h : e < 1024) : (2 : ℚ) ^ e < overflow := two_zpow_lt_iff.mpr h

/-- A finite number of at most this magnitude. -/
inductive Within : UnpackedFloat → ℚ → Prop
  | zero {s : Sign} {v : ℚ} (h : 0 ≤ v) : Within (.zero s) v
  | finite {s : Sign} {m : Nat} {e : Int} {hpos : 0 < m} {v : ℚ} (h : (m : ℚ) * 2 ^ e ≤ v) :
    Within (.finite s m e hpos) v

/-- A number of at least one. -/
inductive Whole : UnpackedFloat → Prop
  | finite {s : Sign} {m : Nat} {e : Int} {hpos : 0 < m} (h : (1 : ℚ) ≤ m * 2 ^ e) :
    Whole (.finite s m e hpos)

section Within

variable {f : UnpackedFloat} {v w : ℚ}

theorem Within.isFinite (h : Within f v) : f.isFinite = true := by
  cases h <;> rfl

theorem Within.nonneg (h : Within f v) : 0 ≤ v := by
  cases h with
  | zero h => exact h
  | @finite s m e hpos _ h => exact (mul_nonneg (Nat.cast_nonneg m) (two_zpow_pos e).le).trans h

theorem Within.mono (h : Within f v) (hvw : v ≤ w) : Within f w := by
  cases h with
  | zero h => exact .zero (h.trans hvw)
  | finite h => exact .finite (h.trans hvw)

end Within

section Packing

variable {s : Sign} {m : Nat} {e : Int} {v : ℚ}

theorem zero_within (s : Sign) (hv : 0 ≤ v) : Within (Float.Model.pack (.zero s)).unpack v := by
  cases s <;> exact .zero hv

theorem finite_congr {m' : Nat} {e' : Int} (hm : m = m') (he : e = e') (hpos : 0 < m) (hpos' : 0 < m') :
    UnpackedFloat.finite s m e hpos = .finite s m' e' hpos' := by
  subst hm he
  rfl

/-- What the fields of a double stand for. -/
theorem unpack_cases (b : BitVec Format.binary64.numBits) :
    let exponent := (unpackExponent b).toNat
    let mantissa := (unpackMantissa b).toNat
    let s := Sign.ofBitVec (unpackSign b)
    let f := UnpackedFloat.unpack Format.binary64 b
    exponent = 2047 ∧ f.isFinite = false ∨
    exponent = 0 ∧ mantissa = 0 ∧ f = .zero s ∨
    exponent = 0 ∧ (∃ h : 0 < mantissa, f = .finite s mantissa (-1074) h) ∨
    0 < exponent ∧ exponent < 2047 ∧
      ∃ h : 0 < 2 ^ 52 + mantissa, f = .finite s (2 ^ 52 + mantissa) (exponent - 1075) h := by
  have hlt : (unpackExponent b).toNat < 2 ^ 11 := (unpackExponent b).isLt
  have hltm : (unpackMantissa b).toNat < 2 ^ 52 := (unpackMantissa b).isLt
  have hlead : (1#1 ++ unpackMantissa b).toNat = 2 ^ 52 + (unpackMantissa b).toNat := by
    rw [BitVec.toNat_append, ← Nat.shiftLeft_add_eq_or_of_lt hltm]
    rfl
  by_cases hinf : unpackExponent b = -1#11
  · refine .inl ⟨by rw [hinf]; rfl, ?_⟩
    by_cases hm : unpackMantissa b = 0#52
    · exact congrArg UnpackedFloat.isFinite ((if_pos hinf).trans (if_pos hm))
    · exact congrArg UnpackedFloat.isFinite ((if_pos hinf).trans (if_neg hm))
  have hne : (unpackExponent b).toNat ≠ 2047 := fun h => hinf (BitVec.eq_of_toNat_eq h)
  by_cases hzero : unpackExponent b = 0#11
  · have h0 : (unpackExponent b).toNat = 0 := by rw [hzero]; rfl
    by_cases hm : unpackMantissa b = 0#52
    · exact .inr (.inl ⟨h0, by rw [hm]; rfl, (if_neg hinf).trans ((if_pos hzero).trans (dif_pos hm))⟩)
    · have hmpos : 0 < (unpackMantissa b).toNat := Nat.pos_of_ne_zero fun h => hm (BitVec.eq_of_toNat_eq h)
      refine .inr (.inr (.inl ⟨h0, hmpos, ((if_neg hinf).trans ((if_pos hzero).trans (dif_neg hm))).trans ?_⟩))
      refine finite_congr rfl ?_ _ _
      rw [h0]
      rfl
  · have h0 : (unpackExponent b).toNat ≠ 0 := fun h => hzero (BitVec.eq_of_toNat_eq h)
    refine .inr (.inr (.inr ⟨by omega, by omega, by omega, ((if_neg hinf).trans (if_neg hzero)).trans ?_⟩))
    exact finite_congr hlead rfl _ _

theorem pack_finite (hpos : 0 < m) (he : -1074 ≤ e) (he' : e ≤ 971) :
    UnpackedFloat.pack Format.binary64 (.finite s m e hpos) = packComponents Format.binary64 s
      (if m.log2 + 1 = 53 then BitVec.ofNat 11 (e + (1023 : Nat) + (52 : Nat)).toNat else 0#11)
      (BitVec.ofNat 52 m) := by
  have hbiased : ¬ 2 ^ 11 ≤ (e + (1023 : Nat) + (52 : Nat)).toNat + 1 := by omega
  have h : UnpackedFloat.pack Format.binary64 (.finite s m e hpos) =
      if 2 ^ 11 ≤ (e + (1023 : Nat) + (52 : Nat)).toNat + 1 then packedInfinity Format.binary64 s
      else if m.log2 + 1 = 53 then packComponents Format.binary64 s
        (BitVec.ofNat 11 (e + (1023 : Nat) + (52 : Nat)).toNat) (BitVec.ofNat 52 m)
      else packComponents Format.binary64 s 0#11 (BitVec.ofNat 52 m) := rfl
  rw [h, if_neg hbiased]
  split <;> rfl

/-- A packed number is read from the fields that it was packed into. -/
theorem unpack_pack_cases (hpos : 0 < m) (he : -1074 ≤ e) (he' : e ≤ 971) {exponent mantissa : Nat}
    (hexp : (if m.log2 + 1 = 53 then (e + 1075).toNat else 0) = exponent) (hmantissa : m % 2 ^ 52 = mantissa) :
    let f := (Float.Model.pack (.finite s m e hpos)).unpack
    exponent = 2047 ∨ exponent = 0 ∧ mantissa = 0 ∨
    exponent = 0 ∧ (∃ t, ∃ h : 0 < mantissa, f = .finite t mantissa (-1074) h) ∨
    0 < exponent ∧ ∃ t, ∃ h : 0 < 2 ^ 52 + mantissa, f = .finite t (2 ^ 52 + mantissa) (exponent - 1075) h := by
  have hunpack := unpack_cases (UnpackedFloat.pack Format.binary64 (.finite s m e hpos))
  have hf : (Float.Model.pack (.finite s m e hpos)).unpack =
      UnpackedFloat.unpack Format.binary64 (UnpackedFloat.pack Format.binary64 (.finite s m e hpos)) := rfl
  have hexp' : (if m.log2 + 1 = 53 then BitVec.ofNat 11 (e + (1023 : Nat) + (52 : Nat)).toNat else 0#11).toNat =
      exponent := by
    rw [← hexp]
    split
    · rw [BitVec.toNat_ofNat]
      omega
    · rfl
  have hmantissa' : (BitVec.ofNat 52 m).toNat = mantissa := hmantissa
  rw [pack_finite hpos he he', unpackExponent_packComponents, unpackMantissa_packComponents, hexp',
    hmantissa'] at hunpack
  rw [hf, pack_finite hpos he he']
  rcases hunpack with ⟨h, _⟩ | ⟨h, h', _⟩ | ⟨h, h', hf⟩ | ⟨h, _, h', hf⟩
  · exact .inl h
  · exact .inr (.inl ⟨h, h'⟩)
  · exact .inr (.inr (.inl ⟨h, _, h', hf⟩))
  · exact .inr (.inr (.inr ⟨h, _, h', hf⟩))

/-- A number whose significand is full is packed as it is. -/
theorem unpack_pack_full (hpos : 0 < m) (hlow : 2 ^ 52 ≤ m) (hm : m < 2 ^ 53) (he : -1074 ≤ e) (he' : e ≤ 971) :
    ∃ t, (Float.Model.pack (.finite s m e hpos)).unpack = .finite t m e hpos := by
  have hlead : m.log2 + 1 = 53 := by
    have hlt := (Nat.log2_lt (Nat.ne_of_gt hpos)).mpr hm
    have hle := (Nat.le_log2 (Nat.ne_of_gt hpos)).mpr hlow
    omega
  rcases unpack_pack_cases (s := s) hpos he he' (if_pos hlead) rfl with h | ⟨h, _⟩ | ⟨h, _⟩ | ⟨_, t, _, hf⟩
  iterate 3 omega
  exact ⟨t, hf.trans (finite_congr (by omega) (by omega) _ _)⟩

/-- A significand that is not full is read with the least exponent. -/
theorem pack_within (hpos : 0 < m) (hm : m < 2 ^ 53) (he : -1074 ≤ e) (he' : e ≤ 971) (hv : (m : ℚ) * 2 ^ e ≤ v) :
    Within (Float.Model.pack (.finite s m e hpos)).unpack v := by
  by_cases hlow : 2 ^ 52 ≤ m
  · obtain ⟨t, hf⟩ := unpack_pack_full (s := s) hpos hlow hm he he'
    rw [hf]
    exact .finite hv
  · have hlead : ¬ m.log2 + 1 = 53 := by
      have hlt := (Nat.log2_lt (Nat.ne_of_gt hpos)).mpr (show m < 2 ^ 52 by omega)
      omega
    have hmod : m % 2 ^ 52 = m := Nat.mod_eq_of_lt (by omega)
    rcases unpack_pack_cases (s := s) hpos he he' (if_neg hlead) hmod with h | ⟨_, h⟩ | ⟨_, t, _, hf⟩ | ⟨h, _⟩
    · omega
    · omega
    · rw [hf]
      exact .finite ((mul_le_mul_of_nonneg_left (two_zpow_le he) (Nat.cast_nonneg m)).trans hv)
    · omega

theorem unpack_shape (x : Float.Model) {hpos : 0 < m} (h : x.unpack = .finite s m e hpos) :
    m < 2 ^ 53 ∧ -1074 ≤ e ∧ e ≤ 971 ∧ (2 ^ 52 ≤ m ∨ e = -1074) := by
  have hm : (@unpackMantissa Format.binary64 x.toBits.toBitVec).toNat < 2 ^ 52 := BitVec.isLt _
  rcases unpack_cases x.toBits.toBitVec with ⟨_, hf⟩ | ⟨_, _, hf⟩ | ⟨_, _, hf⟩ | ⟨h0, h1, _, hf⟩
  · rw [Float.Model.unpack] at h
    rw [h] at hf
    cases hf
  all_goals
    rw [Float.Model.unpack, hf] at h
    cases h
  · omega
  · omega

end Packing

section Rounding

variable {m : Nat} {e : Int} {acc : Accuracy}

theorem shiftRight_mantissa (x : ExtendedMantissa) (k : Nat) : (x >>> k).mantissa = x.mantissa / 2 ^ k := by
  induction k with
  | zero => exact (Nat.div_one _).symm
  | succ k ih =>
    have hstep : (x >>> (k + 1)).mantissa = (x >>> k).mantissa / 2 := rfl
    rw [hstep, ih, Nat.div_div_eq_div_mul, pow_succ]

theorem le_roundedMantissa (x : ExtendedMantissa) : x.mantissa ≤ x.roundedMantissa := by
  obtain ⟨m, r, t⟩ := x
  cases r <;> cases t <;> simp [ExtendedMantissa.roundedMantissa, ExtendedMantissa.accuracy,
    Accuracy.roundToNearestEven]

theorem roundedMantissa_le (x : ExtendedMantissa) : x.roundedMantissa ≤ x.mantissa + 1 := by
  obtain ⟨m, r, t⟩ := x
  cases r <;> cases t <;> simp [ExtendedMantissa.roundedMantissa, ExtendedMantissa.accuracy,
    Accuracy.roundToNearestEven]
  omega

theorem ofMantissaAndAccuracy_mantissa (m : Nat) (acc : Accuracy) :
    (ExtendedMantissa.ofMantissaAndAccuracy m acc).mantissa = m := by
  cases acc with
  | exact => rfl
  | inexact o => cases o <;> rfl

theorem shiftToTargetExponent_eq (m : Nat) (e : Int) (acc : Accuracy) :
    let k := (max ((m.log2 : Int) + e - 52) (-1074) - e).toNat
    shiftToTargetExponent Format.binary64 m e acc =
      (ExtendedMantissa.ofMantissaAndAccuracy m acc >>> k, e + k) := by
  have hexp : totalExponent m e - 53 = (m.log2 : Int) + e - 52 := by
    unfold totalExponent
    omega
  simp only [shiftToTargetExponent, shiftToExponent, targetExponent_eq, hexp]

theorem shift_within (m : Nat) (e : Int) (acc : Accuracy) :
    let p := shiftToTargetExponent Format.binary64 m e acc
    p.1.mantissa < 2 ^ 53 ∧ p.2 = max e (max ((m.log2 : Int) + e - 52) (-1074)) ∧
      (p.1.mantissa : ℚ) * 2 ^ p.2 ≤ m * 2 ^ e := by
  simp only [shiftToTargetExponent_eq, shiftRight_mantissa, ofMantissaAndAccuracy_mantissa]
  set k : Nat := (max ((m.log2 : Int) + e - 52) (-1074) - e).toNat with hk
  refine ⟨?_, by omega, ?_⟩
  · have hlt : m < 2 ^ (m.log2 + 1) := Nat.lt_log2_self
    have hle : 2 ^ (m.log2 + 1) ≤ 2 ^ (53 + k) := Nat.pow_le_pow_right (by decide) (by omega)
    rw [Nat.div_lt_iff_lt_mul (by positivity), ← pow_add]
    omega
  · have hdiv : ((m / 2 ^ k : Nat) : ℚ) * 2 ^ k ≤ m := by exact_mod_cast Nat.div_mul_le_self m (2 ^ k)
    rw [add_comm e, two_zpow_add, zpow_natCast, ← mul_assoc]
    exact mul_le_mul_of_nonneg_right hdiv (two_zpow_pos e).le

theorem exponent_le (he : e ≤ 971) (hm : (m : ℚ) * 2 ^ e < overflow) :
    max e (max ((m.log2 : Int) + e - 52) (-1074)) ≤ 971 := by
  rcases Nat.eq_zero_or_pos m with rfl | hpos
  · simp only [Nat.log2_zero]
    omega
  · have hlow := two_zpow_lt_iff.mp ((log2_bounds hpos e).1.trans_lt hm)
    unfold totalExponent at hlow
    omega

/-- A number that is shifted fills its significand, or has the least exponent. -/
theorem shift_unit {v : ℚ} (hv : (m : ℚ) * 2 ^ e ≤ v) (acc : Accuracy) :
    (shiftToTargetExponent Format.binary64 m e acc).2 = e ∨
      (2 : ℚ) ^ (shiftToTargetExponent Format.binary64 m e acc).2 ≤ v * 2 ^ (-52 : Int) + 2 ^ (-1074 : Int) := by
  obtain ⟨_, hexp, _⟩ := shift_within m e acc
  have hnonneg : 0 ≤ v := le_trans (mul_nonneg (Nat.cast_nonneg m) (two_zpow_pos e).le) hv
  have hunit := mul_nonneg hnonneg (two_zpow_pos (-52)).le
  rw [hexp]
  by_cases hleast : max e (max ((m.log2 : Int) + e - 52) (-1074)) = -1074
  · rw [hleast]
    exact .inr (le_add_of_nonneg_left hunit)
  rcases Nat.eq_zero_or_pos m with rfl | hm
  · left
    simp only [Nat.log2_zero] at hleast ⊢
    omega
  by_cases htop : (m.log2 : Int) + e - 52 ≤ e
  · left
    omega
  · right
    have hlow := mul_le_mul_of_nonneg_right ((log2_bounds hm e).1.trans hv) (two_zpow_pos (-52)).le
    have hexact : max e (max ((m.log2 : Int) + e - 52) (-1074)) = (totalExponent m e - 1) + -52 := by
      unfold totalExponent
      omega
    rw [hexact, two_zpow_add]
    exact hlow.trans (le_add_of_nonneg_right (two_zpow_pos (-1074)).le)

/-- The error of a rounding is at most the unit of its last place. -/
theorem roundedMantissa_within {v : ℚ} (hv : (m : ℚ) * 2 ^ e ≤ v)
    (hulp : acc = .exact ∨ (2 : ℚ) ^ e ≤ v * 2 ^ (-52 : Int) + 2 ^ (-1074 : Int)) :
    ((shiftToTargetExponent Format.binary64 m e acc).1.roundedMantissa : ℚ) *
      2 ^ (shiftToTargetExponent Format.binary64 m e acc).2 ≤ rounded v := by
  obtain ⟨_, _, hval⟩ := shift_within m e acc
  have hnonneg : 0 ≤ v := le_trans (mul_nonneg (Nat.cast_nonneg m) (two_zpow_pos e).le) hv
  by_cases hsame : acc = .exact ∧ (shiftToTargetExponent Format.binary64 m e acc).2 = e
  · obtain ⟨rfl, he⟩ := hsame
    have hr : (shiftToTargetExponent Format.binary64 m e .exact).1.roundedMantissa = m := by
      rw [shiftToTargetExponent_eq] at he ⊢
      have hk : (max ((m.log2 : Int) + e - 52) (-1074) - e).toNat = 0 := by
        dsimp only at he
        omega
      rw [hk]
      rfl
    rw [hr, he]
    exact hv.trans (le_rounded hnonneg)
  · have hunit : (2 : ℚ) ^ (shiftToTargetExponent Format.binary64 m e acc).2 ≤
        v * 2 ^ (-52 : Int) + 2 ^ (-1074 : Int) := by
      rcases shift_unit hv acc with he | hunit
      · rw [he]
        exact hulp.resolve_left fun hacc => hsame ⟨hacc, he⟩
      · exact hunit
    generalize shiftToTargetExponent Format.binary64 m e acc = p at *
    have hr : (p.1.roundedMantissa : ℚ) ≤ p.1.mantissa + 1 := by exact_mod_cast roundedMantissa_le p.1
    have hmul := mul_le_mul_of_nonneg_right hr (two_zpow_pos p.2).le
    unfold rounded
    linarith

/-- Shifting leaves a significand full, and the number at least one. -/
theorem shift_full (hm : 2 ^ 52 ≤ m) (he : 0 ≤ (m.log2 : Int) + e) (acc : Accuracy) :
    2 ^ 52 ≤ (shiftToTargetExponent Format.binary64 m e acc).1.mantissa ∧
      -52 ≤ (shiftToTargetExponent Format.binary64 m e acc).2 := by
  have hlog : 52 ≤ m.log2 := (Nat.le_log2 (by omega)).mpr hm
  obtain ⟨_, hexp, _⟩ := shift_within m e acc
  refine ⟨?_, by rw [hexp]; omega⟩
  simp only [shiftToTargetExponent_eq, shiftRight_mantissa, ofMantissaAndAccuracy_mantissa]
  set k : Nat := (max ((m.log2 : Int) + e - 52) (-1074) - e).toNat with hk
  rw [Nat.le_div_iff_mul_le (by positivity), ← pow_add]
  exact (Nat.pow_le_pow_right (by decide) (by omega)).trans (Nat.log2_self_le (by omega))

/-- A rounded number: it has the form of a double, and is at least one if the
number to be rounded was. -/
theorem roundWithAccuracy_form {v : ℚ} (he : e ≤ 971) (hv : (m : ℚ) * 2 ^ e ≤ v)
    (hulp : acc = .exact ∨ (2 : ℚ) ^ e ≤ v * 2 ^ (-52 : Int) + 2 ^ (-1074 : Int))
    (hsmall : rounded v < overflow) (s : Sign) :
    ∃ (n : Nat) (k : Int), n < 2 ^ 53 ∧ -1074 ≤ k ∧ k ≤ 971 ∧ (n : ℚ) * 2 ^ k ≤ rounded v ∧
      (2 ^ 52 ≤ m → 0 ≤ (m.log2 : Int) + e → 2 ^ 52 ≤ n ∧ -52 ≤ k) ∧
      roundWithAccuracy Format.binary64 s m e acc =
        if h : n = 0 then .zero s else .finite s n k (Nat.pos_of_ne_zero h) := by
  have hnonneg : 0 ≤ v := le_trans (mul_nonneg (Nat.cast_nonneg m) (two_zpow_pos e).le) hv
  have hr := roundedMantissa_within hv hulp
  have hfull := fun hm hone => shift_full (m := m) (e := e) hm hone acc
  obtain ⟨_, hexp, _⟩ := shift_within m e acc
  have htop := exponent_le he ((hv.trans (le_rounded hnonneg)).trans_lt hsmall)
  rw [← hexp] at htop
  have hround : roundWithAccuracy Format.binary64 s m e acc =
      let p := shiftToTargetExponent Format.binary64 m e acc
      let q := shiftToTargetExponent Format.binary64 p.1.roundedMantissa p.2 .exact
      if h : q.1.mantissa = 0 then .zero s else .finite s q.1.mantissa q.2 (Nat.pos_of_ne_zero h) := rfl
  generalize shiftToTargetExponent Format.binary64 m e acc = p at *
  obtain ⟨hlt, hexp', hval⟩ := shift_within p.1.roundedMantissa p.2 .exact
  have htop' := exponent_le htop (hr.trans_lt hsmall)
  rw [← hexp'] at htop'
  refine ⟨_, _, hlt, by rw [hexp']; omega, htop', hval.trans hr, ?_, hround⟩
  intro hm hone
  obtain ⟨hp, hk⟩ := hfull hm hone
  have hp' := hp.trans (le_roundedMantissa p.1)
  have hlog : 52 ≤ p.1.roundedMantissa.log2 := (Nat.le_log2 (by omega)).mpr hp'
  exact shift_full hp' (by omega) .exact

theorem roundWithAccuracy_within {v : ℚ} (he : e ≤ 971) (hv : (m : ℚ) * 2 ^ e ≤ v)
    (hulp : acc = .exact ∨ (2 : ℚ) ^ e ≤ v * 2 ^ (-52 : Int) + 2 ^ (-1074 : Int))
    (hsmall : rounded v < overflow) (s : Sign) :
    Within (Float.Model.pack (roundWithAccuracy Format.binary64 s m e acc)).unpack (rounded v) := by
  obtain ⟨n, k, hn, hk, hk', hval, _, hround⟩ := roundWithAccuracy_form he hv hulp hsmall s
  by_cases hzero : n = 0
  · rw [hround, dif_pos hzero]
    exact zero_within s ((mul_nonneg (Nat.cast_nonneg n) (two_zpow_pos k).le).trans hval)
  · rw [hround, dif_neg hzero]
    exact pack_within _ hn hk hk' hval

theorem roundWithAccuracy_whole {v : ℚ} (he : e ≤ 971) (hv : (m : ℚ) * 2 ^ e ≤ v)
    (hsmall : rounded v < overflow) (hm : 2 ^ 52 ≤ m) (hone : 0 ≤ (m.log2 : Int) + e) (s : Sign) :
    Whole (Float.Model.pack (roundWithAccuracy Format.binary64 s m e .exact)).unpack := by
  obtain ⟨n, k, hn, hk, hk', _, hfull, hround⟩ := roundWithAccuracy_form he hv (.inl rfl) hsmall s
  obtain ⟨hlow, hk''⟩ := hfull hm hone
  rw [hround, dif_neg (by omega)]
  obtain ⟨t, hf⟩ := unpack_pack_full (s := s) (by omega) hlow hn hk hk'
  have hlow' : (2 : ℚ) ^ (52 : Int) ≤ n := by exact_mod_cast hlow
  rw [hf]
  refine .finite ?_
  calc (1 : ℚ) = 2 ^ (52 : Int) * 2 ^ (-52 : Int) := by rw [← two_zpow_add]; rfl
    _ ≤ n * 2 ^ k := mul_le_mul hlow' (two_zpow_le hk'') (two_zpow_pos _).le (Nat.cast_nonneg n)

end Rounding

section Operations

variable {x y : Float} {a b : ℚ}

theorem mul_within (hx : Within x.toModel.unpack a) (hy : Within y.toModel.unpack b)
    (hsmall : rounded (a * b) < overflow) : Within (x * y).toModel.unpack (rounded (a * b)) := by
  have hmul : (x * y).toModel =
      Float.Model.pack (UnpackedFloat.mul Format.binary64 x.toModel.unpack y.toModel.unpack) := rfl
  have hpos := hx.nonneg
  have hab := mul_nonneg hpos hy.nonneg
  have hzero := fun s => zero_within s (hab.trans (le_rounded hab))
  have hshape := fun s m e hm => @unpack_shape s m e x.toModel hm
  have hshape' := fun s m e hm => @unpack_shape s m e y.toModel hm
  rw [hmul]
  generalize x.toModel.unpack = f at hx hshape ⊢
  generalize y.toModel.unpack = g at hy hshape' ⊢
  cases hx with
  | zero => cases hy <;> exact hzero _
  | @finite s m e hm _ hx =>
    cases hy with
    | zero => exact hzero _
    | @finite t n k hn _ hy =>
      have hvalue : ((m * n : Nat) : ℚ) * 2 ^ (e + k) ≤ a * b := by
        have hle := mul_le_mul hx hy (mul_nonneg (Nat.cast_nonneg n) (two_zpow_pos k).le) hpos
        rw [two_zpow_add, Nat.cast_mul]
        linarith
      obtain ⟨_, _, he, hlead⟩ := hshape s m e hm rfl
      obtain ⟨_, _, hk, _⟩ := hshape' t n k hn rfl
      have hexp : e + k ≤ 971 := by
        rcases hlead with hlead | rfl
        · have hle : ((2 ^ 52 : Nat) : ℚ) ≤ (m * n : Nat) := by
            exact_mod_cast hlead.trans (Nat.le_mul_of_pos_right m hn)
          have hle' := mul_le_mul_of_nonneg_right hle (two_zpow_pos (e + k)).le
          have hlt := ((hle'.trans hvalue).trans (le_rounded hab)).trans_lt hsmall
          rw [Nat.cast_pow, Nat.cast_ofNat, ← zpow_natCast, ← two_zpow_add] at hlt
          have htop := two_zpow_lt_iff.mp hlt
          omega
        · omega
      exact roundWithAccuracy_within hexp hvalue (.inl rfl) hsmall _

/-- The exponent at which the significands of a quotient are divided. -/
def quotientExponent (m : Nat) (e : Int) (n : Nat) (k : Int) : Int :=
  min (e - k) (Format.binary64.targetExponent (totalExponent m e - totalExponent n k))

theorem quotient_within {m n : Nat} {e k : Int} (hx : (m : ℚ) * 2 ^ e ≤ a)
    (hy : (1 : ℚ) ≤ n * 2 ^ k) :
    ((m <<< (e - k - quotientExponent m e n k).toNat / n : Nat) : ℚ) * 2 ^ quotientExponent m e n k ≤ a := by
  have ht : quotientExponent m e n k ≤ e - k := min_le_left _ _
  generalize quotientExponent m e n k = t at *
  have hshifted : ((m <<< (e - k - t).toNat : Nat) : ℚ) * 2 ^ (t + k) = m * 2 ^ e := by
    have hsum : e = ((e - k - t).toNat : Int) + (t + k) := by omega
    conv_rhs => rw [hsum, two_zpow_add]
    rw [Nat.shiftLeft_eq, Nat.cast_mul, Nat.cast_pow, Nat.cast_ofNat, zpow_natCast, mul_assoc]
  have hdiv : ((m <<< (e - k - t).toNat / n : Nat) : ℚ) * n ≤ (m <<< (e - k - t).toNat : Nat) := by
    exact_mod_cast Nat.div_mul_le_self _ n
  calc ((m <<< (e - k - t).toNat / n : Nat) : ℚ) * 2 ^ t
      ≤ (m <<< (e - k - t).toNat / n : Nat) * 2 ^ t * (n * 2 ^ k) :=
        le_mul_of_one_le_right (mul_nonneg (Nat.cast_nonneg _) (two_zpow_pos t).le) hy
    _ = (m <<< (e - k - t).toNat / n : Nat) * n * 2 ^ (t + k) := by rw [two_zpow_add]; ring
    _ ≤ (m <<< (e - k - t).toNat : Nat) * 2 ^ (t + k) :=
        mul_le_mul_of_nonneg_right hdiv (two_zpow_pos _).le
    _ ≤ a := hshifted.trans_le hx

theorem quotient_unit {m n : Nat} {e k : Int} (hm : 0 < m) (hx : (m : ℚ) * 2 ^ e ≤ a)
    (hy : (1 : ℚ) ≤ n * 2 ^ k) (hsmall : a < overflow) :
    quotientExponent m e n k ≤ 971 ∧
      (2 : ℚ) ^ quotientExponent m e n k ≤ a * 2 ^ (-52 : Int) + 2 ^ (-1074 : Int) := by
  have hn : 0 < n := by
    rcases Nat.eq_zero_or_pos n with rfl | hn
    · norm_num at hy
    · exact hn
  have hlow := (log2_bounds hm e).1.trans hx
  have hpos : 0 ≤ a := (two_zpow_pos _).le.trans hlow
  have hone : 0 < totalExponent n k := by
    have h := lt_of_le_of_lt hy (log2_bounds hn k).2
    rw [← zpow_zero 2] at h
    exact two_zpow_lt_iff.mp h
  have htop : totalExponent m e - 1 < 1024 := two_zpow_lt_iff.mp (hlow.trans_lt hsmall)
  have htarget : quotientExponent m e n k ≤ max (totalExponent m e - 1 + -53) (-1074) := by
    rw [quotientExponent, targetExponent_eq]
    omega
  refine ⟨by omega, ?_⟩
  rcases le_max_iff.mp htarget with h | h
  · have hless := mul_le_mul hlow (two_zpow_le (show (-53 : Int) ≤ -52 by decide)) (two_zpow_pos _).le hpos
    rw [← two_zpow_add] at hless
    exact ((two_zpow_le h).trans hless).trans (le_add_of_nonneg_right (two_zpow_pos _).le)
  · exact (two_zpow_le h).trans (le_add_of_nonneg_left (mul_nonneg hpos (two_zpow_pos _).le))

theorem div_within (hx : Within x.toModel.unpack a) (hy : Whole y.toModel.unpack)
    (hsmall : rounded a < overflow) : Within (x / y).toModel.unpack (rounded a) := by
  have hdiv : (x / y).toModel =
      Float.Model.pack (UnpackedFloat.div Format.binary64 x.toModel.unpack y.toModel.unpack) := rfl
  have hpos := hx.nonneg
  rw [hdiv]
  generalize x.toModel.unpack = f at hx ⊢
  generalize y.toModel.unpack = g at hy ⊢
  cases hy with
  | finite hy =>
    cases hx with
    | zero => exact zero_within _ (hpos.trans (le_rounded hpos))
    | @finite s m e hm _ hx =>
      obtain ⟨hexp, hunit⟩ := quotient_unit hm hx hy ((le_rounded hpos).trans_lt hsmall)
      exact roundWithAccuracy_within hexp (quotient_within hx hy) (.inr hunit) hsmall _

theorem toFloat_within (n : UInt64) : Within n.toFloat.toModel.unpack (rounded n.toNat) := by
  have hofNat : n.toFloat.toModel =
      Float.Model.pack (UnpackedFloat.normalize Format.binary64 (n.toNat : Int) 0 .positive) := rfl
  rw [hofNat]
  rcases Nat.eq_zero_or_pos n.toNat with h0 | hpos
  · rw [h0]
    exact zero_within _ (by rw [Nat.cast_zero]; exact le_rounded le_rfl)
  · have hgt : compare (n.toNat : Int) 0 = .gt := Int.compare_eq_gt.mpr (by omega)
    set k : Nat := (0 - Format.binary64.targetExponent (totalExponent n.toNat 0)).toNat with hk
    have hround : UnpackedFloat.normalize Format.binary64 (n.toNat : Int) 0 .positive =
        roundWithAccuracy Format.binary64 .positive (n.toNat <<< k) (0 - k) .exact := by
      simp only [UnpackedFloat.normalize, hgt, UnpackedFloat.round, decreaseExponent, Int.toNat_natCast, ← hk]
    have hvalue : ((n.toNat <<< k : Nat) : ℚ) * 2 ^ (0 - (k : Int)) ≤ n.toNat := by
      have hcancel : (2 : ℚ) ^ (k : Int) * 2 ^ (0 - (k : Int)) = 1 := by
        rw [← two_zpow_add, add_sub_cancel, zpow_zero]
      rw [Nat.shiftLeft_eq, Nat.cast_mul, Nat.cast_pow, Nat.cast_ofNat, ← zpow_natCast, mul_assoc, hcancel, mul_one]
    have hsmall : rounded n.toNat < overflow := by
      have hlt : (n.toNat : ℚ) < 0x10000000000000000 := by exact_mod_cast n.toNat_lt
      have hle := rounded_le (Nat.cast_nonneg (α := ℚ) n.toNat)
      have hbig : (2 : ℚ) ^ (66 : Int) < overflow := two_zpow_lt_overflow (by decide)
      norm_num at hbig
      linarith
    rw [hround]
    exact roundWithAccuracy_within (by omega) hvalue (.inl rfl) hsmall _

theorem neg_isFinite (hx : x.isFinite = true) : (-x).isFinite = true := by
  have hneg : (-x).isFinite = (Float.Model.pack x.toModel.unpack.neg).unpack.isFinite := rfl
  have hx' : x.toModel.unpack.isFinite = true := hx
  rw [hneg]
  cases hf : x.toModel.unpack with
  | infinity s | notANumber => rw [hf] at hx'; cases hx'
  | zero s => exact (zero_within _ le_rfl).isFinite
  | finite s m e hm =>
    obtain ⟨hlt, he, he', _⟩ := unpack_shape x.toModel hf
    exact (pack_within hm hlt he he' le_rfl).isFinite

end Operations

end AlertRelay
