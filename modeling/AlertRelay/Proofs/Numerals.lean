import AlertRelay.Proofs.Doubles
import Mathlib.Data.List.Induction

/-! The doubles that numerals are read as. A numeral is read if its value, with
all its digits, lies clear of the largest double and has few places. -/

namespace AlertRelay

open Float.Model (UnpackedFloat Format totalExponent)
open Float.Model.UnpackedFloat

theorem two_zpow_mul (e : Int) : (2 : ℚ) ^ e * 2 ^ (-e).toNat = 2 ^ e.toNat := by
  have h : e + ((-e).toNat : Int) = (e.toNat : Int) := by omega
  rw [← zpow_natCast, ← zpow_natCast, ← two_zpow_add, h]

section PowersOfTen

/-- Whether a double is exactly `n`. -/
def isExactly (f : UnpackedFloat) (n : Nat) : Bool :=
  match f with
  | .finite _ m e _ => decide (m * 2 ^ e.toNat = n * 2 ^ (-e).toNat)
  | _ => false

theorem isExactly_bounds {f : UnpackedFloat} {n : Nat} (h : isExactly f n = true) (hn : 0 < n) :
    Whole f ∧ Within f n := by
  cases f with
  | finite s m e hm =>
    have hcast : (m : ℚ) * 2 ^ e.toNat = n * 2 ^ (-e).toNat := by exact_mod_cast of_decide_eq_true h
    have hvalue : (m : ℚ) * 2 ^ e = n := by
      rw [← two_zpow_mul, ← mul_assoc] at hcast
      exact mul_right_cancel₀ (by positivity) hcast
    have hone : (1 : ℚ) ≤ n := by exact_mod_cast hn
    exact ⟨.finite (hone.trans_eq hvalue.symm), .finite hvalue.le⟩
  | infinity s | notANumber | zero s => cases h

theorem powerOfTen_exact : ∀ k < 23, isExactly (powerOfTen k).toModel.unpack (10 ^ k) = true := by
  decide +kernel

theorem powerOfTen_rounded {k : Nat} (hk : 23 ≤ k) (hk' : k ≤ 308) : (powerOfTen k).toModel =
    Float.Model.pack (roundWithAccuracy Format.binary64 .positive (2 ^ 53 * 10 ^ k) (-53) .exact) := by
  have hfast : ¬ (1 < 2 ^ 53 ∧ k ≤ 22) := by omega
  have hlarge : ¬ ((k : Int) > 2 ^ Format.binary64.exponentBits) := by
    show ¬ (k : Int) > 2048
    omega
  have hsmall : ¬ ((k : Int) < -((2 ^ Format.binary64.exponentBits : Int) + Nat.log2 1)) := by
    have h : (0 : Int) ≤ Nat.log2 1 := by omega
    show ¬ (k : Int) < -(2048 + Nat.log2 1)
    omega
  have hslow : (powerOfTen k).toModel = Float.Model.pack (UnpackedFloat.ofScientific Format.binary64 1 k) :=
    congrArg Float.toModel (dif_neg hfast)
  rw [hslow]
  exact congrArg Float.Model.pack ((dif_neg one_ne_zero).trans
    ((if_neg hlarge).trans ((if_neg hsmall).trans (if_pos (Int.natCast_nonneg k)))))

theorem overflow_eq : overflow = (2 ^ 1024 : Nat) := by
  rw [overflow, Nat.cast_pow, ← zpow_natCast]
  rfl

theorem ten_pow_small {k : Nat} (hk : k ≤ 308) : rounded (10 ^ k) < overflow := by
  have hquarter : (2 : ℚ) ^ (-2 : Int) = 1 / 4 := by norm_num
  have hunit : (2 : ℚ) ^ (-52 : Int) ≤ 2 ^ (-2 : Int) := two_zpow_le (by decide)
  have hleast : (2 : ℚ) ^ (-1074 : Int) ≤ 2 ^ (-2 : Int) := two_zpow_le (by decide)
  have hone : (1 : ℚ) ≤ 10 ^ k := one_le_pow₀ (by norm_num)
  have hle : (10 : ℚ) ^ k ≤ 10 ^ 308 := pow_le_pow_right₀ (by norm_num) hk
  have hlt : ((10 ^ 308 * 3 : Nat) : ℚ) < (2 ^ 1024 * 2 : Nat) :=
    Nat.cast_lt.mpr (by decide +kernel)
  rw [Nat.cast_mul, Nat.cast_mul, ← overflow_eq, Nat.cast_pow, Nat.cast_ofNat, Nat.cast_ofNat,
    Nat.cast_ofNat] at hlt
  rw [hquarter] at hunit hleast
  unfold rounded
  generalize (10 : ℚ) ^ 308 = most at hle hlt
  generalize (2 : ℚ) ^ (-52 : Int) = unit at *
  generalize (2 : ℚ) ^ (-1074 : Int) = least at *
  nlinarith

theorem powerOfTen_bounds {k : Nat} (hk : k ≤ 308) :
    Whole (powerOfTen k).toModel.unpack ∧ Within (powerOfTen k).toModel.unpack (rounded (10 ^ k)) := by
  have hpow : (0 : ℚ) ≤ 10 ^ k := by positivity
  by_cases hexact : k < 23
  · obtain ⟨hwhole, hwithin⟩ := isExactly_bounds (powerOfTen_exact k hexact) (by positivity)
    rw [Nat.cast_pow, Nat.cast_ofNat] at hwithin
    exact ⟨hwhole, hwithin.mono (le_rounded hpow)⟩
  · have hfull : 2 ^ 53 ≤ 2 ^ 53 * 10 ^ k := Nat.le_mul_of_pos_right _ (by positivity)
    have hlog : 53 ≤ (2 ^ 53 * 10 ^ k).log2 := (Nat.le_log2 (by positivity)).mpr hfull
    have hvalue : ((2 ^ 53 * 10 ^ k : Nat) : ℚ) * 2 ^ (-53 : Int) ≤ 10 ^ k := by
      push_cast
      rw [mul_comm, ← mul_assoc]
      norm_num
    rw [powerOfTen_rounded (by omega) hk]
    exact ⟨roundWithAccuracy_whole (by decide) hvalue (ten_pow_small hk) (by omega) (by omega) _,
      roundWithAccuracy_within (by decide) hvalue (.inl rfl) (ten_pow_small hk) _⟩

theorem powerOfTen_whole {k : Nat} (hk : k ≤ 308) : Whole (powerOfTen k).toModel.unpack :=
  (powerOfTen_bounds hk).1

end PowersOfTen

section Scaling

variable {x : Float} {a : ℚ}

/-- Each division by a power of ten at most doubles the bound. -/
theorem divideByTens_within {k : Nat} (hx : Within x.toModel.unpack a)
    (hsmall : (a + 1) * 2 ^ (k / 308 + 1) < overflow) : ∃ b, Within (divideByTens x k).toModel.unpack b := by
  have hpow : (1 : ℚ) ≤ 2 ^ (k / 308) := one_le_pow₀ (by norm_num)
  fun_induction divideByTens x k generalizing a with
  | case1 x k hk =>
    have hle := rounded_le hx.nonneg
    have hpos := hx.nonneg
    refine ⟨_, div_within hx (powerOfTen_whole hk) ?_⟩
    rw [pow_succ] at hsmall
    nlinarith
  | case2 x k _ _ => exact ⟨a, hx⟩
  | case3 x k hk _ ih =>
    have hle := rounded_le hx.nonneg
    have hpos := hx.nonneg
    have hk' : k / 308 = (k - 308) / 308 + 1 := by omega
    have hpow' : (1 : ℚ) ≤ 2 ^ ((k - 308) / 308) := one_le_pow₀ (by norm_num)
    have hwhole := powerOfTen_whole (Nat.le_refl 308)
    rw [hk', pow_succ, pow_succ] at hsmall
    refine ih (div_within hx hwhole ?_) ?_ hpow'
    · nlinarith
    · rw [pow_succ]
      nlinarith

/-- The values that are read without coming near the largest double. -/
def readable : ℚ := overflow * (1 - 2 ^ (-49 : Int))

theorem rounded_mono {v w : ℚ} (h : v ≤ w) : rounded v ≤ rounded w := by
  have hunit := two_zpow_pos (-52)
  unfold rounded
  nlinarith

theorem rounded_le_mul {v : ℚ} (hv : 1 ≤ v) : rounded v ≤ v * (1 + 2 ^ (-51 : Int)) := by
  have hleast : (2 : ℚ) ^ (-1074 : Int) ≤ 2 ^ (-52 : Int) := two_zpow_le (by decide)
  have hunit : (2 : ℚ) ^ (-51 : Int) = 2 * 2 ^ (-52 : Int) := by norm_num
  have hpos := two_zpow_pos (-52)
  rw [hunit]
  unfold rounded
  generalize (2 : ℚ) ^ (-1074 : Int) = least at *
  nlinarith

/-- Three roundings cannot carry a readable number over the end of the doubles. -/
theorem readable_product {n p : ℚ} (hn : 1 ≤ n) (hp : 1 ≤ p) (h : n * p ≤ readable) :
    rounded (rounded n * rounded p) < overflow := by
  have hover : 0 < overflow := two_zpow_pos 1024
  have hnp : 1 ≤ n * p := one_le_mul_of_one_le_of_one_le hn hp
  have hprod : rounded n * rounded p ≤ n * p * (1 + 2 ^ (-51 : Int)) ^ 2 := by
    have hpos := (zero_le_one.trans hp).trans (le_rounded (zero_le_one.trans hp))
    have hmul := mul_le_mul (rounded_le_mul hn) (rounded_le_mul hp) hpos (by positivity)
    linarith
  have hone : 1 ≤ n * p * (1 + 2 ^ (-51 : Int)) ^ 2 :=
    one_le_mul_of_one_le_of_one_le hnp (one_le_pow₀ (le_add_of_nonneg_right (two_zpow_pos _).le))
  calc rounded (rounded n * rounded p)
      ≤ n * p * (1 + 2 ^ (-51 : Int)) ^ 2 * (1 + 2 ^ (-51 : Int)) :=
        (rounded_mono hprod).trans (rounded_le_mul hone)
    _ = n * p * (1 + 2 ^ (-51 : Int)) ^ 3 := by ring
    _ ≤ overflow * (1 - 2 ^ (-49 : Int)) * (1 + 2 ^ (-51 : Int)) ^ 3 :=
        mul_le_mul_of_nonneg_right h (by positivity)
    _ < overflow := by
        rw [mul_assoc]
        exact mul_lt_of_lt_one_right hover (by norm_num)

theorem readable_lt_overflow : readable < overflow := by
  have hover : 0 < overflow := two_zpow_pos 1024
  have hunit := two_zpow_pos (-49)
  unfold readable
  nlinarith

theorem ten_pow_le_of_readable {k : Nat} (h : (10 : ℚ) ^ k ≤ readable) : k ≤ 308 := by
  by_contra hk
  have hle : (10 : ℚ) ^ 309 ≤ 10 ^ k := pow_le_pow_right₀ (by norm_num) (by omega)
  have hlt : ((2 ^ 1024 : Nat) : ℚ) < (10 ^ 309 : Nat) := Nat.cast_lt.mpr (by decide +kernel)
  rw [← overflow_eq, Nat.cast_pow, Nat.cast_ofNat] at hlt
  exact absurd (hle.trans h) (not_le.mpr (readable_lt_overflow.trans hlt))

theorem zero_toFloat : Within (Nat.toUInt64 0).toFloat.toModel.unpack 0 := by
  have h : (Nat.toUInt64 0).toFloat.toModel.unpack = .zero .positive := rfl
  rw [h]
  exact .zero le_rfl

/-- Zero can be multiplied by any power of ten, other numbers by those that are doubles. -/
theorem multiplyByTens_within {value k : Nat} (hvalue : value < UInt64.size)
    (h : (value : ℚ) * 10 ^ k ≤ readable) :
    ∃ y b, multiplyByTens value.toUInt64.toFloat k = some y ∧ Within y.toModel.unpack b := by
  rcases Nat.eq_zero_or_pos value with rfl | hpos
  · by_cases hk : k ≤ 308
    · have hsmall : rounded (0 * rounded (10 ^ k)) < overflow := by
        rw [zero_mul]
        exact (rounded_mono (by positivity)).trans_lt (ten_pow_small hk)
      refine ⟨_, _, by rw [multiplyByTens, if_pos hk], mul_within zero_toFloat (powerOfTen_bounds hk).2 hsmall⟩
    · have hzero : ((Nat.toUInt64 0).toFloat == 0) = true := by decide +kernel
      exact ⟨_, 0, by rw [multiplyByTens, if_neg hk, if_pos hzero], zero_toFloat⟩
  · have hone : (1 : ℚ) ≤ value := by exact_mod_cast hpos
    have hpow : (1 : ℚ) ≤ 10 ^ k := one_le_pow₀ (by norm_num)
    have hk : k ≤ 308 := ten_pow_le_of_readable ((le_mul_of_one_le_left (by positivity) hone).trans h)
    have hnat : value.toUInt64.toNat = value := UInt64.toNat_ofNat_of_lt hvalue
    have hx := toFloat_within value.toUInt64
    rw [hnat] at hx
    exact ⟨_, _, by rw [multiplyByTens, if_pos hk],
      mul_within hx (powerOfTen_bounds hk).2 (readable_product hone hpow h)⟩

theorem scaleByTens_isSome {value : Nat} {exponent : Int} (hvalue : value < UInt64.size)
    (hlow : -600 ≤ exponent) (hhigh : (value : ℚ) * 10 ^ exponent ≤ readable) :
    (scaleByTens value exponent).isSome = true := by
  have hscaled : ∃ y b, (if 0 ≤ exponent then multiplyByTens value.toUInt64.toFloat exponent.toNat
      else some (divideByTens value.toUInt64.toFloat exponent.natAbs)) = some y ∧ Within y.toModel.unpack b := by
    by_cases hsign : 0 ≤ exponent
    · have hexp : (10 : ℚ) ^ exponent = 10 ^ exponent.toNat := by
        rw [← zpow_natCast, Int.toNat_of_nonneg hsign]
      rw [if_pos hsign]
      exact multiplyByTens_within hvalue (hexp ▸ hhigh)
    · have hnat : value.toUInt64.toNat = value := UInt64.toNat_ofNat_of_lt hvalue
      have hx := toFloat_within value.toUInt64
      rw [hnat] at hx
      have hle := rounded_le (Nat.cast_nonneg (α := ℚ) value)
      have hlt : (value : ℚ) < 0x10000000000000000 := by exact_mod_cast hvalue
      have hpow : (2 : ℚ) ^ (exponent.natAbs / 308 + 1) ≤ 2 ^ 2 := pow_le_pow_right₀ (by norm_num) (by omega)
      have hbig : (2 : ℚ) ^ (68 : Int) < overflow := two_zpow_lt_overflow (by decide)
      norm_num at hbig
      obtain ⟨b, hb⟩ := divideByTens_within (k := exponent.natAbs) hx (by nlinarith [hx.nonneg])
      exact ⟨_, b, if_neg hsign, hb⟩
  obtain ⟨y, b, hy, hb⟩ := hscaled
  have hfinite : y.isFinite = true := hb.isFinite
  simp only [scaleByTens, hy, Option.filter_some, hfinite, if_true, Option.isSome_some]

theorem intToFloat_isFinite (n : Int) : (intToFloat n).isFinite = true := by
  unfold intToFloat
  split
  · exact neg_isFinite (toFloat_within _).isFinite
  · exact (toFloat_within _).isFinite

end Scaling

section Digits

/-- The number that digits write, most significant first. -/
def digitsValue (ds : List Nat) : Nat := ds.foldl (fun v d => 10 * v + d) 0

theorem digitsValue_concat (ds : List Nat) (d : Nat) : digitsValue (ds ++ [d]) = 10 * digitsValue ds + d := by
  simp [digitsValue]

theorem digitsValue_lt {ds : List Nat} (h : ∀ d ∈ ds, d < 10) : digitsValue ds < 10 ^ ds.length := by
  induction ds using List.reverseRecOn with
  | nil => decide
  | append_singleton ds d ih =>
    have hds := ih fun x hx => h x (List.mem_append_left _ hx)
    have hd := h d (by simp)
    rw [digitsValue_concat, List.length_append, List.length_singleton, pow_succ]
    omega

theorem exponentValue_eq (ds : List Nat) : exponentValue ds = min (digitsValue ds) (exponentLimit + 1) := by
  induction ds using List.reverseRecOn with
  | nil => rfl
  | append_singleton ds d ih =>
    have hstep : exponentValue (ds ++ [d]) = min (10 * exponentValue ds + d) (exponentLimit + 1) := by
      simp [exponentValue]
    rw [hstep, ih, digitsValue_concat]
    omega

/-- Digits fill the significand as long as their number fits 64 bits. -/
theorem foldl_pushWhole_cases (ds : List Nat) :
    digitsValue ds < UInt64.size ∧ ds.foldl Significand.pushWhole ⟨0, 0, false⟩ = ⟨digitsValue ds, 0, false⟩ ∨
    UInt64.size ≤ digitsValue ds ∧ (ds.foldl Significand.pushWhole ⟨0, 0, false⟩).full = true := by
  induction ds using List.reverseRecOn with
  | nil => exact .inl ⟨by decide, rfl⟩
  | append_singleton ds d ih =>
    rw [List.foldl_append, digitsValue_concat, Nat.mul_comm 10]
    rcases ih with ⟨hlt, hfold⟩ | ⟨hle, hfull⟩
    · rw [hfold]
      by_cases hfits : digitsValue ds * 10 + d < UInt64.size
      · exact .inl ⟨hfits, by simp [Significand.pushWhole, hfits]⟩
      · exact .inr ⟨Nat.le_of_not_lt hfits, by simp [Significand.pushWhole, hfits]⟩
    · exact .inr ⟨by omega, by simp [Significand.pushWhole, hfull]⟩

/-- Nineteen digits fit into 64 bits. -/
theorem foldl_pushWhole {ds : List Nat} (h : ∀ d ∈ ds, d < 10) (hlen : ds.length ≤ 19) :
    ds.foldl Significand.pushWhole ⟨0, 0, false⟩ = ⟨digitsValue ds, 0, false⟩ := by
  have hlt := (digitsValue_lt h).trans_le (Nat.pow_le_pow_right (by decide) hlen)
  have hsize : 10 ^ 19 < UInt64.size := by decide
  rcases foldl_pushWhole_cases ds with ⟨_, hfold⟩ | ⟨hle, _⟩
  · exact hfold
  · omega

/-- What digits after the point make of the digits before it: a number that is not
above what they write, and that is exact as long as they fit. -/
structure Follows (v : Nat) (ds : List Nat) (s : Significand) : Prop where
  fits : s.value < UInt64.size
  exponent : -(ds.length : Int) ≤ s.exponent
  le : (s.value : ℚ) * 10 ^ s.exponent ≤ (ds.foldl (fun v d => 10 * v + d) v : Nat) * 10 ^ (-(ds.length : Int))
  exact : s.full = false → s.value = ds.foldl (fun v d => 10 * v + d) v ∧ s.exponent = -ds.length

theorem foldl_pushFraction {v : Nat} (hv : v < UInt64.size) (ds : List Nat) :
    Follows v ds (ds.foldl Significand.pushFraction ⟨v, 0, false⟩) := by
  induction ds using List.reverseRecOn with
  | nil => exact ⟨hv, le_rfl, le_rfl, fun _ => ⟨rfl, rfl⟩⟩
  | append_singleton ds d ih =>
    rw [List.foldl_append]
    generalize ds.foldl Significand.pushFraction ⟨v, 0, false⟩ = s at ih ⊢
    have hlen : -((ds ++ [d]).length : Int) = -(ds.length : Int) - 1 := by
      rw [List.length_append, List.length_singleton]
      omega
    have hval : (ds ++ [d]).foldl (fun v d => 10 * v + d) v = 10 * ds.foldl (fun v d => 10 * v + d) v + d := by
      simp
    by_cases hfits : s.full = false ∧ s.value * 10 + d < UInt64.size
    · obtain ⟨hvalue, hexp⟩ := ih.exact hfits.1
      have hpush : s.pushFraction d = { s with value := s.value * 10 + d, exponent := s.exponent - 1 } := by
        simp [Significand.pushFraction, hfits.1, hfits.2]
      simp only [List.foldl_cons, List.foldl_nil, hpush]
      refine ⟨hfits.2, by rw [hlen, hexp], ?_, fun _ => ⟨by rw [hval, hvalue, Nat.mul_comm], by rw [hlen, hexp]⟩⟩
      rw [hval, hlen, hexp, hvalue, Nat.mul_comm 10]
    · have hpush : s.pushFraction d = { s with full := true } := by
        simp only [Significand.pushFraction, Bool.and_eq_true, Bool.not_eq_true', decide_eq_true_eq, if_neg hfits]
      simp only [List.foldl_cons, List.foldl_nil, hpush]
      refine ⟨ih.fits, by rw [hlen]; exact (Int.sub_le_self _ (by decide)).trans ih.exponent, ih.le.trans ?_, ?_⟩
      · rw [hval, hlen, zpow_sub_one₀ (by norm_num)]
        push_cast
        have hpos : (0 : ℚ) < 10 ^ (-(ds.length : Int)) := zpow_pos (by norm_num) _
        have hd : (0 : ℚ) ≤ d := Nat.cast_nonneg d
        nlinarith
      · intro h
        cases h

end Digits

namespace Numeral

/-- The power of ten that is written behind a numeral. -/
def shift (n : Numeral) : Int :=
  match n.exponent with
  | none => 0
  | some (below, ds) => if below then -digitsValue ds else digitsValue ds

/-- The power of ten of the last digit. -/
def place (n : Numeral) : Int := n.shift - n.fraction.length

/-- The magnitude that is written. -/
def exact (n : Numeral) : ℚ := digitsValue (n.whole ++ n.fraction) * 10 ^ n.place

section Reading

variable {n : Numeral}

theorem significand_follows (hdigits : ∀ d ∈ n.whole, d < 10) (hlen : n.whole.length ≤ 19) :
    Follows (digitsValue n.whole) n.fraction n.significand := by
  have hwhole : n.wholePart = ⟨digitsValue n.whole, 0, false⟩ := foldl_pushWhole hdigits hlen
  have hlt := (digitsValue_lt hdigits).trans_le (Nat.pow_le_pow_right (by decide) hlen)
  have hsize : (10 : Nat) ^ 19 < UInt64.size := by decide
  rw [significand, hwhole]
  exact foldl_pushFraction (hlt.trans hsize) n.fraction

theorem magnitude?_isSome (hdigits : ∀ d ∈ n.whole, d < 10) (hlen : n.whole.length ≤ 19)
    (hshift : n.shift.natAbs ≤ exponentLimit) (hplace : -600 ≤ n.place) (hexact : n.exact ≤ readable) :
    n.magnitude?.isSome = true := by
  obtain ⟨hfits, hexponent, hle, _⟩ := significand_follows hdigits hlen
  have hscaled : (scaleByTens n.significand.value (n.significand.exponent + n.shift)).isSome = true := by
    unfold place at hplace
    refine scaleByTens_isSome hfits (by omega) (le_trans ?_ hexact)
    have hpow : (0 : ℚ) ≤ 10 ^ n.shift := (zpow_pos (by norm_num) _).le
    rw [zpow_add₀ (by norm_num), ← mul_assoc, exact, place, sub_eq_neg_add, zpow_add₀ (by norm_num), ← mul_assoc,
      digitsValue, List.foldl_append]
    exact mul_le_mul_of_nonneg_right hle hpow
  unfold magnitude?
  cases hexp : n.exponent with
  | none => simpa [shift, hexp] using hscaled
  | some e =>
    obtain ⟨below, ds⟩ := e
    have hds : digitsValue ds ≤ exponentLimit := by
      cases below <;> simpa [shift, hexp] using hshift
    have hvalue : exponentValue ds = digitsValue ds := by
      rw [exponentValue_eq]
      omega
    simp only [hvalue, if_neg (Nat.not_lt.mpr hds)]
    cases below
    · simpa [shift, hexp] using hscaled
    · simpa [shift, hexp, sub_eq_add_neg] using hscaled

theorem isFinite_of_scaleByTens {value : Nat} {exponent : Int} {x : Float} (h : scaleByTens value exponent = some x) :
    x.isFinite = true := (Option.filter_eq_some_iff.mp h).2

theorem isFinite_of_magnitude? {x : Float} (h : n.magnitude? = some x) : x.isFinite = true := by
  unfold magnitude? at h
  cases hexp : n.exponent with
  | none =>
    rw [hexp] at h
    exact isFinite_of_scaleByTens h
  | some e =>
    obtain ⟨below, ds⟩ := e
    simp only [hexp] at h
    split at h
    · split at h
      · cases h
      · obtain rfl := Option.some.inj h
        decide +kernel
    · exact isFinite_of_scaleByTens h

theorem isFinite_of_value? {x : Float} (h : n.value? = some (.float x)) : x.isFinite = true := by
  unfold value? at h
  split at h
  · cases h
  · obtain ⟨y, hy, heq⟩ := Option.map_eq_some_iff.mp h
    have hfinite := isFinite_of_magnitude? hy
    obtain rfl := Json.float.inj heq
    split
    · exact neg_isFinite hfinite
    · exact hfinite

end Reading

end Numeral

end AlertRelay
