import AlertRelay.Proofs.NumberText

/-! The text of a finite double is a number, and it is read as a finite double again. -/

namespace AlertRelay

open Float.Model (Format)
open Float.Model.UnpackedFloat

section Shortest

variable {r : Rounding} {m : Nat} {q k : Int}

theorem Rounding.admits_bounds {d : Nat} (h : r.admits d = true) : r.lower ≤ d * r.unit ∧ d * r.unit ≤ r.upper := by
  unfold admits at h
  split at h
  · exact of_decide_eq_true h
  · have hlt := of_decide_eq_true h
    exact ⟨hlt.1.le, hlt.2.le⟩

theorem Rounding.nearest?_admits {d : Nat} (h : r.nearest? = some d) : r.admits d = true := by
  dsimp only [nearest?] at h
  split at h
  next hd hd' =>
    obtain rfl := Option.some.inj h
    split
    · exact hd
    · exact hd'
  next hd _ => exact Option.some.inj h ▸ hd
  next _ hd => exact Option.some.inj h ▸ hd
  next => cases h

/-- What the search ends with: digits at one of the places it tries, or the number it began with. -/
theorem Rounding.search_cases (r : Rounding) (k : Int) (fuel : Nat) : r.search k fuel = ⟨r.value, 0⟩ ∨
    ∃ d k', k - fuel ≤ k' ∧ (r.scale k').nearest? = some d ∧ r.search k fuel = ⟨d, k'⟩ := by
  induction fuel generalizing k with
  | zero => exact .inl rfl
  | succ fuel ih =>
    unfold search
    cases hd : (r.scale k).nearest? with
    | some d => exact .inr ⟨d, k, by omega, hd, rfl⟩
    | none =>
      rcases ih (k - 1) with h | ⟨d, k', hk, hd', h⟩
      · exact .inl h
      · exact .inr ⟨d, k', by omega, hd', h⟩

theorem firstPlace_le (value unit fuel : Nat) : firstPlace value unit fuel ≤ fuel := by
  induction fuel generalizing value with
  | zero => exact le_rfl
  | succ fuel ih =>
    unfold firstPlace
    split
    · omega
    · exact Nat.succ_le_succ (ih _)

theorem Rounding.magnitude_ge (r : Rounding) : -330 ≤ r.magnitude := by
  unfold magnitude
  split
  · omega
  · have h := firstPlace_le r.value r.unit 330
    omega

theorem ten_zpow_mul (k : Int) : (10 : ℚ) ^ k * 10 ^ (-k).toNat = 10 ^ k.toNat := by
  have h : k + ((-k).toNat : Int) = (k.toNat : Int) := by omega
  rw [← zpow_natCast, ← zpow_natCast, ← zpow_add₀ (by norm_num), h]

theorem Rounding.scale_bounds {d : Nat} (h : (r.scale k).nearest? = some d) :
    (r.lower : ℚ) ≤ d * 10 ^ k * r.unit ∧ (d : ℚ) * 10 ^ k * r.unit ≤ r.upper := by
  obtain ⟨hlow, hhigh⟩ := admits_bounds (nearest?_admits h)
  have hpos : (0 : ℚ) < 10 ^ (-k).toNat := by positivity
  have hlow' : (r.lower : ℚ) * 10 ^ (-k).toNat ≤ d * (r.unit * 10 ^ k.toNat) := by exact_mod_cast hlow
  have hhigh' : (d : ℚ) * (r.unit * 10 ^ k.toNat) ≤ r.upper * 10 ^ (-k).toNat := by exact_mod_cast hhigh
  have hvalue : (d : ℚ) * (r.unit * 10 ^ k.toNat) = d * 10 ^ k * r.unit * 10 ^ (-k).toNat := by
    rw [← ten_zpow_mul]
    ring
  rw [hvalue] at hlow' hhigh'
  exact ⟨le_of_mul_le_mul_right hlow' hpos, le_of_mul_le_mul_right hhigh' hpos⟩

theorem Rounding.ofBinary_bounds (hm : 0 < m) :
    0 < (ofBinary m q).lower ∧ 0 < (ofBinary m q).value ∧ 0 < (ofBinary m q).unit := by
  have hlow : 0 < if m = fullSignificand ∧ -1074 < q then 4 * m - 1 else 4 * m - 2 := by
    split <;> omega
  have hpow (n : Nat) : 0 < Nat.pow 2 n := Nat.pow_pos (by decide)
  exact ⟨Nat.mul_pos hlow (hpow _), Nat.mul_pos (by omega) (hpow _), hpow _⟩

theorem Rounding.ofBinary_upper (m : Nat) (q : Int) :
    ((ofBinary m q).upper : ℚ) = (4 * m + 2) * 2 ^ (q - 2) * (ofBinary m q).unit := by
  have hneg : (2 - q).toNat = (-(q - 2)).toNat := by omega
  simp only [ofBinary, Nat.pow_eq, hneg]
  push_cast
  rw [mul_assoc, two_zpow_mul]

theorem Rounding.ofBinary_value (hm' : m < 2 ^ 53) :
    ((ofBinary m q).value : ℚ) ≤ max ((4 * (m : ℚ) + 2) * 2 ^ (q - 2)) (2 ^ 55) := by
  simp only [ofBinary, Nat.pow_eq]
  push_cast
  by_cases hq : 2 ≤ q
  · have hexp : (2 : ℚ) ^ (q - 2) = 2 ^ (q - 2).toNat := by
      rw [← zpow_natCast, Int.toNat_of_nonneg (by omega)]
    rw [hexp]
    refine le_max_of_le_left (mul_le_mul_of_nonneg_right ?_ (by positivity))
    linarith
  · have hexp : (q - 2).toNat = 0 := by omega
    have hlt : (m : ℚ) < 2 ^ 53 := by exact_mod_cast hm'
    rw [hexp, pow_zero, mul_one]
    refine le_max_of_le_right ?_
    linarith

/-- The shortest digits are at most half a unit of the last place above the number. -/
theorem shortestDecimal_bounds (hm : 0 < m) (hm' : m < 2 ^ 53) :
    0 < (shortestDecimal m q).digits ∧ -348 ≤ (shortestDecimal m q).exponent ∧
      ((shortestDecimal m q).digits : ℚ) * 10 ^ (shortestDecimal m q).exponent ≤
        max ((4 * (m : ℚ) + 2) * 2 ^ (q - 2)) (2 ^ 55) := by
  obtain ⟨hlower, hvalue, hunit⟩ := Rounding.ofBinary_bounds (q := q) hm
  have hplace := (Rounding.ofBinary m q).magnitude_ge
  unfold shortestDecimal
  rcases Rounding.search_cases (.ofBinary m q) (Rounding.ofBinary m q).magnitude 18 with h | ⟨d, k, hk, hd, h⟩
  · dsimp only
    rw [h]
    refine ⟨hvalue, (by decide : (-348 : Int) ≤ 0), ?_⟩
    rw [zpow_zero, mul_one]
    exact Rounding.ofBinary_value hm'
  · obtain ⟨hlow, hhigh⟩ := Rounding.scale_bounds hd
    have hunit' : (0 : ℚ) < (Rounding.ofBinary m q).unit := by exact_mod_cast hunit
    dsimp only
    rw [h]
    refine ⟨?_, by dsimp only; omega, ?_⟩
    · rcases Nat.eq_zero_or_pos d with rfl | hpos
      · have hlower' : (0 : ℚ) < (Rounding.ofBinary m q).lower := by exact_mod_cast hlower
        rw [Nat.cast_zero, zero_mul, zero_mul] at hlow
        exact absurd hlow (not_le.mpr hlower')
      · exact hpos
    · rw [Rounding.ofBinary_upper] at hhigh
      exact le_max_of_le_left (le_of_mul_le_mul_right hhigh hunit')

end Shortest

section Decimals

/-- A decimal as it is printed. -/
def Decimal.text (d : Decimal) : NumberText :=
  .place (dropEndZeros (decimalDigits d.digits)) (d.exponent + (decimalDigits d.digits).length - 1)

/-- What is printed of a decimal: digits that begin with none of the zeros. -/
theorem Decimal.printed {d : Decimal} (hd : 0 < d.digits) : ∃ c cs zeros, isDigit19 c = true ∧
    (∀ x ∈ cs, x.isDigit = true) ∧ decimalDigits d.digits = c :: cs ++ List.replicate zeros '0' ∧
    dropEndZeros (decimalDigits d.digits) = c :: cs ∧ d.text = .place (c :: cs) (d.exponent + cs.length + zeros) := by
  obtain ⟨c, rest, hdigits, hc⟩ := decimalDigits_head hd
  obtain ⟨cs, zeros, hdrop, rfl⟩ := dropEndZeros_cons rest hc
  rw [← hdigits] at hdrop
  refine ⟨c, cs, zeros, hc, fun x hx => ?_, hdigits, hdrop, ?_⟩
  · exact decimalDigits_isDigit d.digits x (by rw [hdigits]; simp [hx])
  · rw [text, hdrop, hdigits]
    congr 1
    simp
    omega

theorem Decimal.text_chars {d : Decimal} (hd : 0 < d.digits) : d.chars = d.text.chars := by
  obtain ⟨c, cs, _, _, _, _, hdrop, _⟩ := printed hd
  rw [chars, text, hdrop]
  exact (NumberText.place_chars cs _).symm

theorem Decimal.text_wellFormed {d : Decimal} (hd : 0 < d.digits) : d.text.WellFormed := by
  obtain ⟨c, cs, zeros, hc, hcs, _, _, htext⟩ := printed hd
  rw [htext]
  exact NumberText.place_wellFormed hc hcs _

theorem Decimal.text_places {d : Decimal} (hd : 0 < d.digits) : ∃ ds zeros before after,
    decimalDigits d.digits = ds ++ List.replicate zeros '0' ∧
    NumberText.Places ds (d.exponent + (decimalDigits d.digits).length - 1) d.text before after := by
  obtain ⟨c, cs, zeros, _, _, hdigits, hdrop, _⟩ := printed hd
  obtain ⟨before, after, h⟩ :=
    NumberText.place_places c cs (d.exponent + (decimalDigits d.digits).length - 1)
  rw [← hdrop] at h
  exact ⟨c :: cs, zeros, before, after, hdigits, hdrop ▸ h⟩

/-- The number that is printed is the decimal. -/
theorem Decimal.text_exact {d : Decimal} (hd : 0 < d.digits) :
    d.text.numeral.exact = d.digits * 10 ^ d.exponent := by
  obtain ⟨ds, zeros, _, _, hdigits, h⟩ := text_places hd
  have hvalue : d.digits = digitsValue (ds.map digitOf) * 10 ^ zeros := by
    have hzero : digitOf '0' = 0 := rfl
    rw [← digitsValue_append_zeros, ← digitsValue_decimalDigits d.digits, hdigits]
    simp [hzero]
  have hlen : (decimalDigits d.digits).length = ds.length + zeros := by
    rw [hdigits, List.length_append, List.length_replicate]
  have hplace : d.exponent + (decimalDigits d.digits).length - 1 + 1 - ds.length = zeros + d.exponent := by omega
  rw [h.exact, hplace, zpow_add₀ (by norm_num), zpow_natCast, ← mul_assoc]
  conv_rhs => rw [hvalue]
  push_cast
  rfl

theorem ten_pow_le_digits {n k : Nat} (hn : 0 < n) (h : (decimalDigits n).length = k + 1) : 10 ^ k ≤ n := by
  rcases Nat.eq_zero_or_pos k with rfl | hk
  · exact hn
  · have hiff := Nat.length_toDigits_le_iff (b := 10) (n := n) (by decide) hk
    unfold decimalDigits at h
    omega

/-- The place of the first digit of a number that can be read. -/
theorem Decimal.first_place_le {d : Decimal} (hd : 0 < d.digits) (h : (d.digits : ℚ) * 10 ^ d.exponent ≤ readable) :
    d.exponent + (decimalDigits d.digits).length - 1 ≤ 308 := by
  obtain ⟨k, hk⟩ : ∃ k, (decimalDigits d.digits).length = k + 1 := Nat.exists_eq_add_one.mpr Nat.length_toDigits_pos
  by_cases hneg : d.exponent + k < 0
  · omega
  · have hpow : ((10 ^ k : Nat) : ℚ) ≤ d.digits := by exact_mod_cast ten_pow_le_digits hd hk
    have hten : (0 : ℚ) ≤ 10 ^ d.exponent := (zpow_pos (by norm_num) _).le
    have hfirst : (10 : ℚ) ^ (d.exponent + k).toNat ≤ readable := by
      rw [← zpow_natCast, Int.toNat_of_nonneg (by omega), add_comm, zpow_add₀ (by norm_num)]
      refine (mul_le_mul_of_nonneg_right ?_ hten).trans h
      exact_mod_cast hpow
    have htop := ten_pow_le_of_readable hfirst
    omega

theorem Decimal.text_real {d : Decimal} (hd : 0 < d.digits) (hmagnitude : d.text.numeral.magnitude?.isSome = true) :
    d.text.Real := by
  obtain ⟨_, _, _, _, _, h⟩ := text_places hd
  exact ⟨text_wellFormed hd, h.fractional, hmagnitude⟩

theorem Decimal.text_magnitude? {d : Decimal} (hd : 0 < d.digits) (hlow : -600 ≤ d.exponent)
    (hhigh : (d.digits : ℚ) * 10 ^ d.exponent ≤ readable) : d.text.numeral.magnitude?.isSome = true := by
  obtain ⟨ds, zeros, _, _, hdigits, ⟨_, hplace, hafter, hwhole, hshift, _⟩⟩ := text_places hd
  have htop := first_place_le hd hhigh
  have hpos : 0 < (decimalDigits d.digits).length := Nat.length_toDigits_pos
  have hlen : (decimalDigits d.digits).length = ds.length + zeros := by
    rw [hdigits, List.length_append, List.length_replicate]
  have hlimit : exponentLimit = 0x7fffffff := rfl
  refine Numeral.magnitude?_isSome (text_wellFormed hd).digits_lt ?_ (by omega) (by omega) ?_
  · rw [NumberText.numeral, List.length_map]
    omega
  · rw [text_exact hd]
    exact hhigh

end Decimals

section Doubles

theorem readable_eq : readable = (2 ^ 55 - 64) * 2 ^ (969 : Int) := by
  have hover : overflow = 2 ^ 55 * 2 ^ (969 : Int) := two_zpow_add 55 969
  rw [readable, hover]
  generalize (2 : ℚ) ^ (969 : Int) = unit
  norm_num
  ring

/-- The last doubles are too near to the end for the bound on readable numbers. -/
theorem last_magnitude? :
    ∀ i < 16, (shortestDecimal (2 ^ 53 - 16 + i) 971).text.numeral.magnitude?.isSome = true := by
  decide +kernel

theorem shortestDecimal_readable {m : Nat} {q : Int} (hm : m < 2 ^ 53) (hq : q ≤ 971)
    (hlast : q = 971 → m < 2 ^ 53 - 16) : max ((4 * (m : ℚ) + 2) * 2 ^ (q - 2)) (2 ^ 55) ≤ readable := by
  have hhalf : (2 : ℚ) ^ (969 : Int) = 2 * 2 ^ (968 : Int) := two_zpow_add 1 968
  have hone : (1 : ℚ) ≤ 2 ^ (968 : Int) := one_le_zpow₀ (by norm_num) (by decide)
  have hbig : (2 : ℚ) ^ 55 ≤ (2 ^ 55 - 64) * 2 ^ (969 : Int) := by
    rw [hhalf]
    generalize (2 : ℚ) ^ (968 : Int) = unit at hone
    linarith
  rw [readable_eq]
  refine max_le ?_ hbig
  by_cases hlt : q = 971
  · have hlast' := hlast hlt
    have hm' : 4 * (m : ℚ) + 2 ≤ 2 ^ 55 - 64 := by
      have hcast : ((4 * m + 2 + 64 : Nat) : ℚ) ≤ (2 ^ 55 : Nat) := Nat.cast_le.mpr (by omega)
      push_cast at hcast
      linarith
    rw [hlt]
    exact mul_le_mul_of_nonneg_right hm' (two_zpow_pos 969).le
  · have hle : (2 : ℚ) ^ (q - 2) ≤ 2 ^ (968 : Int) := two_zpow_le (by omega)
    have hm' : 4 * (m : ℚ) + 2 ≤ 2 ^ 55 := by
      have hcast : ((4 * m + 2 : Nat) : ℚ) ≤ (2 ^ 55 : Nat) := Nat.cast_le.mpr (by omega)
      push_cast at hcast
      exact hcast
    have hmul := mul_le_mul hm' hle (two_zpow_pos _).le (by norm_num)
    rw [hhalf]
    generalize (2 : ℚ) ^ (968 : Int) = unit at hone hmul
    linarith

theorem shortestDecimal_magnitude? {m : Nat} {q : Int} (hm : 0 < m) (hm' : m < 2 ^ 53) (hq : q ≤ 971) :
    (shortestDecimal m q).text.numeral.magnitude?.isSome = true := by
  obtain ⟨hdigits, hplace, hvalue⟩ := shortestDecimal_bounds (q := q) hm hm'
  -- half a unit above the last sixteen doubles, three roundings could reach the end
  by_cases hlast : q = 971 ∧ 2 ^ 53 - 16 ≤ m
  · obtain ⟨rfl, hlast⟩ := hlast
    have h := last_magnitude? (m - (2 ^ 53 - 16)) (by omega)
    rwa [Nat.add_sub_cancel' hlast] at h
  · refine Decimal.text_magnitude? hdigits (by omega) (hvalue.trans ?_)
    exact shortestDecimal_readable hm' hq (by omega)

theorem unpackExponent_toNat (bits : UInt64) :
    (@unpackExponent Format.binary64 bits.toBitVec).toNat = bits.toNat / 2 ^ 52 % 2048 := by
  have h : (@unpackExponent Format.binary64 bits.toBitVec).toNat = (bits.toBitVec.extractLsb 62 52).toNat := rfl
  rw [h, BitVec.extractLsb_toNat, Nat.shiftRight_eq_div_pow]
  rfl

/-- A finite double has at most 53 bits, and its exponent is not the one of the infinities. -/
theorem Unpacked.ofBits_bounds {x : Float} (hx : x.isFinite = true) :
    (ofBits x.toBits).significand < 2 ^ 53 ∧ (ofBits x.toBits).exponent ≤ 971 := by
  have hbiased : x.toBits.toNat / 2 ^ 52 % 2048 ≠ 2047 := by
    intro h
    rcases unpack_cases x.toModel.toBits.toBitVec with ⟨_, hf⟩ | ⟨h', _⟩ | ⟨h', _⟩ | ⟨_, h', _⟩
    · have hx' : x.toModel.unpack.isFinite = true := hx
      rw [Float.Model.unpack, hf] at hx'
      cases hx'
    all_goals
      rw [unpackExponent_toNat] at h'
      have hbits : x.toModel.toBits = x.toBits := rfl
      rw [hbits] at h'
      omega
  have hfull : fullSignificand = 2 ^ 52 := rfl
  simp only [ofBits, hfull]
  constructor
  · split <;> omega
  · split <;> omega

/-- The magnitude of a double as it is printed. -/
def Unpacked.magnitudeText (u : Unpacked) : NumberText :=
  if u.significand = 0 then ⟨false, ['0'], ['0'], none⟩ else (shortestDecimal u.significand u.exponent).text

theorem zero_real : (⟨false, ['0'], ['0'], none⟩ : NumberText).Real :=
  ⟨⟨.inl rfl, List.forall_mem_singleton.mpr rfl, nofun⟩, .inl (List.cons_ne_nil _ _), by decide +kernel⟩

theorem Unpacked.magnitudeText_real {u : Unpacked} (hm : u.significand < 2 ^ 53) (hq : u.exponent ≤ 971) :
    u.magnitudeText.Real := by
  unfold magnitudeText
  split
  next => exact zero_real
  next hne =>
    have hpos := Nat.pos_of_ne_zero hne
    exact Decimal.text_real (shortestDecimal_bounds hpos hm).1 (shortestDecimal_magnitude? hpos hm hq)

theorem Unpacked.chars_eq {u : Unpacked} (hm : u.significand < 2 ^ 53) :
    u.chars = ({ u.magnitudeText with negative := u.negative } : NumberText).chars := by
  have hmagnitude : u.magnitudeText.negative = false := by
    unfold magnitudeText
    split
    · rfl
    · exact NumberText.place_negative _ _
  rw [NumberText.signed_chars hmagnitude, chars, magnitudeText]
  by_cases hzero : u.significand = 0
  · simp only [hzero, if_true]
    rfl
  · have hdigits := (shortestDecimal_bounds (q := u.exponent) (Nat.pos_of_ne_zero hzero) hm).1
    simp only [hzero, if_false, Decimal.text_chars hdigits]

/-- The text of a finite double is a number that is read as a finite double. -/
theorem floatChars_real {x : Float} (hx : x.isFinite = true) : ∃ t : NumberText, t.Real ∧ floatChars x = t.chars := by
  obtain ⟨hm, hq⟩ := Unpacked.ofBits_bounds hx
  exact ⟨_, (Unpacked.magnitudeText_real hm hq).signed _, Unpacked.chars_eq hm⟩

end Doubles

end AlertRelay
