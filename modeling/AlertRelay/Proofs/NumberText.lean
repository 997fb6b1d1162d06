import AlertRelay.Decimal.FloatText
import AlertRelay.Json.Scan
import AlertRelay.Proofs.Numerals

/-! The texts of numbers in parts: what a decimal is written as, and its numeral. -/

namespace AlertRelay

/-- A number as it is written; without fraction there is no point. -/
structure NumberText where
  negative : Bool
  whole : List Char
  fraction : List Char
  exponent : Option (Bool × List Char)

namespace NumberText

def chars (t : NumberText) : List Char :=
  (if t.negative then ['-'] else []) ++ (t.whole ++
    ((if t.fraction.isEmpty then [] else '.' :: t.fraction) ++
      match t.exponent with
      | none => []
      | some (below, ds) => 'e' :: (if below then '-' else '+') :: ds))

def numeral (t : NumberText) : Numeral where
  negative := t.negative
  whole := t.whole.map digitOf
  fraction := t.fraction.map digitOf
  exponent := t.exponent.map fun e => (e.1, e.2.map digitOf)

structure WellFormed (t : NumberText) : Prop where
  whole : t.whole = ['0'] ∨ ∃ c cs, t.whole = c :: cs ∧ isDigit19 c = true ∧ ∀ x ∈ cs, x.isDigit = true
  fraction : ∀ c ∈ t.fraction, c.isDigit = true
  exponent : ∀ below ds, t.exponent = some (below, ds) → ds ≠ [] ∧ ∀ c ∈ ds, c.isDigit = true

end NumberText

section Digits

theorem digitOf_lt {c : Char} (h : c.isDigit = true) : digitOf c < 10 := by
  have hc := Char.isDigit_iff_toNat.mp h
  have hzero : '0'.toNat = 48 := rfl
  have hnine : '9'.toNat = 57 := rfl
  unfold digitOf
  omega

theorem isDigit_of_isDigit19 {c : Char} (h : isDigit19 c = true) : c.isDigit = true := by
  simp only [isDigit19, Bool.and_eq_true, decide_eq_true_eq, Char.le_def, UInt32.le_iff_toNat_le] at h
  exact Char.isDigit_iff_toNat.mpr ⟨Nat.le_of_succ_le h.1, h.2⟩

theorem isDigit19_digitChar : ∀ n < 10, 0 < n → isDigit19 n.digitChar = true := by decide

theorem digitsValue_map_digitOf (cs : List Char) : digitsValue (cs.map digitOf) = Nat.ofDigitChars 10 cs 0 := by
  rw [digitsValue, List.foldl_map, Nat.ofDigitChars_eq_foldl]
  rfl

theorem digitsValue_decimalDigits (n : Nat) : digitsValue ((decimalDigits n).map digitOf) = n := by
  rw [digitsValue_map_digitOf, decimalDigits]
  exact Nat.ofDigitChars_toDigits (by decide) (by decide)

theorem digitsValue_append_zeros (ds : List Nat) (k : Nat) :
    digitsValue (ds ++ List.replicate k 0) = digitsValue ds * 10 ^ k := by
  induction k with
  | zero => simp
  | succ k ih =>
    rw [List.replicate_succ', ← List.append_assoc, digitsValue_concat, ih, pow_succ]
    ring

theorem digitsValue_zeros_append (k : Nat) (ds : List Nat) :
    digitsValue (List.replicate k 0 ++ ds) = digitsValue ds := by
  induction ds using List.reverseRecOn with
  | nil =>
    have h := digitsValue_append_zeros [] k
    simpa [digitsValue] using h
  | append_singleton ds d ih => rw [← List.append_assoc, digitsValue_concat, ih, digitsValue_concat]

theorem decimalDigits_isDigit (n : Nat) : ∀ c ∈ decimalDigits n, c.isDigit = true :=
  fun _ hc => Nat.isDigit_of_mem_toDigits (by decide) (by decide) hc

/-- A positive number is written without zeros in front. -/
theorem decimalDigits_head {n : Nat} (hn : 0 < n) : ∃ c cs, decimalDigits n = c :: cs ∧ isDigit19 c = true := by
  induction n using Nat.strong_induction_on with
  | _ n ih =>
    unfold decimalDigits
    by_cases h : n < 10
    · exact ⟨_, [], Nat.toDigits_of_lt_base h, isDigit19_digitChar n h hn⟩
    · obtain ⟨c, cs, hcs, hc⟩ := ih (n / 10) (by omega) (by omega)
      rw [decimalDigits] at hcs
      exact ⟨c, _, by rw [Nat.toDigits_of_base_le (by decide) (by omega), hcs, List.cons_append], hc⟩

theorem dropEndZeros_append (cs : List Char) : ∃ k, cs = dropEndZeros cs ++ List.replicate k '0' := by
  induction cs using List.reverseRecOn with
  | nil => exact ⟨0, rfl⟩
  | append_singleton cs c ih =>
    by_cases hc : c = '0'
    · obtain ⟨k, hk⟩ := ih
      have hdrop : dropEndZeros (cs ++ [c]) = dropEndZeros cs := by simp [dropEndZeros, hc]
      refine ⟨k + 1, ?_⟩
      rw [hdrop, List.replicate_succ', ← List.append_assoc, ← hk, hc]
    · have hkeep : dropEndZeros (cs ++ [c]) = cs ++ [c] := by simp [dropEndZeros, hc]
      exact ⟨0, by rw [hkeep, List.replicate_zero, List.append_nil]⟩

/-- Digits that begin with none of the zeros keep their first one. -/
theorem dropEndZeros_cons {c : Char} (cs : List Char) (hc : isDigit19 c = true) :
    ∃ rest k, dropEndZeros (c :: cs) = c :: rest ∧ cs = rest ++ List.replicate k '0' := by
  obtain ⟨k, hk⟩ := dropEndZeros_append (c :: cs)
  cases hd : dropEndZeros (c :: cs) with
  | nil =>
    rw [hd, List.nil_append] at hk
    have hmem : c ∈ List.replicate k '0' := hk ▸ List.mem_cons_self
    rw [List.eq_of_mem_replicate hmem] at hc
    cases hc
  | cons d rest =>
    rw [hd] at hk
    obtain ⟨rfl, hcs⟩ := List.cons.inj hk
    exact ⟨rest, k, rfl, hcs⟩

end Digits

namespace NumberText

def scientific (ds : List Char) (e : Int) : NumberText :=
  ⟨false, ds.take 1, ds.drop 1, some (decide (e < 0), decimalDigits e.natAbs)⟩

def withPoint (ds : List Char) (n : Nat) : NumberText :=
  ⟨false, ds.take n ++ List.replicate (n - ds.length) '0',
    if (ds.drop n).isEmpty then ['0'] else ds.drop n, none⟩

def place (ds : List Char) (e : Int) : NumberText :=
  if e < -5 ∨ 16 ≤ e then scientific ds e
  else if e < 0 then ⟨false, ['0'], List.replicate (-e - 1).toNat '0' ++ ds, none⟩
  else withPoint ds (e + 1).toNat

theorem place_chars {c : Char} (cs : List Char) (e : Int) : (place (c :: cs) e).chars = placeDigits (c :: cs) e := by
  unfold place placeDigits
  by_cases hsci : e < -5 ∨ 16 ≤ e
  · rw [if_pos hsci, if_pos hsci]
    cases cs <;> simp [scientific, AlertRelay.scientific, chars]
  rw [if_neg hsci, if_neg hsci]
  by_cases hbelow : e < 0
  · rw [if_pos hbelow, if_pos hbelow]
    simp [chars]
  rw [if_neg hbelow, if_neg hbelow]
  cases hdrop : (c :: cs).drop (e + 1).toNat <;> simp [withPoint, AlertRelay.withPoint, chars, hdrop]

theorem place_negative (ds : List Char) (e : Int) : (place ds e).negative = false := by
  unfold place
  split
  · rfl
  · split <;> rfl

theorem signed_chars {t : NumberText} (ht : t.negative = false) (negative : Bool) :
    ({ t with negative } : NumberText).chars = if negative then '-' :: t.chars else t.chars := by
  cases negative <;> simp [chars, ht]

theorem place_wellFormed {c : Char} {cs : List Char} (hc : isDigit19 c = true) (hcs : ∀ x ∈ cs, x.isDigit = true)
    (e : Int) : (place (c :: cs) e).WellFormed := by
  have hall : ∀ x ∈ c :: cs, x.isDigit = true := by
    simpa using ⟨isDigit_of_isDigit19 hc, hcs⟩
  unfold place
  by_cases hsci : e < -5 ∨ 16 ≤ e
  · rw [if_pos hsci]
    refine ⟨.inr ⟨c, [], rfl, hc, by simp⟩, by simpa [scientific] using hcs, ?_⟩
    rintro below ds ⟨⟩
    exact ⟨Nat.toDigits_ne_nil, decimalDigits_isDigit _⟩
  rw [if_neg hsci]
  by_cases hbelow : e < 0
  · rw [if_pos hbelow]
    refine ⟨.inl rfl, ?_, fun _ _ h => by cases h⟩
    intro x hx
    rcases List.mem_append.mp hx with hzero | hx
    · rw [List.eq_of_mem_replicate hzero]
      rfl
    · exact hall x hx
  rw [if_neg hbelow]
  obtain ⟨n, hn⟩ : ∃ n, (e + 1).toNat = n + 1 := ⟨e.toNat, by omega⟩
  rw [hn]
  refine ⟨.inr ⟨c, _, rfl, hc, ?_⟩, ?_, fun _ _ h => by cases h⟩
  · intro x hx
    rcases List.mem_append.mp hx with hx | hzero
    · exact hcs x (List.mem_of_mem_take hx)
    · rw [List.eq_of_mem_replicate hzero]
      rfl
  · intro x hx
    simp only [withPoint] at hx
    split at hx
    · rw [List.mem_singleton.mp hx]
      rfl
    · exact hall x (List.mem_of_mem_drop hx)

/-- How digits are placed: zeros are added around them, and only as many behind
them as lead to one place after the point. -/
structure Places (ds : List Char) (e : Int) (t : NumberText) (before after : Nat) : Prop where
  digits : t.whole ++ t.fraction = List.replicate before '0' ++ ds ++ List.replicate after '0'
  place : t.numeral.place = e + 1 - ds.length - after
  after : after = 0 ∨ t.numeral.place = -1
  whole : t.whole.length ≤ 16
  shift : t.numeral.shift.natAbs ≤ e.natAbs
  fractional : t.fraction ≠ [] ∨ t.exponent ≠ none

theorem place_places (c : Char) (cs : List Char) (e : Int) :
    ∃ before after, Places (c :: cs) e (place (c :: cs) e) before after := by
  unfold place
  by_cases hsci : e < -5 ∨ 16 ≤ e
  · rw [if_pos hsci]
    have hshift : (scientific (c :: cs) e).numeral.shift = e := by
      simp only [scientific, numeral, Numeral.shift, Option.map_some, digitsValue_decimalDigits, decide_eq_true_eq]
      omega
    refine ⟨0, 0, by simp [scientific], ?_, .inl rfl, by simp [scientific], by rw [hshift], ?_⟩
    · rw [Numeral.place, hshift]
      simp [scientific, numeral]
    · exact .inr (by simp [scientific])
  rw [if_neg hsci]
  by_cases hbelow : e < 0
  · rw [if_pos hbelow]
    refine ⟨(-e - 1).toNat + 1, 0, ?_, ?_, .inl rfl, by simp, by simp [numeral, Numeral.shift], .inl (by simp)⟩
    · simp [List.replicate_succ]
    · simp [numeral, Numeral.place, Numeral.shift]
      omega
  rw [if_neg hbelow]
  generalize hn : (e + 1).toNat = n
  have he : e + 1 = n := by omega
  have hshift : (withPoint (c :: cs) n).numeral.shift = 0 := rfl
  have hwhole : (withPoint (c :: cs) n).whole.length = n := by
    simp [withPoint]
    omega
  by_cases hlen : (c :: cs).length ≤ n
  · have hdrop : (c :: cs).drop n = [] := List.drop_eq_nil_of_le hlen
    have hplace : (withPoint (c :: cs) n).numeral.place = -1 := by
      rw [Numeral.place, hshift]
      simp [numeral, withPoint, hdrop]
    refine ⟨0, n - (c :: cs).length + 1, ?_, by omega, .inr hplace, by omega, by simp [hshift], .inl ?_⟩
    · simp [withPoint, hdrop, List.take_of_length_le hlen, List.replicate_succ']
    · simp [withPoint, hdrop]
  · have hdrop : ((c :: cs).drop n).isEmpty = false := by
      rw [List.isEmpty_eq_false_iff, ← List.length_pos_iff, List.length_drop]
      omega
    have hzeros : n - (c :: cs).length = 0 := by omega
    refine ⟨0, 0, ?_, ?_, .inl rfl, by omega, by simp [hshift], .inl ?_⟩
    · simp only [withPoint, hdrop, hzeros, Bool.false_eq_true, if_false, List.replicate_zero, List.append_nil,
        List.take_append_drop, List.nil_append]
    · rw [Numeral.place, hshift]
      simp only [numeral, withPoint, hdrop, Bool.false_eq_true, if_false, List.length_map, List.length_drop]
      omega
    · simp only [withPoint, hdrop, Bool.false_eq_true, if_false]
      exact List.isEmpty_eq_false_iff.mp hdrop

section Reading

variable {t : NumberText} {ds : List Char} {e : Int} {before after : Nat}

theorem Places.exact (h : Places ds e t before after) :
    t.numeral.exact = digitsValue (ds.map digitOf) * 10 ^ (e + 1 - ds.length) := by
  have hdigits : t.numeral.whole ++ t.numeral.fraction =
      List.replicate before 0 ++ (ds.map digitOf ++ List.replicate after 0) := by
    have hzero : digitOf '0' = 0 := rfl
    have hmap := congrArg (List.map digitOf) h.digits
    simpa [hzero, numeral] using hmap
  have hexp : e + 1 - (ds.length : Int) = after + t.numeral.place := by
    have hplace := h.place
    omega
  rw [Numeral.exact, hdigits, digitsValue_zeros_append, digitsValue_append_zeros, hexp, zpow_add₀ (by norm_num),
    zpow_natCast]
  push_cast
  ring

theorem WellFormed.isDigit_whole (h : t.WellFormed) : ∀ c ∈ t.whole, c.isDigit = true := by
  rcases h.whole with hzero | ⟨c, cs, hcs, hc, hall⟩
  · rw [hzero]
    exact List.forall_mem_singleton.mpr rfl
  · rw [hcs]
    simpa using ⟨isDigit_of_isDigit19 hc, hall⟩

theorem WellFormed.digits_lt (h : t.WellFormed) : ∀ d ∈ t.numeral.whole, d < 10 := by
  intro d hd
  obtain ⟨c, hc, rfl⟩ := List.mem_map.mp hd
  exact digitOf_lt (h.isDigit_whole c hc)

/-- A number that is read as a double. -/
structure Real (t : NumberText) : Prop where
  wellFormed : t.WellFormed
  fractional : t.fraction ≠ [] ∨ t.exponent ≠ none
  magnitude : t.numeral.magnitude?.isSome = true

theorem Real.value? (h : t.Real) : ∃ x, x.isFinite = true ∧ t.numeral.value? = some (.float x) := by
  have hint : t.numeral.int? = none := by
    rcases h.fractional with hreal | hreal
    · simp [Numeral.int?, numeral, hreal]
    · simp [Numeral.int?, numeral, Option.isNone_iff_eq_none, hreal]
  obtain ⟨y, hy⟩ := Option.isSome_iff_exists.mp h.magnitude
  have hvalue : t.numeral.value? = some (.float (if t.numeral.negative then -y else y)) := by
    rw [Numeral.value?, hint, hy]
    rfl
  exact ⟨_, Numeral.isFinite_of_value? hvalue, hvalue⟩

/-- The sign plays no part in whether a number can be read. -/
theorem Real.signed (h : t.Real) (negative : Bool) : ({ t with negative } : NumberText).Real :=
  ⟨⟨h.wellFormed.whole, h.wellFormed.fraction, h.wellFormed.exponent⟩, h.fractional, h.magnitude⟩

end Reading

end NumberText

end AlertRelay
