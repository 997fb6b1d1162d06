import AlertRelay.Proofs.Utf8

/-! Bytes without a fault are the bytes of a text, so a fault is found exactly where
bytes are not UTF-8. -/

namespace AlertRelay

theorem utf8Lead?_none : ∀ n < 0x100, 0x80 ≤ n ∧ n < 0xc2 ∨ 0xf5 ≤ n → utf8Lead? (UInt8.ofNat n) = none := by
  decide +kernel

section Characters

theorem toNat_ofNat_of_valid {v : Nat} (h : v.isValidChar) : (Char.ofNat v).val.toNat = v := by
  rw [Char.ofNat, dif_pos h]
  rfl

theorem exists_char_one {a : Nat} (ha : a < 0x80) : ∃ c, String.utf8EncodeChar c = [UInt8.ofNat a] := by
  have hvalue := toNat_ofNat_of_valid (v := a) (.inl (by omega))
  refine ⟨Char.ofNat a, ?_⟩
  simp only [String.utf8EncodeChar, hvalue]
  rw [if_pos (by omega)]

theorem exists_char_two {a b : Nat} (ha : 0xc2 ≤ a ∧ a < 0xe0) (hb : 0x80 ≤ b ∧ b ≤ 0xbf) :
    ∃ c, String.utf8EncodeChar c = [UInt8.ofNat a, UInt8.ofNat b] := by
  let v := (a - 0xc0) * 64 + (b - 0x80)
  have hvalue := toNat_ofNat_of_valid (v := v) (.inl (by omega))
  have hfirst : v / 64 % 32 + 192 = a := by omega
  have hlast : v % 64 + 128 = b := by omega
  refine ⟨Char.ofNat v, ?_⟩
  simp only [String.utf8EncodeChar, hvalue]
  rw [if_neg (by omega), if_pos (by omega), hfirst, hlast]

/-- The second byte keeps the value above what two bytes can hold and off the surrogates. -/
theorem exists_char_three {a b c : Nat} (ha : 0xe0 ≤ a ∧ a < 0xf0)
    (hb : (if a = 0xe0 then 0xa0 else 0x80) ≤ b ∧ b ≤ if a = 0xed then 0x9f else 0xbf) (hc : 0x80 ≤ c ∧ c ≤ 0xbf) :
    ∃ x, String.utf8EncodeChar x = [UInt8.ofNat a, UInt8.ofNat b, UInt8.ofNat c] := by
  let v := (a - 0xe0) * 4096 + (b - 0x80) * 64 + (c - 0x80)
  have hb' : 0x80 ≤ b ∧ b ≤ 0xbf := by
    split at hb <;> split at hb <;> omega
  have hlarge : 0x800 ≤ v := by
    by_cases he : a = 0xe0
    · rw [if_pos he] at hb
      omega
    · omega
  have hvalid : v.isValidChar := by
    by_cases he : a = 0xed
    · rw [if_pos he] at hb
      exact .inl (by omega)
    · by_cases hlow : a < 0xed
      · exact .inl (by omega)
      · exact .inr (by omega)
  have hvalue := toNat_ofNat_of_valid hvalid
  have hfirst : v / 4096 % 16 + 224 = a := by omega
  have hsecond : v / 64 % 64 + 128 = b := by omega
  have hlast : v % 64 + 128 = c := by omega
  refine ⟨Char.ofNat v, ?_⟩
  simp only [String.utf8EncodeChar, hvalue]
  rw [if_neg (by omega), if_neg (by omega), if_pos (by omega), hfirst, hsecond, hlast]

/-- The second byte keeps the value above what three bytes can hold and below the end of Unicode. -/
theorem exists_char_four {a b c d : Nat} (ha : 0xf0 ≤ a ∧ a < 0xf5)
    (hb : (if a = 0xf0 then 0x90 else 0x80) ≤ b ∧ b ≤ if a = 0xf4 then 0x8f else 0xbf) (hc : 0x80 ≤ c ∧ c ≤ 0xbf)
    (hd : 0x80 ≤ d ∧ d ≤ 0xbf) :
    ∃ x, String.utf8EncodeChar x = [UInt8.ofNat a, UInt8.ofNat b, UInt8.ofNat c, UInt8.ofNat d] := by
  let v := (a - 0xf0) * 262144 + (b - 0x80) * 4096 + (c - 0x80) * 64 + (d - 0x80)
  have hb' : 0x80 ≤ b ∧ b ≤ 0xbf := by
    split at hb <;> split at hb <;> omega
  have hlarge : 0x10000 ≤ v := by
    by_cases he : a = 0xf0
    · rw [if_pos he] at hb
      omega
    · omega
  have hsmall : v < 0x110000 := by
    by_cases he : a = 0xf4
    · rw [if_pos he] at hb
      omega
    · omega
  have hvalue := toNat_ofNat_of_valid (v := v) (.inr ⟨by omega, hsmall⟩)
  have hfirst : v / 262144 % 8 + 240 = a := by omega
  have hsecond : v / 4096 % 64 + 128 = b := by omega
  have hthird : v / 64 % 64 + 128 = c := by omega
  have hlast : v % 64 + 128 = d := by omega
  refine ⟨Char.ofNat v, ?_⟩
  simp only [String.utf8EncodeChar, hvalue]
  rw [if_neg (by omega), if_neg (by omega), if_neg (by omega), hfirst, hsecond, hthird, hlast]

end Characters

namespace Utf8State

variable {i start : Nat} {low high : UInt8} {bytes : List UInt8} {s' : Utf8State}

/-- While bytes are owed, the next one lies between the bounds. -/
theorem exists_owed {n : Nat} (h : bytes.foldlM step ⟨i, start, n + 1, low, high⟩ = .ok s') (hs' : s'.owed = 0) :
    ∃ b rest, bytes = UInt8.ofNat b :: rest ∧ low.toNat ≤ b ∧ b ≤ high.toNat ∧
      rest.foldlM step ⟨i + 1, start, n, 0x80, 0xbf⟩ = .ok s' := by
  cases bytes with
  | nil =>
    cases h
    cases hs'
  | cons b rest =>
    rw [List.foldlM_cons] at h
    simp only [step] at h
    split at h
    · next hb =>
      simp only [Bool.and_eq_true, decide_eq_true_eq, UInt8.le_iff_toNat_le] at hb
      exact ⟨b.toNat, rest, by simp, hb.1, hb.2, h⟩
    · cases h

/-- Bytes that are owed after the first bounded one have the bounds of all continuations. -/
theorem exists_continuation {n : Nat} (h : bytes.foldlM step ⟨i, start, n + 1, 0x80, 0xbf⟩ = .ok s')
    (hs' : s'.owed = 0) :
    ∃ b rest, bytes = UInt8.ofNat b :: rest ∧ (0x80 ≤ b ∧ b ≤ 0xbf) ∧
      rest.foldlM step ⟨i + 1, start, n, 0x80, 0xbf⟩ = .ok s' := by
  obtain ⟨b, rest, hbytes, hlow, hhigh, hrest⟩ := exists_owed h hs'
  exact ⟨b, rest, hbytes, ⟨hlow, hhigh⟩, hrest⟩

/-- Bytes that are not refused begin with those of a character. -/
theorem exists_character {a : Nat} (ha : a < 0x100)
    (h : (UInt8.ofNat a :: bytes).foldlM step ⟨i, start, 0, low, high⟩ = .ok s') (hs' : s'.owed = 0) :
    ∃ c rest s, UInt8.ofNat a :: bytes = String.utf8EncodeChar c ++ rest ∧ s.owed = 0 ∧
      rest.foldlM step s = .ok s' := by
  rw [List.foldlM_cons] at h
  by_cases hone : a < 0x80
  · rw [step_lead (utf8Lead?_one a hone)] at h
    obtain ⟨c, hc⟩ := exists_char_one hone
    exact ⟨c, bytes, _, by rw [hc]; rfl, rfl, h⟩
  by_cases hnone : a < 0xc2 ∨ 0xf5 ≤ a
  · have hlead := utf8Lead?_none a ha (by omega)
    simp only [step, hlead] at h
    cases h
  by_cases htwo : a < 0xe0
  · have hlead := utf8Lead?_two a htwo (by omega)
    rw [step_lead hlead] at h
    obtain ⟨b, rest, rfl, hb, hrest⟩ := exists_continuation h hs'
    obtain ⟨c, hc⟩ := exists_char_two ⟨by omega, htwo⟩ hb
    exact ⟨c, rest, _, by rw [hc]; rfl, rfl, hrest⟩
  by_cases hthree : a < 0xf0
  · have hlead := utf8Lead?_three a hthree (by omega)
    rw [step_lead hlead] at h
    obtain ⟨b, rest, rfl, hlow, hhigh, h⟩ := exists_owed h hs'
    obtain ⟨d, rest, rfl, hd, hrest⟩ := exists_continuation h hs'
    have hb : (if a = 0xe0 then 0xa0 else 0x80) ≤ b ∧ b ≤ if a = 0xed then 0x9f else 0xbf := by
      rw [apply_ite UInt8.toNat] at hlow hhigh
      exact ⟨hlow, hhigh⟩
    obtain ⟨c, hc⟩ := exists_char_three ⟨by omega, hthree⟩ hb hd
    exact ⟨c, rest, _, by rw [hc]; rfl, rfl, hrest⟩
  · have hlead := utf8Lead?_four a (by omega) (by omega)
    rw [step_lead hlead] at h
    obtain ⟨b, rest, rfl, hlow, hhigh, h⟩ := exists_owed h hs'
    obtain ⟨d, rest, rfl, hd, h⟩ := exists_continuation h hs'
    obtain ⟨e, rest, rfl, he, hrest⟩ := exists_continuation h hs'
    have hb : (if a = 0xf0 then 0x90 else 0x80) ≤ b ∧ b ≤ if a = 0xf4 then 0x8f else 0xbf := by
      rw [apply_ite UInt8.toNat] at hlow hhigh
      exact ⟨hlow, hhigh⟩
    obtain ⟨c, hc⟩ := exists_char_four ⟨by omega, by omega⟩ hb hd he
    exact ⟨c, rest, _, by rw [hc]; rfl, rfl, hrest⟩

theorem exists_characters (s : Utf8State) (hs : s.owed = 0) (h : bytes.foldlM step s = .ok s') (hs' : s'.owed = 0) :
    ∃ cs, bytes = encodeUtf8 cs := by
  induction hn : bytes.length using Nat.strongRecOn generalizing bytes s with
  | ind n ih =>
    cases bytes with
    | nil => exact ⟨[], rfl⟩
    | cons b bytes =>
      obtain ⟨i, start, owed, low, high⟩ := s
      subst hs
      have hb : b = UInt8.ofNat b.toNat := by simp
      rw [hb] at h hn
      obtain ⟨c, rest, s, hc, hs, hrest⟩ := exists_character b.toNat_lt h hs'
      have hlen : rest.length < n := by
        have hpos : 0 < (String.utf8EncodeChar c).length := List.length_pos_iff.mpr String.utf8EncodeChar_ne_nil
        rw [← hn, hc, List.length_append]
        omega
      obtain ⟨cs, rfl⟩ := ih rest.length hlen s hs hrest rfl
      exact ⟨c :: cs, hb ▸ hc⟩

end Utf8State

theorem utf8Fault?_eq_none_iff {bytes : List UInt8} : utf8Fault? bytes = none ↔ ∃ cs, bytes = encodeUtf8 cs := by
  constructor
  · intro h
    unfold utf8Fault? at h
    split at h
    · cases h
    · next s hs =>
      split at h
      · next howed => exact Utf8State.exists_characters _ rfl hs howed
      · cases h
  · rintro ⟨cs, rfl⟩
    exact utf8Fault?_encodeUtf8 cs

section Bytes

variable {body : ByteArray}

theorem exists_text (h : body.IsValidUTF8) : ∃ s : String, body = s.toUTF8 := ⟨String.ofByteArray body h, rfl⟩

theorem isValidUTF8_iff : body.IsValidUTF8 ↔ ∃ cs, body.toList = encodeUtf8 cs := by
  constructor
  · intro h
    obtain ⟨s, rfl⟩ := exists_text h
    exact ⟨s.toList, toUTF8_toList s⟩
  · rintro ⟨cs, hcs⟩
    have hbody : body = (String.ofList cs).toUTF8 := by
      rw [← toList_inj, hcs, toUTF8_toList, String.toList_ofList]
    exact hbody ▸ (String.ofList cs).isValidUTF8

/-- Bytes are refused exactly if there is a fault in them. -/
theorem isValidUTF8_iff_no_fault : body.IsValidUTF8 ↔ utf8Fault? body.toList = none := by
  rw [isValidUTF8_iff, utf8Fault?_eq_none_iff]

end Bytes

end AlertRelay
