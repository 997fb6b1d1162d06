import AlertRelay.Text.Encoding

/-! The bytes of a text have no fault and are decoded to the text again. -/

namespace AlertRelay

theorem toList_loop_eq (bytes : ByteArray) (i : Nat) (out : List UInt8) :
    ByteArray.toList.loop bytes i out = out.reverse ++ bytes.data.toList.drop i := by
  fun_induction ByteArray.toList.loop bytes i out with
  | case1 i out h ih =>
    have hi : i < bytes.data.toList.length := by simpa using h
    rw [ih, List.drop_eq_getElem_cons hi]
    simp [ByteArray.get!, h]
  | case2 i out h =>
    have hi : bytes.data.toList.length ≤ i := by simpa using h
    rw [List.drop_eq_nil_of_le hi, List.append_nil]

theorem toList_eq_data (bytes : ByteArray) : bytes.toList = bytes.data.toList := by
  simp [ByteArray.toList, toList_loop_eq]

theorem toList_toByteArray (bytes : List UInt8) : bytes.toByteArray.toList = bytes := by
  simp [toList_eq_data]

theorem toList_inj {a b : ByteArray} : a.toList = b.toList ↔ a = b := by
  rw [toList_eq_data, toList_eq_data, Array.toList_inj, ByteArray.ext_iff]

theorem toList_append (a b : ByteArray) : (a ++ b).toList = a.toList ++ b.toList := by
  simp [toList_eq_data]

/-- The bytes of characters in UTF-8. -/
def encodeUtf8 (cs : List Char) : List UInt8 := cs.flatMap String.utf8EncodeChar

theorem toUTF8_toList (s : String) : s.toUTF8.toList = encodeUtf8 s.toList := by
  obtain ⟨cs, rfl⟩ := s.exists_eq_ofList
  rw [String.toUTF8_eq_toByteArray, String.toByteArray_ofList, String.toList_ofList]
  exact toList_toByteArray _

theorem utf8Lead?_one : ∀ n < 0x80, utf8Lead? (UInt8.ofNat n) = some (0, 0, 0) := by
  decide +kernel

theorem utf8Lead?_two : ∀ n < 0xe0, 0xc2 ≤ n → utf8Lead? (UInt8.ofNat n) = some (1, 0x80, 0xbf) := by
  decide +kernel

theorem utf8Lead?_three : ∀ n < 0xf0, 0xe0 ≤ n → utf8Lead? (UInt8.ofNat n) =
    some (2, if n = 0xe0 then 0xa0 else 0x80, if n = 0xed then 0x9f else 0xbf) := by
  decide +kernel

theorem utf8Lead?_four : ∀ n < 0xf5, 0xf0 ≤ n → utf8Lead? (UInt8.ofNat n) =
    some (3, if n = 0xf0 then 0x90 else 0x80, if n = 0xf4 then 0x8f else 0xbf) := by
  decide +kernel

namespace Utf8State

variable {i start : Nat} {low high : UInt8}

theorem step_lead {n m : Nat} {low' high' : UInt8} (h : utf8Lead? (UInt8.ofNat n) = some (m, low', high')) :
    step ⟨i, start, 0, low, high⟩ (UInt8.ofNat n) = .ok ⟨i + 1, i, m, low', high'⟩ := by
  simp only [step, h]

theorem step_continue {n k : Nat} (hlow : low.toNat ≤ k) (hhigh : k ≤ high.toNat) :
    step ⟨i, start, n + 1, low, high⟩ (UInt8.ofNat k) = .ok ⟨i + 1, start, n, 0x80, 0xbf⟩ := by
  have hk : k < 256 := Nat.lt_of_le_of_lt hhigh high.toNat_lt
  have hb : (UInt8.ofNat k).toNat = k := UInt8.toNat_ofNat_of_lt hk
  simp [step, UInt8.le_iff_toNat_le, hb, hlow, hhigh]

/-- After its first byte a character ends with bytes that hold six bits each. -/
theorem foldlM_continue (vs : List Nat) :
    (vs.map fun v => UInt8.ofNat (v % 64 + 128)).foldlM step ⟨i, start, vs.length, 0x80, 0xbf⟩ =
      .ok ⟨i + vs.length, start, 0, 0x80, 0xbf⟩ := by
  induction vs generalizing i with
  | nil => rfl
  | cons v vs ih =>
    have hv : 128 ≤ v % 64 + 128 ∧ v % 64 + 128 ≤ 191 := by omega
    rw [List.map_cons, List.foldlM_cons, List.length_cons, step_continue hv.1 hv.2]
    refine ih.trans ?_
    rw [Nat.add_assoc, Nat.add_comm 1]

theorem foldlM_character {n k : Nat} {low' high' : UInt8} (vs : List Nat)
    (h : utf8Lead? (UInt8.ofNat n) = some (vs.length + 1, low', high'))
    (hlow : low'.toNat ≤ k) (hhigh : k ≤ high'.toNat) :
    (UInt8.ofNat n :: UInt8.ofNat k :: vs.map fun v => UInt8.ofNat (v % 64 + 128)).foldlM step
      ⟨i, start, 0, low, high⟩ = .ok ⟨i + 1 + 1 + vs.length, i, 0, 0x80, 0xbf⟩ := by
  rw [List.foldlM_cons, step_lead h]
  show List.foldlM step _ (_ :: _) = _
  rw [List.foldlM_cons, step_continue hlow hhigh]
  exact foldlM_continue vs

-- The bounds after a first byte keep out what is encoded too long, the surrogates
-- and what lies above the last character; no character is any of these.
theorem foldlM_utf8EncodeChar (c : Char) (s : Utf8State) (hs : s.owed = 0) :
    ∃ s', (String.utf8EncodeChar c).foldlM step s = .ok s' ∧ s'.owed = 0 := by
  obtain ⟨i, start, owed, low, high⟩ := s
  subst hs
  have hc : c.val.toNat < 0xd800 ∨ 0xdfff < c.val.toNat ∧ c.val.toNat < 0x110000 := c.valid
  simp only [String.utf8EncodeChar]
  generalize c.val.toNat = v at hc
  split
  case isTrue hv =>
    have hlead := utf8Lead?_one v (by omega)
    refine ⟨⟨i + 1, i, 0, 0, 0⟩, ?_, rfl⟩
    rw [List.foldlM_cons, step_lead hlead]
    rfl
  case isFalse h1 =>
    split
    case isTrue hv =>
      have hlead := utf8Lead?_two (v / 64 % 32 + 192) (by omega) (by omega)
      exact ⟨_, foldlM_character [] hlead (show 128 ≤ _ by omega) (show _ ≤ 191 by omega), rfl⟩
    case isFalse h2 =>
      split
      case isTrue hv =>
        have hlead := utf8Lead?_three (v / 4096 % 16 + 224) (by omega) (by omega)
        refine ⟨_, foldlM_character [v] hlead ?_ ?_, rfl⟩
        · split <;> simp <;> omega
        · split <;> simp <;> omega
      case isFalse h3 =>
        have hlead := utf8Lead?_four (v / 262144 % 8 + 240) (by omega) (by omega)
        refine ⟨_, foldlM_character [v / 64, v] hlead ?_ ?_, rfl⟩
        · split <;> simp <;> omega
        · split <;> simp <;> omega

theorem foldlM_encodeUtf8 (cs : List Char) (s : Utf8State) (hs : s.owed = 0) :
    ∃ s', (encodeUtf8 cs).foldlM step s = .ok s' ∧ s'.owed = 0 := by
  induction cs generalizing s with
  | nil => exact ⟨s, rfl, hs⟩
  | cons c cs ih =>
    obtain ⟨s₁, hc, hs₁⟩ := foldlM_utf8EncodeChar c s hs
    obtain ⟨s₂, hcs, hs₂⟩ := ih s₁ hs₁
    refine ⟨s₂, ?_, hs₂⟩
    rw [encodeUtf8, List.flatMap_cons, List.foldlM_append, hc]
    exact hcs

end Utf8State

theorem utf8Text_encodeUtf8 (cs : List Char) : utf8Text (encodeUtf8 cs) = String.ofList cs := by
  have hbytes : (⟨(encodeUtf8 cs).toArray⟩ : ByteArray) = cs.utf8Encode := by
    ext1
    simp [List.utf8Encode, encodeUtf8]
  have hvalid : cs.utf8Encode.IsValidUTF8 := ByteArray.isValidUTF8_utf8Encode
  rw [utf8Text, hbytes, String.fromUTF8?, dif_pos hvalid, Option.getD_some]
  exact String.toByteArray_inj.mp String.toByteArray_ofList.symm

theorem fromUTF8?_toUTF8 (s : String) : String.fromUTF8? s.toUTF8 = some s := dif_pos s.isValidUTF8

theorem utf8Fault?_encodeUtf8 (cs : List Char) : utf8Fault? (encodeUtf8 cs) = none := by
  obtain ⟨s, hrun, hs⟩ := Utf8State.foldlM_encodeUtf8 cs ⟨0, 0, 0, 0, 0⟩ rfl
  rw [utf8Fault?, hrun]
  exact if_pos hs

theorem decodeUtf8_encodeUtf8 (cs : List Char) : decodeUtf8 (encodeUtf8 cs) = .ok (String.ofList cs) := by
  rw [decodeUtf8, utf8Fault?_encodeUtf8, utf8Text_encodeUtf8]

end AlertRelay
