import AlertRelay.Alert.Wire
import AlertRelay.Proofs.FloatText
import AlertRelay.Proofs.LineReading

/-! The output of alerts, with a line feed after each. What is printed for a JSON value has no
control characters, whatever its strings hold, so a line feed in the output always ends an alert. -/

namespace AlertRelay

/-- No character lies below the space. -/
def Visible (cs : List Char) : Prop := ∀ c ∈ cs, 0x20 ≤ c.toNat

instance (cs : List Char) : Decidable (Visible cs) := List.decidableBAll _ cs

section Characters

variable {c : Char} {cs ds : List Char}

@[simp] theorem visible_nil : Visible [] := by decide

@[simp] theorem visible_cons : Visible (c :: cs) ↔ 0x20 ≤ c.toNat ∧ Visible cs := List.forall_mem_cons

@[simp] theorem visible_append : Visible (cs ++ ds) ↔ Visible cs ∧ Visible ds := List.forall_mem_append

theorem visible_of_isDigit (h : ∀ c ∈ cs, c.isDigit = true) : Visible cs := by
  intro c hc
  have hdigit := Char.isDigit_iff_toNat.mp (h c hc)
  have hzero : '0'.toNat = 48 := rfl
  omega

theorem hexDigit_visible : ∀ n < 16, 0x20 ≤ (hexDigit n).toNat := by decide

theorem escapeChar_visible (c : Char) : Visible (escapeChar c) := by
  unfold escapeChar
  iterate 7
    split
    · decide
  split
  · next hcontrol =>
    have hhigh : 0x20 ≤ (hexDigit (c.toNat / 16)).toNat := hexDigit_visible _ (by omega)
    have hlow : 0x20 ≤ (hexDigit (c.toNat % 16)).toNat := hexDigit_visible _ (by omega)
    simp [hhigh, hlow]
  · next hcontrol =>
    -- every character that is not escaped is one from the space on
    have hspace : 0x20 ≤ c.toNat := Nat.le_of_not_lt hcontrol
    simp [hspace]

theorem textChars_visible (s : String) : Visible (textChars s) := by
  have hinside : Visible (s.toList.flatMap escapeChar) := by
    intro x hx
    obtain ⟨c, -, hc⟩ := List.mem_flatMap.mp hx
    exact escapeChar_visible c x hc
  simp [textChars, hinside]

theorem intChars_visible (n : Int) : Visible (intChars n) := by
  have hdigits : Visible (decimalDigits n.natAbs) := visible_of_isDigit (decimalDigits_isDigit _)
  unfold intChars
  by_cases hn : n < 0
  · simp [hn, hdigits]
  · simp [hn, hdigits]

theorem NumberText.WellFormed.visible {t : NumberText} (h : t.WellFormed) : Visible t.chars := by
  have hwhole : Visible t.whole := visible_of_isDigit h.isDigit_whole
  have hsign : Visible (if t.negative then ['-'] else []) := by
    cases t.negative <;> decide
  have hfraction : Visible (if t.fraction.isEmpty then [] else '.' :: t.fraction) := by
    cases t.fraction.isEmpty with
    | true => simp
    | false => simp [visible_of_isDigit h.fraction]
  unfold chars
  cases he : t.exponent with
  | none =>
    simp only [visible_append]
    exact ⟨hsign, hwhole, hfraction, visible_nil⟩
  | some e =>
    obtain ⟨below, ds⟩ := e
    have hds : Visible ds := visible_of_isDigit (h.exponent below ds he).2
    have hmark : 0x20 ≤ (if below then '-' else '+').toNat := by
      cases below <;> decide
    simp only [visible_append, visible_cons]
    exact ⟨hsign, hwhole, hfraction, by decide, hmark, hds⟩

theorem numberChars_visible (x : Float) : Visible (numberChars x) := by
  unfold numberChars
  by_cases hx : x.isFinite = true
  · obtain ⟨t, ht, hchars⟩ := floatChars_real hx
    rw [if_pos hx, hchars]
    exact ht.wellFormed.visible
  · rw [if_neg hx]
    decide

end Characters

section Values

mutual

theorem Json.chars_visible : ∀ v : Json, Visible v.chars
  | .null => by simp [Json.chars]
  | .bool true => by simp [Json.chars]
  | .bool false => by simp [Json.chars]
  | .int n => by simp [Json.chars, intChars_visible n]
  | .float x => by simp [Json.chars, numberChars_visible x]
  | .text s => by simp [Json.chars, textChars_visible s]
  | .array items => by simp [Json.chars, itemChars_visible items]
  | .object members => by simp [Json.chars, memberChars_visible members]

theorem itemChars_visible : ∀ items : List Json, Visible (itemChars items)
  | [] => by simp [itemChars]
  | [v] => by simp [itemChars, v.chars_visible]
  | v :: w :: rest => by simp [itemChars, v.chars_visible, itemChars_visible (w :: rest)]

theorem memberChars_visible : ∀ members : List (String × Json), Visible (memberChars members)
  | [] => by simp [memberChars]
  | [(name, v)] => by simp [memberChars, textChars_visible name, v.chars_visible]
  | (name, v) :: w :: rest => by
    simp [memberChars, textChars_visible name, v.chars_visible, memberChars_visible (w :: rest)]

end

end Values

section Bytes

/-- Control characters are the only ones that have the bytes of control characters. -/
theorem Visible.le_of_mem_encodeUtf8 {cs : List Char} (h : Visible cs) : ∀ b ∈ encodeUtf8 cs, 0x20 ≤ b := by
  intro b hb
  obtain ⟨c, hc, hbyte⟩ := List.mem_flatMap.mp hb
  have hspace : (0x20 : UInt8).toNat = 0x20 := rfl
  rw [UInt8.le_iff_toNat_le, hspace]
  by_cases hascii : c.toNat < 0x80
  · rw [utf8EncodeChar_of_lt hascii, List.mem_singleton] at hbyte
    have hvalue : b.toNat = c.toNat := by
      rw [hbyte]
      exact UInt8.toNat_ofNat_of_lt (Nat.lt_trans hascii (by decide))
    have hvisible := h c hc
    omega
  · have hlarge := le_of_mem_utf8EncodeChar hascii hbyte
    omega

theorem Alert.wire_toList (a : Alert) : a.wire.toUTF8.toList = encodeUtf8 a.toJson.chars := by
  rw [toUTF8_toList, wire, Json.print, String.toList_ofList]

theorem Alert.wire_visible (a : Alert) : ∀ b ∈ a.wire.toUTF8.toList, 0x20 ≤ b := by
  rw [a.wire_toList]
  exact a.toJson.chars_visible.le_of_mem_encodeUtf8

theorem Alert.wire_ne_nil (a : Alert) : a.wire.toUTF8.toList ≠ [] := by
  have hchars : a.toJson.chars.isEmpty = false := by
    rw [toJson, Json.chars]
    rfl
  rw [a.wire_toList, ← List.isEmpty_eq_false_iff, encodeUtf8_isEmpty]
  exact hchars

theorem frameLines_toList (lines : List ByteArray) :
    (frameLines lines).toList = lines.flatMap fun line => line.toList ++ [10] := by
  have hfold : ∀ out : ByteArray, (lines.foldl (fun out line => (out ++ line).push 10) out).toList =
      out.toList ++ lines.flatMap fun line => line.toList ++ [10] := by
    induction lines with
    | nil => simp
    | cons line lines ih =>
      intro out
      rw [List.foldl_cons, ih]
      simp [toList_eq_data]
  rw [frameLines, hfold, toList_eq_data]
  rfl

/-- Lines without line feeds are what the output of all of them is cut into; nothing follows the last. -/
theorem splitOn_frameLines {lines : List ByteArray} (h : ∀ line ∈ lines, 10 ∉ line.toList) :
    (frameLines lines).toList.splitOn 10 = lines.map ByteArray.toList ++ [[]] := by
  rw [frameLines_toList]
  induction lines with
  | nil => rfl
  | cons line lines ih =>
    obtain ⟨hline, hlines⟩ := List.forall_mem_cons.mp h
    rw [List.flatMap_cons, List.append_assoc, List.singleton_append,
      List.splitOn_append_cons_self_of_not_mem hline, ih hlines]
    rfl

/-- The output for alerts is cut at its line feeds into their wires. No wire is empty or has a
control character, whatever the strings of the alerts hold. -/
theorem Alert.framed_wires_split (alerts : List Alert) :
    (frameLines (alerts.map fun a => a.wire.toUTF8)).toList.splitOn 10 =
      (alerts.map fun a => a.wire.toUTF8.toList) ++ [[]] ∧
    ∀ a ∈ alerts, a.wire.toUTF8.toList ≠ [] ∧ ∀ b ∈ a.wire.toUTF8.toList, 0x20 ≤ b := by
  have hplain : ∀ line ∈ alerts.map fun a => a.wire.toUTF8, 10 ∉ line.toList := by
    intro line hline hfeed
    obtain ⟨a, -, rfl⟩ := List.mem_map.mp hline
    exact absurd (a.wire_visible 10 hfeed) (by decide)
  constructor
  · rw [splitOn_frameLines hplain, List.map_map]
    rfl
  · intro a _
    exact ⟨a.wire_ne_nil, a.wire_visible⟩

/-- A release name that ends a line and begins an alert of its own, and an empty repository name. -/
theorem Alert.framed_wires_split_forged :
    let forged := Alert.newRelease "repo" "1.0\"\x7d\r\n\x7b\"alert_code\":" "\x00\x1f\x7f\u2028" 1.5e3 "p\n" "o\t"
    let other := Alert.pageInaccessible "" 0 "" "\n"
    (frameLines [forged.wire.toUTF8, other.wire.toUTF8]).toList.splitOn 10 =
      [forged.wire.toUTF8.toList, other.wire.toUTF8.toList, []] ∧
    forged ∈ [forged, other] ∧ forged.wire.toUTF8.toList ≠ [] ∧ ∀ b ∈ forged.wire.toUTF8.toList, 0x20 ≤ b := by
  intro forged other
  obtain ⟨hsplit, hwires⟩ := Alert.framed_wires_split [forged, other]
  have hmem : forged ∈ [forged, other] := List.mem_cons_self
  exact ⟨hsplit, hmem, hwires forged hmem⟩

end Bytes

end AlertRelay
