import AlertRelay.Proofs.Utf8
import AlertRelay.Text.Lines

/-! The lines of the bytes of a text are the bytes of its lines. -/

namespace AlertRelay

section Cut

variable {α : Type} [DecidableEq α] (mark : α)

theorem cutAfter_cons (x : α) (xs : List α) :
    cutAfter mark (x :: xs) =
      if x = mark then ([] :: (cutAfter mark xs).1, (cutAfter mark xs).2)
      else
        match (cutAfter mark xs).1 with
        | [] => ([], x :: (cutAfter mark xs).2)
        | p :: ps => ((x :: p) :: ps, (cutAfter mark xs).2) := rfl

theorem cutAfter_append_mark (xs ys : List α) :
    cutAfter mark (xs ++ mark :: ys) =
      ((cutAfter mark xs).1 ++ (cutAfter mark xs).2 :: (cutAfter mark ys).1, (cutAfter mark ys).2) := by
  induction xs with
  | nil => exact if_pos rfl
  | cons x xs ih =>
    rw [List.cons_append, cutAfter_cons, ih, cutAfter_cons]
    by_cases hx : x = mark
    · simp [hx]
    · cases (cutAfter mark xs).1 <;> simp [hx]

theorem cutAfter_append_of_not_mem {xs : List α} (h : mark ∉ xs) (hne : xs ≠ []) (ys : List α) :
    cutAfter mark (xs ++ ys) =
      match (cutAfter mark ys).1 with
      | [] => ([], xs ++ (cutAfter mark ys).2)
      | p :: ps => ((xs ++ p) :: ps, (cutAfter mark ys).2) := by
  induction xs with
  | nil => exact absurd rfl hne
  | cons x xs ih =>
    have hx : ¬ x = mark := fun hx => h (hx ▸ List.mem_cons_self)
    rw [List.cons_append, cutAfter_cons, if_neg hx]
    rcases xs with _ | ⟨y, xs⟩
    · rfl
    · rw [ih (fun hm => h (List.mem_cons_of_mem _ hm)) (by simp)]
      cases (cutAfter mark ys).1 <;> rfl

theorem dropMark_append_singleton (xs : List α) (x : α) :
    dropMark mark (xs ++ [x]) = if x = mark then xs else xs ++ [x] := by
  simp [dropMark]

end Cut

theorem utf8EncodeChar_of_lt {c : Char} (h : c.toNat < 0x80) :
    String.utf8EncodeChar c = [UInt8.ofNat c.toNat] :=
  if_pos (Nat.le_of_lt_succ h)

/-- What lies above the first 128 characters has none of their bytes. -/
theorem le_of_mem_utf8EncodeChar {c : Char} (h : ¬ c.toNat < 0x80) {b : UInt8}
    (hb : b ∈ String.utf8EncodeChar c) : 0x80 ≤ b.toNat := by
  have hlarge : ∀ n, 0x80 ≤ n → n < 0x100 → 0x80 ≤ (UInt8.ofNat n).toNat := by
    intro n hn hu
    exact Nat.le_trans hn <| Nat.le_of_eq (UInt8.toNat_ofNat_of_lt hu).symm
  have hv : ¬ c.val.toNat ≤ 127 := fun hv => h (Nat.lt_succ_of_le hv)
  simp only [String.utf8EncodeChar, if_neg hv] at hb
  split at hb
  · simp only [List.mem_cons, List.not_mem_nil, or_false] at hb
    rcases hb with rfl | rfl <;> exact hlarge _ (by omega) (by omega)
  · split at hb
    · simp only [List.mem_cons, List.not_mem_nil, or_false] at hb
      rcases hb with rfl | rfl | rfl <;> exact hlarge _ (by omega) (by omega)
    · simp only [List.mem_cons, List.not_mem_nil, or_false] at hb
      rcases hb with rfl | rfl | rfl | rfl <;> exact hlarge _ (by omega) (by omega)

/-- One of the first 128 characters is found among bytes only as itself. -/
theorem mem_utf8EncodeChar_iff {c mark : Char} (hm : mark.toNat < 0x80) :
    UInt8.ofNat mark.toNat ∈ String.utf8EncodeChar c ↔ c = mark := by
  have hmark : (UInt8.ofNat mark.toNat).toNat = mark.toNat :=
    UInt8.toNat_ofNat_of_lt (Nat.lt_trans hm (by decide))
  constructor
  · intro hb
    by_cases hc : c.toNat < 0x80
    · rw [utf8EncodeChar_of_lt hc, List.mem_singleton] at hb
      have hcb : (UInt8.ofNat c.toNat).toNat = c.toNat :=
        UInt8.toNat_ofNat_of_lt (Nat.lt_trans hc (by decide))
      have hn : mark.toNat = c.toNat := by rw [← hmark, hb, hcb]
      exact Char.toNat_inj.mp hn.symm
    · have hle := le_of_mem_utf8EncodeChar hc hb
      omega
  · rintro rfl
    rw [utf8EncodeChar_of_lt hm]
    exact List.mem_singleton_self _

theorem encodeUtf8_append (xs ys : List Char) : encodeUtf8 (xs ++ ys) = encodeUtf8 xs ++ encodeUtf8 ys :=
  List.flatMap_append

theorem encodeUtf8_isEmpty (cs : List Char) : (encodeUtf8 cs).isEmpty = cs.isEmpty := by
  cases cs with
  | nil => rfl
  | cons c cs =>
    simp [encodeUtf8]

section Marks

variable (mark : Char) (hm : mark.toNat < 0x80)
include hm

theorem cutAfter_encodeUtf8 (cs : List Char) :
    cutAfter (UInt8.ofNat mark.toNat) (encodeUtf8 cs) =
      ((cutAfter mark cs).1.map encodeUtf8, encodeUtf8 (cutAfter mark cs).2) := by
  induction cs with
  | nil => rfl
  | cons c cs ih =>
    rw [encodeUtf8, List.flatMap_cons, ← encodeUtf8, cutAfter_cons]
    by_cases hc : c = mark
    · rw [if_pos hc, hc, utf8EncodeChar_of_lt hm, List.singleton_append, cutAfter_cons, if_pos rfl, ih]
      rfl
    · have hnot : UInt8.ofNat mark.toNat ∉ String.utf8EncodeChar c :=
        fun h => hc ((mem_utf8EncodeChar_iff hm).mp h)
      have hne : String.utf8EncodeChar c ≠ [] := String.utf8EncodeChar_ne_nil
      rw [if_neg hc, cutAfter_append_of_not_mem _ hnot hne, ih]
      cases (cutAfter mark cs).1 <;> rfl

theorem dropMark_encodeUtf8 (cs : List Char) :
    dropMark (UInt8.ofNat mark.toNat) (encodeUtf8 cs) = encodeUtf8 (dropMark mark cs) := by
  rcases cs.eq_nil_or_concat with rfl | ⟨cs, c, rfl⟩
  · rfl
  · rw [List.concat_eq_append, dropMark_append_singleton, encodeUtf8_append]
    by_cases hc : c = mark
    · have hone : encodeUtf8 [c] = [UInt8.ofNat mark.toNat] := by
        rw [hc, encodeUtf8, List.flatMap_singleton, utf8EncodeChar_of_lt hm]
      rw [if_pos hc, hone, dropMark_append_singleton, if_pos rfl]
    · have hne : encodeUtf8 [c] ≠ [] := by simp [encodeUtf8]
      obtain ⟨bs, b, hbs⟩ := (List.eq_nil_or_concat _).resolve_left hne
      have hb : b ≠ UInt8.ofNat mark.toNat := by
        intro hb
        have hmem : b ∈ String.utf8EncodeChar c := by
          rw [← List.flatMap_singleton (f := String.utf8EncodeChar), ← encodeUtf8, hbs]
          simp
        exact hc ((mem_utf8EncodeChar_iff hm).mp (hb ▸ hmem))
      rw [if_neg hc, encodeUtf8_append, hbs, List.concat_eq_append, ← List.append_assoc,
        dropMark_append_singleton, if_neg hb]

end Marks

/-- The lines of characters, without what ends them. -/
def charLines (cs : List Char) : List (List Char) :=
  let (lines, rest) := cutAfter '\n' cs
  lines.map (dropMark '\r') ++ if rest.isEmpty then [] else [rest]

def textLines (s : String) : List String := (charLines s.toList).map String.ofList

theorem cutLines_encodeUtf8 (cs : List Char) : cutLines (encodeUtf8 cs) = (charLines cs).map encodeUtf8 := by
  have hfeed : cutAfter 10 (encodeUtf8 cs) = _ := cutAfter_encodeUtf8 '\n' (by decide) cs
  have hreturn : dropMark 13 ∘ encodeUtf8 = encodeUtf8 ∘ dropMark '\r' :=
    funext (dropMark_encodeUtf8 '\r' (by decide))
  simp only [cutLines, charLines, hfeed, encodeUtf8_isEmpty, List.map_map, List.map_append, hreturn]
  split <;> rfl

theorem byteLines_toUTF8 (s : String) : byteLines s.toUTF8 = (textLines s, none) := by
  rw [byteLines, toUTF8_toList, cutLines_encodeUtf8, textLines]
  generalize charLines s.toList = lines
  induction lines with
  | nil => rfl
  | cons line lines ih =>
    rw [List.map_cons, List.map_cons, List.foldr_cons, ih, decodeUtf8_encodeUtf8]

/-- What follows a line break is cut into lines by itself. -/
theorem textLines_append (s t : String) :
    textLines (s ++ "\n" ++ t) = textLines (s ++ "\n") ++ textLines t := by
  have hboth : (s ++ "\n" ++ t).toList = s.toList ++ '\n' :: t.toList := by simp
  have hfirst : (s ++ "\n").toList = s.toList ++ '\n' :: [] := by simp
  have hnil : cutAfter '\n' ([] : List Char) = ([], []) := rfl
  rw [textLines, textLines, textLines, hboth, hfirst]
  simp [charLines, cutAfter_append_mark, hnil]

end AlertRelay
