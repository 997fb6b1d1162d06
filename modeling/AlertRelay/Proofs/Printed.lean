import AlertRelay.Json.Printing
import AlertRelay.Proofs.FloatText
import AlertRelay.Proofs.Grammar

/-! What is printed follows the grammar, so the scanner reads it back: numbers and strings
from the texts that are written for them, and objects from those of their members. -/

namespace AlertRelay

section Numbers

theorem NumberText.exponentText (t : NumberText) : ExponentText (match t.exponent with
    | none => []
    | some (below, ds) => 'e' :: (if below then '-' else '+') :: ds) t.exponent := by
  cases t.exponent with
  | none => exact .absent
  | some e =>
    obtain ⟨below, ds⟩ := e
    cases below with
    | true => exact .minus rfl ds
    | false => exact .plus rfl ds

theorem NumberText.WellFormed.reads {t : NumberText} (h : t.WellFormed) : Reads t.chars (.number t.numeral) := by
  have hparses := h.parses t.exponentText
  rw [List.append_assoc, List.append_assoc] at hparses
  exact hparses.reads

end Numbers

section Texts

theorem hexDigit?_hexDigit : ∀ n < 16, hexDigit? (hexDigit n) = some n := by decide

/-- Every character is spelled by what it is written as. -/
theorem escapeChar_literal (c : Char) {cs s : List Char} (h : Literal cs s) :
    Literal (escapeChar c ++ cs) (c :: s) := by
  by_cases hquote : c = '"'
  · subst hquote
    exact .escape rfl h
  by_cases hslash : c = '\\'
  · subst hslash
    exact .escape rfl h
  unfold escapeChar
  rw [if_neg hquote, if_neg hslash]
  iterate 5
    split
    · next hc =>
      subst hc
      exact .escape rfl h
  split
  · next hcontrol =>
    -- the code unit is the character itself, since it is no half of a pair
    have hhigh := hexDigit?_hexDigit (c.toNat / 16) (by omega)
    have hlow := hexDigit?_hexDigit (c.toNat % 16) (by omega)
    have hunit := CodeUnit.digits (a := '0') (b := '0') (p := 0) (q := 0) rfl rfl hhigh hlow
    have hvalue : 16 * (16 * (16 * 0 + 0) + c.toNat / 16) + c.toNat % 16 = c.toNat := by omega
    rw [hvalue] at hunit
    have hspelled := Literal.unit hunit (.inl (by omega)) h
    rw [Char.ofNat_toNat] at hspelled
    exact hspelled
  · next hcontrol => exact .plain hquote hslash (Nat.le_of_not_lt hcontrol) h

theorem escapeChars_literal (cs : List Char) : Literal (cs.flatMap escapeChar) cs := by
  induction cs with
  | nil => exact .nil
  | cons c cs ih => exact escapeChar_literal c ih

theorem textChars_closes (s : String) : Closes (textChars s) (.text (some s)) := by
  have hcloses := (escapeChars_literal s.toList).closes
  rw [String.ofList_toList] at hcloses
  exact hcloses

end Texts

section Objects

/-- What the members of an object are read as. -/
abbrev MembersRead : List (String × Json) → List (Option String × Document) → Prop :=
  List.Forall₂ fun m e => e.1 = some m.1 ∧ Reads m.2.chars e.2

/-- A member without blanks. -/
theorem Reads.printed_member {cs : List Char} {d : Document} (h : Reads cs d) (name : String) :
    (Phrase.member name d).Scanned (textChars name ++ ':' :: cs) := by
  have hblank : Blank [] := by decide
  have hmember := h.member hblank (escapeChars_literal name.toList) hblank
  rw [String.ofList_toList] at hmember
  simpa [textChars] using hmember

theorem memberChars_scanned {ms : List (String × Json)} {es : List (Option String × Document)} (h : MembersRead ms es)
    (hne : ms ≠ []) : ∃ ds, es = ds.map (fun m => (some m.1, m.2)) ∧ (Phrase.members ds).Scanned (memberChars ms) := by
  induction h with
  | nil => exact absurd rfl hne
  | @cons m e ms es hm hms ih =>
    obtain ⟨name, v⟩ := m
    obtain ⟨_, d⟩ := e
    obtain ⟨rfl, hread⟩ := hm
    have hmember := hread.printed_member name
    cases hms with
    | nil => exact ⟨[(name, d)], rfl, lastMember_scanned hmember⟩
    | @cons m' e' ms' es' hm' hms' =>
      obtain ⟨ds, hes, hrest⟩ := ih (by simp)
      exact ⟨(name, d) :: ds, by rw [hes]; rfl, members_scanned hmember hrest⟩

theorem object_closes {ms : List (String × Json)} {es : List (Option String × Document)} (h : MembersRead ms es) :
    Closes (Json.object ms).chars (.object es true) := by
  rw [Json.chars]
  by_cases hne : ms = []
  · subst hne
    cases h
    have hblank : Blank [] := by decide
    exact emptyObject_closes hblank
  · obtain ⟨ds, rfl, hscanned⟩ := memberChars_scanned h hne
    exact members_close hscanned

end Objects

end AlertRelay
