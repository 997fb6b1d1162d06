import AlertRelay.Proofs.Endings
import AlertRelay.Proofs.Utf8Faults

/-! Reading bytes one by one. A byte that belongs to no character ends the JSON or spoils the
literal it stands in, and a document with a spoiled literal has no value, so scanning the bytes
gives the same value as decoding them first. -/

namespace AlertRelay

/-- The value of bytes that are scanned without being decoded first. -/
def scannedValue? (body : ByteArray) : Option Json :=
  match scanBytes body with
  | (d, true) => d.value?
  | (_, false) => none

section Faults

/-- A document without a value, however deep it stands. -/
def Document.Faulty (d : Document) : Prop := ∀ depth, d.valueWithin depth = none

/-- A member without a value. -/
def MemberFaulty (m : Option String × Document) : Prop := m.1 = none ∨ m.2.Faulty

theorem itemValues_of_faulty {items : List Document} (h : ∃ d ∈ items, d.Faulty) (depth : Nat) :
    itemValues items depth = none := by
  induction items with
  | nil => simp at h
  | cons d items ih =>
    unfold itemValues
    split
    · rfl
    · next v hv =>
      have hrest : ∃ d ∈ items, d.Faulty := by
        obtain ⟨e, he, hfaulty⟩ := h
        rcases List.mem_cons.mp he with rfl | he
        · rw [hfaulty depth] at hv
          cases hv
        · exact ⟨e, he, hfaulty⟩
      rw [ih hrest]
      rfl

theorem memberValues_of_faulty {members : List (Option String × Document)} (h : ∃ m ∈ members, MemberFaulty m)
    (depth : Nat) : memberValues members depth = none := by
  induction members with
  | nil => simp at h
  | cons m members ih =>
    obtain ⟨name, d⟩ := m
    unfold memberValues
    split
    · next n v hv =>
      have hrest : ∃ m ∈ members, MemberFaulty m := by
        obtain ⟨m, hm, hfaulty⟩ := h
        rcases List.mem_cons.mp hm with rfl | hm
        · rcases hfaulty with hname | hd
          · cases hname
          · rw [hd depth] at hv
            cases hv
        · exact ⟨m, hm, hfaulty⟩
      rw [ih hrest]
      rfl
    · rfl

theorem text_faulty : (Document.text none).Faulty := fun _ => rfl

theorem array_faulty {items : List Document} {closed : Bool} (h : ∃ d ∈ items, d.Faulty) :
    (Document.array items closed).Faulty := by
  intro depth
  cases depth with
  | zero => rfl
  | succ depth => cases closed <;> simp [Document.valueWithin, itemValues_of_faulty h]

theorem object_faulty {members : List (Option String × Document)} {closed : Bool}
    (h : ∃ m ∈ members, MemberFaulty m) : (Document.object members closed).Faulty := by
  intro depth
  cases depth with
  | zero => rfl
  | succ depth => cases closed <;> simp [Document.valueWithin, memberValues_of_faulty h]

theorem text?_of_not_valid {s : Spelling} (h : s.valid = false) : s.text? = none := by
  simp [Spelling.text?, h]

end Faults

section Spoiled

variable {frames : List Frame} {s : Scan}

/-- A container that has no value, however it goes on. -/
def Frame.Faulty : Frame → Prop
  | .array items => ∃ d ∈ items, d.Faulty
  | .object members name => name = some none ∨ ∃ m ∈ members, MemberFaulty m

/-- A scan that does not come to a value. -/
def Scan.Spoiled (s : Scan) : Prop :=
  match s.mode with
  | .failed _ => True
  | .done root => root.Faulty
  | .text _ sp _ => sp.valid = false ∨ ∃ f ∈ s.frames, f.Faulty
  | _ => ∃ f ∈ s.frames, f.Faulty

theorem fail_spoiled (frames : List Frame) : (Scan.fail frames).Spoiled := trivial

theorem deliver_spoiled {d : Document} (h : d.Faulty ∨ ∃ f ∈ frames, f.Faulty) :
    (Scan.deliver frames d).Spoiled := by
  unfold Scan.deliver
  split
  · rcases h with hd | ⟨f, hf, -⟩
    · exact hd
    · cases hf
  · next items rest =>
    rcases h with hd | ⟨f, hf, hfaulty⟩
    · exact ⟨_, List.mem_cons_self, d, List.mem_cons_self, hd⟩
    rcases List.mem_cons.mp hf with rfl | hf
    · obtain ⟨e, he, hfaulty⟩ := hfaulty
      exact ⟨_, List.mem_cons_self, e, List.mem_cons_of_mem _ he, hfaulty⟩
    · exact ⟨f, List.mem_cons_of_mem _ hf, hfaulty⟩
  · next members name rest =>
    rcases h with hd | ⟨f, hf, hfaulty⟩
    · exact ⟨_, List.mem_cons_self, .inr ⟨(name, d), List.mem_cons_self, .inr hd⟩⟩
    rcases List.mem_cons.mp hf with rfl | hf
    · rcases hfaulty with hname | ⟨m, hm, hfaulty⟩
      · exact ⟨_, List.mem_cons_self, .inr ⟨(name, d), List.mem_cons_self, .inl (Option.some.inj hname)⟩⟩
      · exact ⟨_, List.mem_cons_self, .inr ⟨m, List.mem_cons_of_mem _ hm, hfaulty⟩⟩
    · exact ⟨f, List.mem_cons_of_mem _ hf, hfaulty⟩
  · exact fail_spoiled _

theorem close_spoiled (h : ∃ f ∈ frames, f.Faulty) (c : Char) : (Scan.close frames c).Spoiled := by
  obtain ⟨f, hf, hfaulty⟩ := h
  unfold Scan.close
  split
  · next items rest =>
    split
    · rcases List.mem_cons.mp hf with rfl | hf
      · obtain ⟨d, hd, hfaulty⟩ := hfaulty
        exact deliver_spoiled (.inl (array_faulty ⟨d, List.mem_reverse.mpr hd, hfaulty⟩))
      · exact deliver_spoiled (.inr ⟨f, hf, hfaulty⟩)
    · exact fail_spoiled _
  · next members rest =>
    split
    · rcases List.mem_cons.mp hf with rfl | hf
      · obtain ⟨m, hm, hfaulty⟩ := hfaulty.resolve_left (by simp)
        exact deliver_spoiled (.inl (object_faulty ⟨m, List.mem_reverse.mpr hm, hfaulty⟩))
      · exact deliver_spoiled (.inr ⟨f, hf, hfaulty⟩)
    · exact fail_spoiled _
  · exact fail_spoiled _

theorem afterValue_spoiled (h : ∃ f ∈ frames, f.Faulty) (c : Char) : (Scan.afterValue frames c).Spoiled := by
  unfold Scan.afterValue
  split
  · exact h
  split
  · split
    · exact h
    · exact h
  · exact close_spoiled h c

theorem afterRoot_spoiled {root : Document} (h : root.Faulty) (c : Char) : (Scan.afterRoot root c).Spoiled := by
  unfold Scan.afterRoot
  split
  · exact h
  · trivial

theorem beginValue_spoiled (h : ∃ f ∈ frames, f.Faulty) (closable : Bool) (c : Char) :
    (Scan.beginValue frames closable c).Spoiled := by
  have hpushed : ∀ top : Frame, ∃ f ∈ top :: frames, f.Faulty := by
    intro top
    obtain ⟨f, hf, hfaulty⟩ := h
    exact ⟨f, List.mem_cons_of_mem _ hf, hfaulty⟩
  apply beginValue_cases
  case blank => exact h
  case array => exact hpushed _
  case object => exact hpushed _
  case text => exact .inr h
  case number => exact fun _ _ => h
  case word => exact fun _ _ _ => h
  case close => exact close_spoiled h c
  case fail => exact fail_spoiled frames

theorem beginName_spoiled (h : ∃ f ∈ frames, f.Faulty) (closable : Bool) (c : Char) :
    (Scan.beginName frames closable c).Spoiled := by
  unfold Scan.beginName
  split
  · exact h
  split
  · exact .inr h
  split
  · exact close_spoiled h c
  · exact fail_spoiled _

/-- A spoiled literal is a name or a text that is none. -/
theorem endText_spoiled {isName : Bool} {sp : Spelling} (hfree : isName = true → NameFree frames)
    (h : sp.valid = false ∨ ∃ f ∈ frames, f.Faulty) : (Scan.endText frames isName sp).Spoiled := by
  unfold Scan.endText
  split
  · next hname =>
    split
    · next members name rest =>
      rcases h with hsp | ⟨f, hf, hfaulty⟩
      · exact ⟨_, List.mem_cons_self, .inl (by rw [text?_of_not_valid hsp])⟩
      rcases List.mem_cons.mp hf with rfl | hf
      · -- no name is waiting, so the fault is one of the members
        have hnone : name = none := by
          cases name with
          | none => rfl
          | some name => exact (hfree hname).elim
        obtain ⟨m, hm, hfaulty⟩ := hfaulty.resolve_left (by simp [hnone])
        exact ⟨_, List.mem_cons_self, .inr ⟨m, hm, hfaulty⟩⟩
      · exact ⟨f, List.mem_cons_of_mem _ hf, hfaulty⟩
    · exact fail_spoiled _
  · refine deliver_spoiled (h.imp_left fun hsp => ?_)
    rw [text?_of_not_valid hsp]
    exact text_faulty

theorem push_valid {sp : Spelling} (h : sp.valid = false) (c : Char) : (sp.push c).valid = false := by
  simp [Spelling.push, h]

theorem pushUnit_valid {sp : Spelling} (h : sp.valid = false) (u : Nat) : (sp.pushUnit u).valid = false := by
  unfold Spelling.pushUnit
  split
  · split
    · exact h
    · rfl
  · split
    · exact h
    split
    · rfl
    · exact push_valid h _

theorem textStep_spoiled {isName : Bool} {sp : Spelling} (hfree : isName = true → NameFree frames)
    (h : sp.valid = false ∨ ∃ f ∈ frames, f.Faulty) (c : Char) (e : EscapePhase) :
    (Scan.textStep frames isName sp c e).Spoiled := by
  unfold Scan.textStep
  cases e with
  | plain =>
    simp only
    split
    · exact endText_spoiled hfree h
    split
    · exact h
    split
    · exact fail_spoiled _
    · exact h.imp_left fun hsp => push_valid hsp c
  | backslash =>
    simp only
    split
    · exact h
    split
    · exact h.imp_left fun hsp => push_valid hsp _
    · exact fail_spoiled _
  | unit count value =>
    simp only
    split
    · exact fail_spoiled _
    split
    · exact h
    · exact h.imp_left fun hsp => pushUnit_valid hsp _

theorem wordStep_spoiled (h : ∃ f ∈ frames, f.Faulty) (rest : List Char) (d : Document) (c : Char) :
    (Scan.wordStep frames rest d c).Spoiled := by
  cases rest with
  | nil => exact fail_spoiled _
  | cons x more =>
    unfold Scan.wordStep
    simp only
    split
    · split
      · exact deliver_spoiled (.inr h)
      · exact h
    · exact fail_spoiled _

theorem follow_spoiled (hframes : Awaiting frames) (h : ∃ f ∈ frames, f.Faulty) (d : Document) (c : Char) :
    ((Scan.deliver frames d).follow c).Spoiled := by
  have hdelivered : (Scan.deliver frames d).Spoiled := deliver_spoiled (.inr h)
  cases frames with
  | nil => simp at h
  | cons f rest =>
    cases f with
    | array items => exact afterValue_spoiled hdelivered c
    | object members name =>
      cases name with
      | none => exact hframes.elim
      | some name => exact afterValue_spoiled hdelivered c

theorem step_spoiled (ho : s.Orderly) (h : s.Spoiled) (c : Char) : (s.step c).Spoiled := by
  obtain ⟨frames, mode⟩ := s
  cases mode with
  | value closable => exact beginValue_spoiled h _ _
  | name closable => exact beginName_spoiled h _ _
  | colon =>
    unfold Scan.step
    simp only
    split
    · exact h
    split
    · exact h
    · trivial
  | word rest d => exact wordStep_spoiled h _ _ _
  | number p n =>
    unfold Scan.step
    simp only
    split
    · exact h
    · exact follow_spoiled ho h _ _
    · trivial
  | text isName sp e =>
    have hfree : isName = true → NameFree frames := by
      rintro rfl
      exact ho
    exact textStep_spoiled hfree h _ _
  | after => exact afterValue_spoiled h _
  | done root => exact afterRoot_spoiled h _
  | failed root => trivial

theorem foldl_spoiled (ho : s.Orderly) (h : s.Spoiled) (cs : List Char) : (cs.foldl Scan.step s).Spoiled := by
  induction cs generalizing s with
  | nil => exact h
  | cons c cs ih => exact ih (step_orderly ho c) (step_spoiled ho h c)

/-- A spoiled scan has no value at its end. -/
theorem Scan.Spoiled.value? (h : s.Spoiled) : s.value? = none := by
  cases hvalue : s.value? with
  | none => rfl
  | some v =>
    obtain ⟨d, hd, hv⟩ := value?_eq_some hvalue
    obtain ⟨frames, mode⟩ := s
    rcases result_cases hd with hdone | ⟨p, n, hnumber, rfl⟩
    · simp only at hdone
      subst hdone
      rw [Document.value?, h depthLimit] at hv
      cases hv
    · cases hnumber
      obtain ⟨f, hf, -⟩ := h
      cases hf

end Spoiled

section Bytes

variable {frames : List Frame} {s : Scan}

theorem close_null (frames : List Frame) : Scan.close frames '\x00' = Scan.fail frames := by
  unfold Scan.close
  split <;> rfl

theorem follow_null (hframes : Awaiting frames) (d : Document) : ((Scan.deliver frames d).follow '\x00').Spoiled := by
  cases frames with
  | nil => trivial
  | cons f rest =>
    have hclose : ∀ frames, (Scan.afterValue frames '\x00').Spoiled := by
      intro frames
      have hstep : Scan.afterValue frames '\x00' = Scan.close frames '\x00' := rfl
      rw [hstep, close_null]
      trivial
    cases f with
    | array items => exact hclose _
    | object members name =>
      cases name with
      | none => exact hframes.elim
      | some name => exact hclose _

/-- Outside of the plain characters of a literal a control character ends the JSON. -/
theorem step_null_spoiled (h : s.Orderly) (hplain : ∀ isName sp, s.mode ≠ .text isName sp .plain) :
    (s.step '\x00').Spoiled := by
  obtain ⟨frames, mode⟩ := s
  cases mode with
  | value closable =>
    have hstep : Scan.step ⟨frames, .value closable⟩ '\x00' =
        if closable then Scan.close frames '\x00' else Scan.fail frames := rfl
    rw [hstep, close_null, ite_self]
    trivial
  | name closable =>
    have hstep : Scan.step ⟨frames, .name closable⟩ '\x00' =
        if closable then Scan.close frames '\x00' else Scan.fail frames := rfl
    rw [hstep, close_null, ite_self]
    trivial
  | colon => trivial
  | word rest d =>
    cases rest with
    | nil => trivial
    | cons x more =>
      have hne : '\x00' ≠ x := by
        rintro rfl
        cases h.2 '\x00' List.mem_cons_self
      have hstep : Scan.step ⟨frames, .word (x :: more) d⟩ '\x00' = Scan.fail frames := if_neg hne
      rw [hstep]
      trivial
  | number p n =>
    have hstep : p.step n '\x00' = .stop ∨ p.step n '\x00' = .bad := by
      cases p <;> first | exact .inl rfl | exact .inr rfl
    unfold Scan.step
    rcases hstep with hstep | hstep
    · simp only [hstep]
      exact follow_null h _
    · simp only [hstep]
      trivial
  | text isName sp e =>
    cases e with
    | plain => exact absurd rfl (hplain isName sp)
    | backslash => trivial
    | unit count value => trivial
  | after =>
    have hstep : Scan.step ⟨frames, .after⟩ '\x00' = Scan.close frames '\x00' := rfl
    rw [hstep, close_null]
    trivial
  | done root => trivial
  | failed root => trivial

theorem gap_orderly (h : s.Orderly) : s.gap.Orderly := by
  obtain ⟨frames, mode⟩ := s
  unfold Scan.gap
  split
  · next isName sp hmode =>
    simp only at hmode
    subst hmode
    cases isName with
    | false => exact h
    | true => exact h
  · exact step_orderly h _

/-- A byte that belongs to no character spoils the scan wherever it stands. -/
theorem gap_spoiled (h : s.Orderly) : s.gap.Spoiled := by
  unfold Scan.gap
  split
  · exact .inl rfl
  · next hplain => exact step_null_spoiled h hplain

theorem readBytes_spoiled (h : s.Orderly) (hs : s.Spoiled) (bytes : List UInt8) : (s.readBytes bytes).Spoiled := by
  fun_induction Scan.readBytes s bytes with
  | case1 s bytes hfault => exact foldl_spoiled h hs _
  | case2 s bytes f hfault valid ih =>
    have horderly : valid.Orderly := foldl_orderly h _
    exact ih (gap_orderly horderly) (gap_spoiled horderly)

theorem readBytes_of_fault (h : s.Orderly) {bytes : List UInt8} (hfault : utf8Fault? bytes ≠ none) :
    (s.readBytes bytes).Spoiled := by
  rw [Scan.readBytes]
  split
  · next hnone => exact absurd hnone hfault
  · next f hf =>
    have hvalid := foldl_orderly h (utf8Text (bytes.take f.index)).toList
    exact readBytes_spoiled (gap_orderly hvalid) (gap_spoiled hvalid) _

end Bytes

section Decoding

theorem scannedValue?_eq (body : ByteArray) : scannedValue? body = (Scan.start.readBytes body.toList).value? := rfl

theorem readJsonBytes?_of_not_valid {body : ByteArray} (h : ¬ body.IsValidUTF8) : readJsonBytes? body = none := by
  rw [readJsonBytes?, String.fromUTF8?, dif_neg h, Option.bind_none]

/-- Bytes have the same value whether they are decoded first or scanned one by one. -/
theorem readJsonBytes?_eq_scannedValue? (body : ByteArray) : readJsonBytes? body = scannedValue? body := by
  by_cases h : body.IsValidUTF8
  · obtain ⟨s, rfl⟩ := exists_text h
    rw [readJsonBytes?_toUTF8, scannedValue?, scanBytes_toUTF8]
    rfl
  · have hfault : utf8Fault? body.toList ≠ none := fun hnone => h (isValidUTF8_iff_no_fault.mpr hnone)
    have hspoiled : (Scan.start.readBytes body.toList).Spoiled := readBytes_of_fault start_orderly hfault
    rw [readJsonBytes?_of_not_valid h, scannedValue?_eq, hspoiled.value?]

end Decoding

end AlertRelay
