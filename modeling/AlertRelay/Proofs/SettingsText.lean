import AlertRelay.Proofs.Echo
import AlertRelay.Proofs.Grammar
import AlertRelay.Proofs.SettingsMembers

/-! Which texts are settings, and of what. The members are read first, then the capacity is
overridden, and then the limits are checked. -/

namespace AlertRelay

namespace Settings

/-- A text that is one object with these members, no two of them under one name. -/
structure ObjectText (text : String) (members : List (String × Document)) : Prop where
  denotes : Denotes text.toList (.element (.object (members.map fun m => (some m.1, m.2)) true))
  names : (members.map Prod.fst).Nodup

namespace ObjectText

variable {text : String} {members : List (String × Document)}

theorem readText (h : ObjectText text members) : reader.readText text.toList =
    ((members.map fun m => (some m.1, m.2)).foldlM reader.fill {}).map Draft.finish := by
  rw [RecordReader.readText, h.denotes.scanDocument]
  generalize hfold : (members.map fun m => (some m.1, m.2)).foldlM reader.fill {} = r
  have hblank : (members.map fun m => (some m.1, m.2)).foldlM reader.fill reader.blank = r := hfold
  simp only [RecordReader.readWhole, RecordReader.read, hblank]
  cases r <;> rfl

theorem written_of_typed (h : ObjectText text members) (ht : Typed members) : ∃ w, Written members w := by
  rcases foldlM_fill h.names with ⟨s, -, hfilled, -⟩ | ⟨-, hnot⟩
  · exact ⟨s.finish, hfilled.written⟩
  · exact absurd ht hnot

theorem ofText_of_written (h : ObjectText text members) {w : Settings} (hw : Written members w)
    (capacity? : Option ByteArray) : ofText capacity? text = w.override capacity? >>= check := by
  rcases foldlM_fill h.names with ⟨s, hfold, hfilled, -⟩ | ⟨-, hnot⟩
  · have hread : reader.readText text.toList = .ok w := by
      rw [h.readText, hfold, hw.unique hfilled.written h.names]
      rfl
    rw [ofText, hread]
    rfl
  · exact absurd (hw.typed h.names) hnot

/-- A member of the wrong type is noticed before anything else. -/
theorem ofText_of_untyped (h : ObjectText text members) (ht : ¬ Typed members) (capacity? : Option ByteArray) :
    ∃ e, ofText capacity? text = .error (.invalid e) := by
  rcases foldlM_fill h.names with ⟨-, -, -, htyped⟩ | ⟨⟨e, hfold⟩, -⟩
  · exact absurd htyped ht
  · refine ⟨e, ?_⟩
    rw [ofText, h.readText, hfold]
    rfl

end ObjectText

section Override

/-- A text that is read as this capacity: digits, with a plus sign before them or not. -/
structure CapacityText (text : String) (n : Nat) : Prop where
  digits : ∃ cs, (text.toList = cs ∨ text.toList = '+' :: cs) ∧ cs ≠ [] ∧ (∀ c ∈ cs, c.isDigit = true) ∧
    digitsValue (cs.map digitOf) = n
  fits : n < 2 ^ 64

/-- The capacity that the variable sets, if it is set to a text. -/
def Overrides (capacity? : Option ByteArray) (o : Option Nat) : Prop :=
  match capacity?.bind String.fromUTF8? with
  | none => o = none
  | some value => ∃ n, o = some n ∧ CapacityText value n

theorem le_digitsFrom (v : Nat) (ds : List Nat) : v ≤ ds.foldl (fun v d => 10 * v + d) v := by
  induction ds generalizing v with
  | nil => exact Nat.le_refl v
  | cons d ds ih =>
    have hnext := ih (10 * v + d)
    rw [List.foldl_cons]
    omega

theorem readDigits_eq_ok {cs : List Char} {v n : Nat} (hv : v < UInt64.size) : readDigits v cs = .ok n ↔
    (∀ c ∈ cs, c.isDigit = true) ∧ (cs.map digitOf).foldl (fun v d => 10 * v + d) v = n ∧ n < UInt64.size := by
  induction cs generalizing v with
  | nil =>
    simp only [readDigits, Except.ok.injEq, List.map_nil, List.foldl_nil]
    constructor
    · rintro rfl
      exact ⟨by simp, rfl, hv⟩
    · rintro ⟨-, rfl, -⟩
      rfl
  | cons c cs ih =>
    rw [readDigits, List.map_cons, List.foldl_cons, List.forall_mem_cons]
    by_cases hc : c.isDigit = true
    · by_cases hnext : 10 * v + digitOf c < UInt64.size
      · have hstep : 10 * v + (c.toNat - '0'.toNat) < UInt64.size := hnext
        simp only [hc, hstep, if_true, true_and]
        exact ih hnext
      · have hstep : ¬ 10 * v + (c.toNat - '0'.toNat) < UInt64.size := hnext
        simp only [hc, hstep, if_true, if_false]
        refine ⟨nofun, ?_⟩
        rintro ⟨-, rfl, hfits⟩
        exact absurd (Nat.lt_of_le_of_lt (le_digitsFrom _ _) hfits) hnext
    · simp [hc]

theorem readCapacity_eq_ok {text : String} {n : Nat} : readCapacity text = .ok n ↔ CapacityText text n := by
  have hzero : 0 < UInt64.size := by decide
  unfold readCapacity
  split
  · next hnil =>
    refine ⟨nofun, ?_⟩
    rintro ⟨⟨cs, rfl | hplus, hne, -⟩, -⟩
    · exact absurd hnil hne
    · rw [hnil] at hplus
      cases hplus
  · next rest hplus =>
    have hsign : ¬ ('+'.isDigit = true) := by decide
    cases rest with
    | nil =>
      refine ⟨nofun, ?_⟩
      rintro ⟨⟨cs, h | h, hne, hdigits, -⟩, -⟩
      · rw [hplus] at h
        subst h
        exact absurd (hdigits '+' List.mem_cons_self) hsign
      · rw [hplus] at h
        exact absurd (List.cons.inj h).2.symm hne
    | cons c cs =>
      rw [List.isEmpty_cons, if_neg Bool.false_ne_true, readDigits_eq_ok hzero]
      constructor
      · rintro ⟨hdigits, hvalue, hfits⟩
        exact ⟨⟨c :: cs, .inr hplus, by simp, hdigits, hvalue⟩, hfits⟩
      · rintro ⟨⟨ds, h | h, -, hdigits, hvalue⟩, hfits⟩
        · rw [hplus] at h
          subst h
          exact absurd (hdigits '+' List.mem_cons_self) hsign
        · rw [hplus] at h
          obtain rfl := (List.cons.inj h).2
          exact ⟨hdigits, hvalue, hfits⟩
  · next hnil hplus =>
    rw [readDigits_eq_ok hzero]
    constructor
    · rintro ⟨hdigits, hvalue, hfits⟩
      exact ⟨⟨text.toList, .inl rfl, hnil, hdigits, hvalue⟩, hfits⟩
    · rintro ⟨⟨ds, rfl | h, -, hdigits, hvalue⟩, hfits⟩
      · exact ⟨hdigits, hvalue, hfits⟩
      · exact absurd h (hplus ds)

variable {s : Settings} {capacity? : Option ByteArray}

theorem Overrides.unique {o o' : Option Nat} (h : Overrides capacity? o) (h' : Overrides capacity? o') : o = o' := by
  unfold Overrides at h h'
  cases hset : capacity?.bind String.fromUTF8? with
  | none =>
    rw [hset] at h h'
    exact h.trans h'.symm
  | some value =>
    rw [hset] at h h'
    obtain ⟨n, rfl, hn⟩ := h
    obtain ⟨n', rfl, hn'⟩ := h'
    have hread := (readCapacity_eq_ok.mpr hn).symm.trans (readCapacity_eq_ok.mpr hn')
    exact congrArg some (Except.ok.inj hread)

theorem override_of_overrides {o : Option Nat} (h : Overrides capacity? o) :
    s.override capacity? = .ok { s with bufferCapacity := o.getD s.bufferCapacity } := by
  unfold Overrides at h
  unfold Settings.override
  cases hset : capacity?.bind String.fromUTF8? with
  | none =>
    rw [hset] at h
    obtain rfl : o = none := h
    rfl
  | some value =>
    rw [hset] at h
    obtain ⟨n, rfl, hn⟩ := h
    simp only [readCapacity_eq_ok.mpr hn]
    rfl

/-- A variable that is set to a text which is no capacity. -/
theorem override_of_text {value : String} (hset : capacity?.bind String.fromUTF8? = some value)
    (hvalue : ∀ n, ¬ CapacityText value n) : ∃ fault, s.override capacity? = .error (.notANumber value fault) := by
  unfold Settings.override
  cases hread : readCapacity value with
  | ok n => exact absurd (readCapacity_eq_ok.mp hread) (hvalue n)
  | error fault => exact ⟨fault, by simp only [hset, hread]⟩

theorem overrides_or (capacity? : Option ByteArray) : (∃ o, Overrides capacity? o) ∨
    ∃ value, capacity?.bind String.fromUTF8? = some value ∧ ∀ n, ¬ CapacityText value n := by
  unfold Overrides
  cases capacity?.bind String.fromUTF8? with
  | none => exact .inl ⟨none, rfl⟩
  | some value =>
    by_cases h : ∃ n, CapacityText value n
    · obtain ⟨n, hn⟩ := h
      exact .inl ⟨some n, n, rfl, hn⟩
    · exact .inr ⟨value, rfl, fun n hn => h ⟨n, hn⟩⟩

end Override

section Verdict

variable {text : String} {members : List (String × Document)} {w : Settings} {capacity? : Option ByteArray}

theorem prefetch_bounds {s : Settings} (h : 1 ≤ s.bufferCapacity) :
    1 ≤ s.prefetch ∧ s.prefetch ≤ min 65535 s.bufferCapacity := by
  unfold prefetch
  omega

theorem check_eq_ok {s t : Settings} : s.check = .ok t ↔ s = t ∧ 1 ≤ s.bufferCapacity ∧ s.source ≠ "" := by
  unfold check
  by_cases hcapacity : s.bufferCapacity = 0
  · simp [hcapacity]
  · by_cases hsource : s.source = ""
    · simp [hcapacity, hsource]
    · simp [hcapacity, hsource, Nat.one_le_iff_ne_zero]

theorem ObjectText.ofText_of_overrides (h : ObjectText text members) (hw : Written members w) {o : Option Nat}
    (ho : Overrides capacity? o) :
    ofText capacity? text = check { w with bufferCapacity := o.getD w.bufferCapacity } := by
  rw [h.ofText_of_written hw, override_of_overrides ho]
  rfl

theorem ObjectText.ofText_of_text (h : ObjectText text members) (hw : Written members w) {value : String}
    (hset : capacity?.bind String.fromUTF8? = some value) (hvalue : ∀ n, ¬ CapacityText value n) :
    ∃ fault, ofText capacity? text = .error (.notANumber value fault) := by
  obtain ⟨fault, hfault⟩ := override_of_text (s := w) hset hvalue
  refine ⟨fault, ?_⟩
  rw [h.ofText_of_written hw, hfault]
  rfl

theorem ObjectText.ofText_eq_ok (h : ObjectText text members) {s : Settings} : ofText capacity? text = .ok s ↔
    ∃ w o, Written members w ∧ Overrides capacity? o ∧ { w with bufferCapacity := o.getD w.bufferCapacity } = s ∧
      1 ≤ s.bufferCapacity ∧ s.source ≠ "" := by
  constructor
  · intro hok
    have htyped : Typed members := by
      by_contra hnot
      obtain ⟨e, he⟩ := h.ofText_of_untyped hnot capacity?
      rw [he] at hok
      cases hok
    obtain ⟨w, hw⟩ := h.written_of_typed htyped
    rcases overrides_or capacity? with ⟨o, ho⟩ | ⟨value, hset, hvalue⟩
    · rw [h.ofText_of_overrides hw ho, check_eq_ok] at hok
      obtain ⟨rfl, hchecked⟩ := hok
      exact ⟨w, o, hw, ho, rfl, hchecked⟩
    · obtain ⟨fault, hfault⟩ := h.ofText_of_text hw hset hvalue
      rw [hfault] at hok
      cases hok
  · rintro ⟨w, o, hw, ho, rfl, hchecked⟩
    rw [h.ofText_of_overrides hw ho, check_eq_ok]
    exact ⟨rfl, hchecked⟩

/-- Members that say the same of every field, in whatever order and among whatever others. -/
def SameFields (members members' : List (String × Document)) : Prop :=
  ∀ (f : Field) (d : Document), (f.key, d) ∈ members ↔ (f.key, d) ∈ members'

theorem SameFields.typed {members' : List (String × Document)} (h : SameFields members members') :
    Typed members ↔ Typed members' := by
  simp only [Typed, h _ _]

theorem SameFields.written {members' : List (String × Document)} (h : SameFields members members') :
    Written members w ↔ Written members' w := by
  simp only [Written, Field.Holds, h _ _]

/-- The same settings or the same error, but for which of the members is refused. -/
def SameVerdict (x y : Except SettingsError Settings) : Prop :=
  x = y ∨ (∃ e, x = .error (.invalid e)) ∧ ∃ e, y = .error (.invalid e)

theorem ObjectText.sameVerdict {text' : String} {members' : List (String × Document)} (h : ObjectText text members)
    (h' : ObjectText text' members') (hsame : SameFields members members') (capacity? : Option ByteArray) :
    SameVerdict (ofText capacity? text) (ofText capacity? text') := by
  by_cases ht : Typed members
  · obtain ⟨w, hw⟩ := h.written_of_typed ht
    exact .inl ((h.ofText_of_written hw capacity?).trans (h'.ofText_of_written (hsame.written.mp hw) capacity?).symm)
  · exact .inr ⟨h.ofText_of_untyped ht capacity?, h'.ofText_of_untyped (fun ht' => ht (hsame.typed.mpr ht')) capacity?⟩

end Verdict

/-- Members of the right types write one settings value. An object text is accepted if
its members do, the variable overrides the capacity with a number or not at all, the
capacity in force is not 0 and the source is not empty. The first of these that fails is
the error. Neither the order of the members nor members with other names matter. -/
theorem ofText_of_members {text : String} {members : List (String × Document)} (h : ObjectText text members)
    (capacity? : Option ByteArray) :
    (Typed members ↔ ∃! w, Written members w) ∧
    ((∃ s, ofText capacity? text = .ok s) ↔ Typed members ∧ ∃ w o, Written members w ∧ Overrides capacity? o ∧
      1 ≤ o.getD w.bufferCapacity ∧ w.source ≠ "") ∧
    (∀ s, ofText capacity? text = .ok s → (∃ w o, Written members w ∧ Overrides capacity? o ∧
      s = { w with bufferCapacity := o.getD w.bufferCapacity }) ∧
      1 ≤ s.prefetch ∧ s.prefetch ≤ min 65535 s.bufferCapacity) ∧
    (¬ Typed members → ∃ e, ofText capacity? text = .error (.invalid e)) ∧
    (Typed members → ∀ value, capacity?.bind String.fromUTF8? = some value → (∀ n, ¬ CapacityText value n) →
      ∃ fault, ofText capacity? text = .error (.notANumber value fault)) ∧
    (∀ w o, Written members w → Overrides capacity? o → o.getD w.bufferCapacity = 0 →
      ofText capacity? text = .error .noCapacity) ∧
    (∀ w o, Written members w → Overrides capacity? o → 1 ≤ o.getD w.bufferCapacity → w.source = "" →
      ofText capacity? text = .error .noSource) ∧
    ∀ text' members', ObjectText text' members' → SameFields members members' →
      SameVerdict (ofText capacity? text) (ofText capacity? text') := by
  refine ⟨⟨fun ht => ?_, fun hw => ?_⟩, ⟨?_, ?_⟩, ?_, fun ht => h.ofText_of_untyped ht capacity?, ?_, ?_, ?_, ?_⟩
  · obtain ⟨w, hw⟩ := h.written_of_typed ht
    exact ⟨w, hw, fun v hv => hv.unique hw h.names⟩
  · exact hw.exists.elim fun w hw => hw.typed h.names
  · rintro ⟨s, hs⟩
    obtain ⟨w, o, hw, ho, rfl, hcapacity, hsource⟩ := h.ofText_eq_ok.mp hs
    exact ⟨hw.typed h.names, w, o, hw, ho, hcapacity, hsource⟩
  · rintro ⟨-, w, o, hw, ho, hcapacity, hsource⟩
    exact ⟨_, h.ofText_eq_ok.mpr ⟨w, o, hw, ho, rfl, hcapacity, hsource⟩⟩
  · intro s hs
    obtain ⟨w, o, hw, ho, heq, hcapacity, -⟩ := h.ofText_eq_ok.mp hs
    exact ⟨⟨w, o, hw, ho, heq.symm⟩, prefetch_bounds hcapacity⟩
  · intro ht value hset hvalue
    obtain ⟨w, hw⟩ := h.written_of_typed ht
    exact h.ofText_of_text hw hset hvalue
  · intro w o hw ho hzero
    rw [h.ofText_of_overrides hw ho]
    exact if_pos hzero
  · intro w o hw ho hcapacity hsource
    rw [h.ofText_of_overrides hw ho]
    simp [check, hsource, Nat.one_le_iff_ne_zero.mp hcapacity]
  · intro text' members' h' hsame
    exact h.sameVerdict h' hsame capacity?

/-- A variable that rescues a capacity of 0, in a text that escapes a name and has a
member of its own. -/
theorem ofText_of_members_rescued :
    let text := "\x7b\"buffer_capacity\":0, \"x\":[-1e9],\"sourc\\u0065\":\"a\"\x7d"
    let members : List (String × Document) := [("buffer_capacity", .number ⟨false, [0], [], none⟩),
      ("x", .array [.number ⟨true, [1], [], some (false, [9])⟩] true), ("source", .text (some "a"))]
    ObjectText text members ∧
      ofText (some "+7".toUTF8) text = .ok { source := "a", bufferCapacity := 7 } := by
  intro text members
  have hblank : Blank [] := by decide
  have hspace : Blank [' '] := by decide
  have hzero : Denotes ['0'] (.element (.number ⟨false, [0], [], none⟩)) :=
    .element hblank (.number (t := ⟨false, ['0'], [], none⟩) ⟨.inl rfl, by simp, nofun⟩ .absent) hblank
  have hnine : Denotes ['-', '1', 'e', '9'] (.element (.number ⟨true, [1], [], some (false, [9])⟩)) :=
    .element hblank (.number (t := ⟨true, ['1'], [], some (false, ['9'])⟩)
      ⟨.inr ⟨'1', [], rfl, by decide, by simp⟩, by simp, by rintro _ _ ⟨⟩; simp⟩ (.bare (by decide) ['9'])) hblank
  have ha : Denotes ['"', 'a', '"'] (.element (.text (some "a"))) :=
    have hverbatim : Verbatim ['a'] := by decide
    .element hblank (.text (hverbatim.literal .nil)) hblank
  have htext : ObjectText text members := by
    refine ⟨?_, by decide⟩
    have hcapacity : Verbatim "buffer_capacity".toList := by decide
    have hx : Verbatim "x".toList := by decide
    have hsourc : Verbatim "sourc".toList := by decide
    have hunit : CodeUnit ['0', '0', '6', '5'] 0x65 := .digits (p := 0) (q := 0) (r := 6) (s := 5) rfl rfl rfl rfl
    have hsource : Literal "sourc\\u0065".toList "source".toList := hsourc.literal (.unit hunit (by decide) .nil)
    have hmembers := Denotes.members (.member hblank (hcapacity.literal .nil) hblank hzero)
      (.members (.member hspace (hx.literal .nil) hblank (.element hblank (.array (.lastElement hnine)) hblank))
        (.lastMember (.member hblank hsource hblank ha)))
    convert Denotes.element hblank (.object hmembers) hblank using 1
    · decide
    · simp [members]
  have hw : Written members { source := "a", bufferCapacity := 0 } := by
    intro f
    cases f with
    | source => exact .inl ⟨.text (some "a"), by simp [members, Field.key], rfl⟩
    | bufferCapacity =>
      exact .inl ⟨.number ⟨false, [0], [], none⟩, by simp [members, Field.key], _, rfl, rfl, rfl, rfl, rfl,
        Nat.two_pow_pos 64⟩
    | name | exchange | queue | reconnectDelaySecs => exact .inr ⟨by simp [members, Field.key], rfl⟩
  have ho : Overrides (some "+7".toUTF8) (some 7) := by
    have hset : (some "+7".toUTF8).bind String.fromUTF8? = some "+7" := fromUTF8?_toUTF8 "+7"
    rw [Overrides, hset]
    exact ⟨7, rfl, ⟨['7'], .inr (by decide), by simp, by simp, by decide⟩, by decide⟩
  have hresult := ofText_of_members htext (some "+7".toUTF8)
  obtain ⟨s, hs⟩ := hresult.2.1.mpr ⟨hw.typed htext.names, _, _, hw, ho, by decide, by decide⟩
  obtain ⟨⟨w, o, hw', ho', rfl⟩, -⟩ := hresult.2.2.1 s hs
  rw [hw'.unique hw htext.names, ho'.unique ho] at hs
  exact ⟨htext, hs⟩

end Settings

end AlertRelay
