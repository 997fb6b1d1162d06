import AlertRelay.Payload.GitHub
import AlertRelay.Proofs.LineReading
import AlertRelay.Proofs.StrayBytes

/-! A body is one document: it is UTF-8, blanks around it make no difference, and nothing
else may follow a document that yields alerts. -/

namespace AlertRelay

section Blanks

variable {bytes body : ByteArray}

/-- The bytes of the blanks of JSON. -/
def BlankBytes (bytes : ByteArray) : Prop := ∀ b ∈ bytes.toList, b = 0x20 ∨ b = 0x0a ∨ b = 0x0d ∨ b = 0x09

instance (bytes : ByteArray) : Decidable (BlankBytes bytes) := List.decidableBAll _ bytes.toList

theorem isJsonBlank_ascii {c : Char} (hc : isJsonBlank c = true) : c.toNat < 0x80 := by
  simp only [isJsonBlank, Bool.or_eq_true, decide_eq_true_eq] at hc
  rcases hc with ((rfl | rfl) | rfl) | rfl <;> decide

theorem exists_blank {b : UInt8} (hb : b = 0x20 ∨ b = 0x0a ∨ b = 0x0d ∨ b = 0x09) :
    ∃ c, isJsonBlank c = true ∧ String.utf8EncodeChar c = [b] := by
  rcases hb with rfl | rfl | rfl | rfl
  · exact ⟨' ', by decide, by decide⟩
  · exact ⟨'\n', by decide, by decide⟩
  · exact ⟨'\r', by decide, by decide⟩
  · exact ⟨'\t', by decide, by decide⟩

theorem blankBytes_toUTF8 {s : String} (h : Blank s.toList) : BlankBytes s.toUTF8 := by
  intro b hb
  rw [toUTF8_toList] at hb
  obtain ⟨c, hc, hbyte⟩ := List.mem_flatMap.mp hb
  have hblank := h c hc
  rw [utf8EncodeChar_of_lt (isJsonBlank_ascii hblank), List.mem_singleton] at hbyte
  simp only [isJsonBlank, Bool.or_eq_true, decide_eq_true_eq] at hblank
  rcases hblank with ((rfl | rfl) | rfl) | rfl <;> simp [hbyte]

/-- Blank bytes are the bytes of blanks. -/
theorem BlankBytes.exists_text (h : BlankBytes bytes) : ∃ s : String, Blank s.toList ∧ bytes = s.toUTF8 := by
  have hchars : ∀ bs : List UInt8, (∀ b ∈ bs, b = 0x20 ∨ b = 0x0a ∨ b = 0x0d ∨ b = 0x09) →
      ∃ cs, Blank cs ∧ bs = encodeUtf8 cs := by
    intro bs hbs
    induction bs with
    | nil => exact ⟨[], by decide, rfl⟩
    | cons b bs ih =>
      obtain ⟨hb, hbs⟩ := List.forall_mem_cons.mp hbs
      obtain ⟨c, hc, hencode⟩ := exists_blank hb
      obtain ⟨cs, hcs, rfl⟩ := ih hbs
      refine ⟨c :: cs, List.forall_mem_cons.mpr ⟨hc, hcs⟩, ?_⟩
      rw [encodeUtf8, encodeUtf8, List.flatMap_cons, hencode]
      rfl
  obtain ⟨cs, hcs, hbytes⟩ := hchars bytes.toList h
  refine ⟨String.ofList cs, by rwa [String.toList_ofList], toList_inj.mp ?_⟩
  rw [hbytes, toUTF8_toList, String.toList_ofList]

theorem toUTF8_append (s t : String) : s.toUTF8 ++ t.toUTF8 = (s ++ t).toUTF8 := rfl

/-- Behind a text bytes are UTF-8 if they are by themselves. -/
theorem isValidUTF8_text_append_iff (s : String) : (s.toUTF8 ++ body).IsValidUTF8 ↔ body.IsValidUTF8 := by
  obtain ⟨cs, rfl⟩ := s.exists_eq_ofList
  rw [String.toUTF8_eq_toByteArray, String.toByteArray_ofList]
  induction cs with
  | nil => simp
  | cons c cs ih =>
    rw [List.utf8Encode_cons, ByteArray.append_assoc, ByteArray.isValidUTF8_utf8Encode_singleton_append_iff, ih]

/-- A text without its last byte is a text if that byte is one of the first 128 characters. -/
theorem exists_text_of_append {bs : List UInt8} {c : Char} {cs : List Char} (hc : c.toNat < 0x80)
    (h : bs ++ String.utf8EncodeChar c = encodeUtf8 cs) : ∃ ds, bs = encodeUtf8 ds := by
  rcases cs.eq_nil_or_concat with rfl | ⟨ds, d, rfl⟩
  · simp [encodeUtf8] at h
  have hsplit : encodeUtf8 (ds.concat d) = encodeUtf8 ds ++ String.utf8EncodeChar d := by
    rw [List.concat_eq_append, encodeUtf8_append]
    simp [encodeUtf8]
  rw [hsplit] at h
  have hlast : (String.utf8EncodeChar d).getLast? = some (UInt8.ofNat c.toNat) := by
    have hend := congrArg List.getLast? h
    rw [utf8EncodeChar_of_lt hc, List.getLast?_concat, List.getLast?_append_of_ne_nil _ String.utf8EncodeChar_ne_nil] at hend
    exact hend.symm
  obtain rfl := (mem_utf8EncodeChar_iff hc).mp (List.mem_of_getLast? hlast)
  exact ⟨ds, List.append_cancel_right h⟩

theorem exists_text_of_append_blanks {bs : List UInt8} {cs ds : List Char} (hcs : Blank cs)
    (h : bs ++ encodeUtf8 cs = encodeUtf8 ds) : ∃ es, bs = encodeUtf8 es := by
  induction cs generalizing bs ds with
  | nil => exact ⟨ds, by simpa [encodeUtf8] using h⟩
  | cons c cs ih =>
    obtain ⟨hc, hcs⟩ := List.forall_mem_cons.mp hcs
    have hassoc : bs ++ String.utf8EncodeChar c ++ encodeUtf8 cs = encodeUtf8 ds := by
      rw [List.append_assoc]
      exact h
    obtain ⟨es, hes⟩ := ih hcs hassoc
    exact exists_text_of_append (isJsonBlank_ascii hc) hes

/-- In front of blanks bytes are UTF-8 if they are by themselves. -/
theorem isValidUTF8_append_blanks_iff {s : String} (hs : Blank s.toList) :
    (body ++ s.toUTF8).IsValidUTF8 ↔ body.IsValidUTF8 := by
  rw [isValidUTF8_iff, isValidUTF8_iff, toList_append, toUTF8_toList]
  constructor
  · rintro ⟨ds, hds⟩
    exact exists_text_of_append_blanks hs hds
  · rintro ⟨ds, hds⟩
    exact ⟨ds ++ s.toList, by rw [hds, encodeUtf8_append]⟩

end Blanks

section Reading

variable {body : ByteArray}

/-- Blanks around bytes change nothing. -/
theorem readJsonBytes?_blanks {before after : ByteArray} (hbefore : BlankBytes before) (hafter : BlankBytes after)
    (body : ByteArray) : readJsonBytes? (before ++ body ++ after) = readJsonBytes? body := by
  obtain ⟨b, hb, rfl⟩ := hbefore.exists_text
  obtain ⟨a, ha, rfl⟩ := hafter.exists_text
  by_cases h : body.IsValidUTF8
  · obtain ⟨s, rfl⟩ := exists_text h
    rw [toUTF8_append, toUTF8_append, readJsonBytes?_toUTF8, readJsonBytes?_toUTF8, String.toList_append,
      String.toList_append, readJson?_blanks hb ha]
  · have hpadded : ¬ (b.toUTF8 ++ body ++ a.toUTF8).IsValidUTF8 := by
      rw [isValidUTF8_append_blanks_iff ha, isValidUTF8_text_append_iff]
      exact h
    rw [readJsonBytes?_of_not_valid h, readJsonBytes?_of_not_valid hpadded]

/-- Bytes that are an object are none with more than blanks behind them. -/
theorem readJsonBytes?_extended {members : List (String × Json)} (h : readJsonBytes? body = some (.object members))
    {more : ByteArray} (hmore : ¬ BlankBytes more) : readJsonBytes? (body ++ more) = none := by
  have hbody : body.IsValidUTF8 := by
    by_contra hinvalid
    rw [readJsonBytes?_of_not_valid hinvalid] at h
    cases h
  obtain ⟨s, rfl⟩ := exists_text hbody
  by_cases hvalid : more.IsValidUTF8
  · obtain ⟨t, rfl⟩ := exists_text hvalid
    rw [readJsonBytes?_toUTF8] at h
    rw [toUTF8_append, readJsonBytes?_toUTF8, String.toList_append]
    exact readJson?_extended h nofun nofun fun hblank => hmore (blankBytes_toUTF8 hblank)
  · have hinvalid : ¬ (s.toUTF8 ++ more).IsValidUTF8 := by
      rw [isValidUTF8_text_append_iff]
      exact hvalid
    exact readJsonBytes?_of_not_valid hinvalid

theorem object_of_gitHubAlerts {payload : Json} {alerts : List Alert} (h : gitHubAlerts payload = .ok alerts) :
    ∃ members, payload = .object members := by
  cases payload with
  | object members => exact ⟨members, rfl⟩
  | null | bool | int | float | text | array => cases h

end Reading

section Classification

namespace Rule

variable {body : ByteArray}

theorem classify_of_unread (r : Rule) (h : readJsonBytes? body = none) :
    r.classify body = .error (.unrecognized .notJson) := by
  rw [classify, h]

theorem gitHub_classify_eq_ok {alerts : List Alert} (h : gitHub.classify body = .ok alerts) :
    ∃ members, readJsonBytes? body = some (.object members) := by
  unfold classify at h
  split at h
  · cases h
  · next payload hread =>
    obtain ⟨members, rfl⟩ := object_of_gitHubAlerts h
    exact ⟨members, hread⟩

/-- A body is classified by the value that its bytes have when they are scanned one by one, and
not at all if they are no UTF-8. Blanks around it change nothing, and what yields alerts yields
none with anything but blanks behind it. -/
theorem body_is_one_document (body : ByteArray) :
    readJsonBytes? body = scannedValue? body ∧
    (¬ body.IsValidUTF8 → gitHub.classify body = .error (.unrecognized .notJson)) ∧
    (∀ before after : ByteArray, BlankBytes before → BlankBytes after →
      gitHub.classify (before ++ body ++ after) = gitHub.classify body) ∧
    ∀ alerts, gitHub.classify body = .ok alerts → ∀ more : ByteArray, ¬ BlankBytes more →
      gitHub.classify (body ++ more) = .error (.unrecognized .notJson) := by
  refine ⟨readJsonBytes?_eq_scannedValue? body, ?_, ?_, ?_⟩
  · intro hinvalid
    exact gitHub.classify_of_unread (readJsonBytes?_of_not_valid hinvalid)
  · intro before after hbefore hafter
    rw [classify, classify, readJsonBytes?_blanks hbefore hafter]
  · intro alerts h more hmore
    obtain ⟨members, hread⟩ := gitHub_classify_eq_ok h
    exact gitHub.classify_of_unread (readJsonBytes?_extended hread hmore)

/-- A payload that yields an alert yields none when it stands twice on a line; neither does one
with a stray byte in a member that no field reads. -/
theorem two_bodies_are_none :
    let body := "\x7b\"error\":\x7b\"meta_data\":[\"repo\",1.5e3,\"parent\",\"origin\"]\x7d\x7d".toUTF8
    let stray := "\x7b\"unread\":\"".toUTF8 ++ ⟨#[0xff]⟩ ++ "\",".toUTF8 ++ body.extract 1 body.size
    let blank := " \x0d\x09\x0a".toUTF8
    (∃ alerts, gitHub.classify body = .ok alerts ∧ gitHub.classify (blank ++ body ++ blank) = .ok alerts) ∧
    gitHub.classify (body ++ body) = .error (.unrecognized .notJson) ∧
    gitHub.classify stray = .error (.unrecognized .notJson) := by
  intro body stray blank
  have hone : (gitHub.classify body).toOption.isSome = true := by decide +kernel
  obtain ⟨_, _, hblanks, hmore⟩ := body_is_one_document body
  obtain ⟨_, hinvalid, _⟩ := body_is_one_document stray
  have hfault : ¬ stray.IsValidUTF8 := by
    rw [isValidUTF8_iff_no_fault]
    decide +kernel
  obtain ⟨alerts, halerts⟩ : ∃ alerts, gitHub.classify body = .ok alerts := by
    cases h : gitHub.classify body with
    | error e =>
      rw [h] at hone
      cases hone
    | ok alerts => exact ⟨alerts, rfl⟩
  refine ⟨⟨alerts, halerts, ?_⟩, hmore alerts halerts body (by decide +kernel), hinvalid hfault⟩
  rw [hblanks blank blank (by decide +kernel) (by decide +kernel)]
  exact halerts

end Rule

end Classification

end AlertRelay
