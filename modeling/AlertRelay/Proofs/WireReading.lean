import AlertRelay.Alert.Wire
import AlertRelay.Proofs.Printed

/-! An alert is read back from what is published for it. -/

namespace AlertRelay

theorem text_reads (s : String) : Reads (Json.text s).chars (.text (some s)) := by
  rw [Json.chars]
  exact (textChars_closes s).reads

theorem null_closes : Closes ['n', 'u', 'l', 'l'] .null := fun _ _ _ => rfl

theorem float_reads {x : Float} (hx : x.isFinite = true) : ∃ n y, y.isFinite = true ∧ n.value? = some (.float y) ∧
    Reads (Json.float x).chars (.number n) := by
  obtain ⟨t, ht, hchars⟩ := floatChars_real hx
  obtain ⟨y, hy, hvalue⟩ := ht.value?
  refine ⟨t.numeral, y, hy, hvalue, ?_⟩
  rw [Json.chars, numberChars, if_pos hx, hchars]
  exact ht.wellFormed.reads

section Reading

/-- What a published code is scanned as. -/
def AlertCode.document (c : AlertCode) : Document :=
  .object [(some "name", .text (some c.name)), (some "code", .text (some c.code))] true

/-- The members of a published alert that hold no number, as they are scanned. -/
def Alert.textMembers (a : Alert) : List (Option String × Document) := [
  (some "alert_code", a.code.document),
  (some "message", .text (some a.message)),
  (some "severity", .text (some a.severity.wireName)),
  (some "parent_id", .text (some a.parentId)),
  (some "origin_id", .text (some a.originId))]

/-- What a published alert is scanned as. -/
def Alert.document (a : Alert) (n : Numeral) : Document :=
  .object (a.textMembers ++ [(some "timestamp", .number n)]) true

theorem AlertCode.toJson_reads (c : AlertCode) : Reads c.toJson.chars c.document :=
  (object_closes (.cons ⟨rfl, text_reads _⟩ (.cons ⟨rfl, text_reads _⟩ .nil))).reads

theorem Alert.toJson_closes (a : Alert) {d : Document} (h : Reads (Json.float a.timestamp).chars d) :
    Closes a.toJson.chars (.object (a.textMembers ++ [(some "timestamp", d)]) true) :=
  object_closes (.cons ⟨rfl, a.code.toJson_reads⟩ (.cons ⟨rfl, text_reads _⟩ (.cons ⟨rfl, text_reads _⟩
    (.cons ⟨rfl, text_reads _⟩ (.cons ⟨rfl, text_reads _⟩ (.cons ⟨rfl, h⟩ .nil))))))

/-- The draft of an alert without its timestamp. -/
def Alert.undated (a : Alert) : Alert.Draft :=
  { code := a.code, message := a.message, severity := a.severity, parentId := a.parentId, originId := a.originId }

theorem Alert.fill_textMembers (a : Alert) :
    a.textMembers.foldlM Alert.reader.fill Alert.reader.blank = .ok a.undated := by
  obtain ⟨code, message, severity, parentId, originId, timestamp⟩ := a
  cases severity <;> rfl

theorem Alert.fill_timestamp (a : Alert) {n : Numeral} {t : Float} (hn : n.value? = some (.float t)) :
    Alert.reader.fill a.undated (some "timestamp", .number n) = .ok { a.undated with timestamp := some t } := by
  have htimestamp : Document.readReal (.number n) = .ok t := by
    simp [Document.readReal, Document.scalar, Document.value?, Document.valueWithin, hn, Json.asReal, Except.mapError]
  have hfill : Alert.reader.fill a.undated (some "timestamp", .number n) = do
      let t ← Document.readReal (.number n)
      return { a.undated with timestamp := some t } := rfl
  rw [hfill, htimestamp]
  rfl

theorem Alert.read_document (a : Alert) {n : Numeral} {t : Float} (hn : n.value? = some (.float t)) :
    Alert.reader.read (a.document n) = .ok { a with timestamp := t } := by
  have hdraft : (a.textMembers ++ [(some "timestamp", Document.number n)]).foldlM Alert.reader.fill Alert.reader.blank =
      .ok { a.undated with timestamp := some t } := by
    rw [List.foldlM_append, a.fill_textMembers]
    exact (bind_pure _).trans (a.fill_timestamp hn)
  rw [document, RecordReader.read, hdraft]
  rfl

/-- Reading an alert from its published text gives back all of it but the timestamp,
which is read as some finite double. -/
theorem Alert.ofBytes_wire (a : Alert) (h : a.timestamp.isFinite = true) :
    ∃ t : Float, t.isFinite = true ∧ Alert.ofBytes a.wire.toUTF8 = .ok { a with timestamp := t } := by
  obtain ⟨n, t, ht, hvalue, hread⟩ := float_reads h
  refine ⟨t, ht, ?_⟩
  have hscan : scanDocument a.wire.toList = (a.document n, true) := by
    rw [wire, Json.print, String.toList_ofList]
    exact (a.toJson_closes hread).parses.scanDocument
  rw [ofBytes, RecordReader.readBytes, scanBytes_toUTF8, hscan, RecordReader.readWhole, a.read_document hvalue]
  rfl

end Reading

end AlertRelay
