import AlertRelay.Proofs.Decoding
import AlertRelay.Settings

/-! What the members of an object make of the fields of settings. They are read one by one
in the order in which the text has them, but each sets a field of its own. -/

namespace AlertRelay

section Numbers

/-- An unsigned integer is written with digits alone: with a sign, a point or an exponent,
as in `-0`, `1.0` or `1e3`, a number is none. -/
structure Numeral.IsUnsigned (n : Numeral) (v : Nat) : Prop where
  positive : n.negative = false
  fraction : n.fraction = []
  exponent : n.exponent = none
  value : digitsValue n.whole = v
  fits : v < 2 ^ 64

theorem Numeral.int?_eq_natCast {n : Numeral} {v : Nat} : n.int? = some (v : Int) ↔ n.IsUnsigned v := by
  have hsize : UInt64.size = 2 ^ 64 := rfl
  constructor
  · intro h
    obtain ⟨negative, whole, fraction, exponent⟩ := n
    rcases foldl_pushWhole_cases whole with ⟨hlt, hfold⟩ | ⟨hle, hfull⟩
    · have hwhole : Numeral.wholePart ⟨negative, whole, fraction, exponent⟩ = ⟨digitsValue whole, 0, false⟩ := hfold
      simp only [int?, hwhole] at h
      split at h
      · next hform =>
        simp only [Bool.and_eq_true, List.isEmpty_iff, Option.isNone_iff_eq_none] at hform
        split at h
        · next hsign =>
          have hvalue : digitsValue whole = v := by simpa using h
          exact ⟨by simpa using hsign, hform.1.1, hform.1.2, hvalue, by omega⟩
        · split at h
          · simp at h
            omega
          · cases h
      · cases h
    · have hwhole : (Numeral.wholePart ⟨negative, whole, fraction, exponent⟩).full = true := hfull
      simp [int?, hwhole] at h
  · rintro ⟨hpos, hfraction, hexponent, rfl, hfits⟩
    rcases foldl_pushWhole_cases n.whole with ⟨-, hfold⟩ | ⟨hle, -⟩
    · have hwhole : n.wholePart = ⟨digitsValue n.whole, 0, false⟩ := hfold
      simp [int?, hwhole, hpos, hfraction, hexponent]
    · omega

end Numbers

section Scalars

variable {α : Type} {d : Document}

/-- A document that stands for a value without parts. -/
inductive Document.Scalar : Document → Json → Prop
  | null : Scalar .null .null
  | bool (b : Bool) : Scalar (.bool b) (.bool b)
  | number {n : Numeral} {v : Json} (h : n.value? = some v) : Scalar (.number n) v
  | text (s : String) : Scalar (.text (some s)) (.text s)

/-- A container is no scalar, whatever its parts are. -/
theorem Document.scalar_eq_ok {read : Json → Except Mismatch α} (harray : ∀ a, read (.array []) ≠ .ok a)
    (hobject : ∀ a, read (.object []) ≠ .ok a) {a : α} :
    d.scalar read = .ok a ↔ ∃ v, d.Scalar v ∧ read v = .ok a := by
  have hof : ∀ {d : Document} {v : Json}, d.Scalar v → d.scalar read = (read v).mapError .mismatch := by
    intro d v h
    cases h with
    | null | bool | text => rfl
    | @number n _ h =>
      have hvalue : (Document.number n).value? = some v := h
      simp [scalar, hvalue]
  constructor
  · intro h
    have hscalar : ∀ {v}, d.Scalar v → ∃ v, d.Scalar v ∧ read v = .ok a := by
      intro v hv
      rw [hof hv, mapError_eq_ok] at h
      exact ⟨v, hv, h⟩
    cases d with
    | null => exact hscalar .null
    | bool b => exact hscalar (.bool b)
    | number n =>
      cases hn : n.value? with
      | none =>
        have hvalue : (Document.number n).value? = none := hn
        simp [scalar, hvalue] at h
      | some v => exact hscalar (.number hn)
    | text s =>
      cases s with
      | none => cases h
      | some s => exact hscalar (.text s)
    | array items closed => exact absurd (mapError_eq_ok.mp h) (harray a)
    | object members closed => exact absurd (mapError_eq_ok.mp h) (hobject a)
    | broken => cases h
  · rintro ⟨v, hv, h⟩
    rw [hof hv, h]
    rfl

theorem Document.scalar_null : d.Scalar .null ↔ d = .null := by
  constructor
  · intro h
    cases h with
    | null => rfl
    | number h => rcases Numeral.value?_cases h with ⟨_, hv, _⟩ | ⟨_, hv, _⟩ <;> cases hv
  · rintro rfl
    exact .null

theorem Document.scalar_text {s : String} : d.Scalar (.text s) ↔ d = .text (some s) := by
  constructor
  · intro h
    cases h with
    | text => rfl
    | number h => rcases Numeral.value?_cases h with ⟨_, hv, _⟩ | ⟨_, hv, _⟩ <;> cases hv
  · rintro rfl
    exact .text s

theorem Document.scalar_int {v : Nat} : d.Scalar (.int v) ↔ ∃ n, d = .number n ∧ n.IsUnsigned v := by
  constructor
  · intro h
    cases h with
    | @number n _ h =>
      refine ⟨n, rfl, Numeral.int?_eq_natCast.mp ?_⟩
      unfold Numeral.value? at h
      split at h
      · next i hi =>
        cases h
        exact hi
      · obtain ⟨_, _, hv⟩ := Option.map_eq_some_iff.mp h
        cases hv
  · rintro ⟨n, rfl, h⟩
    refine .number ?_
    simp [Numeral.value?, Numeral.int?_eq_natCast.mpr h]

theorem Json.asUnsigned_eq_ok {e : Expected} {v : Json} {n : Nat} : v.asUnsigned e = .ok n ↔ v = .int n := by
  cases v with
  | int i =>
    simp only [asUnsigned, Json.int.injEq]
    split <;> simp <;> omega
  | null | bool | float | text | array | object => simp [asUnsigned, wrongType]

theorem readWord_eq_ok {s : String} : readWord d = .ok s ↔ d = .text (some s) := by
  rw [readWord, Document.scalar_eq_ok nofun nofun]
  simp [Json.asText_eq_ok, Document.scalar_text]

theorem readName_eq_ok {o : Option String} :
    readName d = .ok o ↔ d = .null ∧ o = none ∨ ∃ s, d = .text (some s) ∧ o = some s := by
  rw [readName, Document.scalar_eq_ok nofun nofun]
  simp only [Json.orNull_eq_ok, Json.asText_eq_ok]
  constructor
  · rintro ⟨v, hd, ⟨rfl, rfl⟩ | ⟨-, s, rfl, rfl⟩⟩
    · exact .inl ⟨Document.scalar_null.mp hd, rfl⟩
    · exact .inr ⟨s, Document.scalar_text.mp hd, rfl⟩
  · rintro (⟨rfl, rfl⟩ | ⟨s, rfl, rfl⟩)
    · exact ⟨_, .null, .inl ⟨rfl, rfl⟩⟩
    · exact ⟨_, .text s, .inr ⟨nofun, s, rfl, rfl⟩⟩

theorem readUnsigned_eq_ok {e : Expected} {v : Nat} :
    d.scalar (Json.asUnsigned e) = .ok v ↔ ∃ n, d = .number n ∧ n.IsUnsigned v := by
  rw [Document.scalar_eq_ok nofun nofun]
  simp [Json.asUnsigned_eq_ok, Document.scalar_int]

end Scalars

namespace Settings

inductive Field
  | name
  | source
  | exchange
  | queue
  | bufferCapacity
  | reconnectDelaySecs
deriving DecidableEq

namespace Field

/-- The name of the member that sets a field. -/
def key : Field → String
  | name => "name"
  | source => "source"
  | exchange => "exchange"
  | queue => "queue"
  | bufferCapacity => "buffer_capacity"
  | reconnectDelaySecs => "reconnect_delay_secs"

theorem key_injective : Function.Injective key := by
  intro f g h
  cases f <;> cases g <;> first | rfl | exact absurd h (by decide)

def Value : Field → Type
  | name | queue => Option String
  | source | exchange => String
  | bufferCapacity | reconnectDelaySecs => Nat

/-- What has to stand in a text so that a field has this value. -/
def Says : (f : Field) → Document → f.Value → Prop
  | name, d, o => d = .null ∧ o = none ∨ ∃ s, d = .text (some s) ∧ o = some s
  | queue, d, o => d = .null ∧ o = none ∨ ∃ s, d = .text (some s) ∧ o = some s
  | source, d, s => d = .text (some s)
  | exchange, d, s => d = .text (some s)
  | bufferCapacity, d, v => ∃ n, d = .number n ∧ n.IsUnsigned v
  | reconnectDelaySecs, d, v => ∃ n, d = .number n ∧ n.IsUnsigned v

def read : (f : Field) → Document → Except ReadError f.Value
  | name => readName
  | source => readWord
  | exchange => readWord
  | queue => readName
  | bufferCapacity => readSize
  | reconnectDelaySecs => readSeconds

theorem read_eq_ok {f : Field} {d : Document} {v : f.Value} : f.read d = .ok v ↔ f.Says d v := by
  cases f with
  | name | queue => exact readName_eq_ok
  | source | exchange => exact readWord_eq_ok
  | bufferCapacity | reconnectDelaySecs => exact readUnsigned_eq_ok

theorem Says.unique {f : Field} {d : Document} {v w : f.Value} (hv : f.Says d v) (hw : f.Says d w) : v = w := by
  have h := (read_eq_ok.mpr hv).symm.trans (read_eq_ok.mpr hw)
  exact Except.ok.inj h

end Field

def get (s : Settings) : (f : Field) → f.Value
  | .name => s.name
  | .source => s.source
  | .exchange => s.exchange
  | .queue => s.queue
  | .bufferCapacity => s.bufferCapacity
  | .reconnectDelaySecs => s.reconnectDelaySecs

theorem ext_get {s t : Settings} (h : ∀ f, s.get f = t.get f) : s = t := by
  obtain ⟨name, source, exchange, queue, bufferCapacity, reconnectDelaySecs⟩ := s
  obtain rfl : name = t.name := h .name
  obtain rfl : source = t.source := h .source
  obtain rfl : exchange = t.exchange := h .exchange
  obtain rfl : queue = t.queue := h .queue
  obtain rfl : bufferCapacity = t.bufferCapacity := h .bufferCapacity
  obtain rfl : reconnectDelaySecs = t.reconnectDelaySecs := h .reconnectDelaySecs
  rfl

namespace Draft

def get (s : Draft) : (f : Field) → Option f.Value
  | .name => s.name
  | .source => s.source
  | .exchange => s.exchange
  | .queue => s.queue
  | .bufferCapacity => s.bufferCapacity
  | .reconnectDelaySecs => s.reconnectDelaySecs

def set (s : Draft) : (f : Field) → f.Value → Draft
  | .name, v => { s with name := some v }
  | .source, v => { s with source := some v }
  | .exchange, v => { s with exchange := some v }
  | .queue, v => { s with queue := some v }
  | .bufferCapacity, v => { s with bufferCapacity := some v }
  | .reconnectDelaySecs, v => { s with reconnectDelaySecs := some v }

@[simp] theorem get_set_self (s : Draft) (f : Field) (v : f.Value) : (s.set f v).get f = some v := by
  cases f <;> rfl

theorem get_set_of_ne (s : Draft) {f g : Field} (h : g ≠ f) (v : f.Value) : (s.set f v).get g = s.get g := by
  cases f <;> cases g <;> first | rfl | exact absurd rfl h

theorem member_key (s : Draft) (f : Field) (d : Document) :
    s.member f.key d = (do
      refuseSecond (s.get f) f.key
      return s.set f (← f.read d)) := by
  cases f <;> rfl

theorem member_unknown (s : Draft) {name : String} (h : ∀ f : Field, name ≠ f.key) (d : Document) :
    s.member name d = .ok s := by
  have hname : name ≠ "name" := h .name
  have hsource : name ≠ "source" := h .source
  have hexchange : name ≠ "exchange" := h .exchange
  have hqueue : name ≠ "queue" := h .queue
  have hcapacity : name ≠ "buffer_capacity" := h .bufferCapacity
  have hdelay : name ≠ "reconnect_delay_secs" := h .reconnectDelaySecs
  simp [member, hname, hsource, hexchange, hqueue, hcapacity, hdelay]

/-- A field that no member has set yet is set by what its member says. -/
theorem member_first {s : Draft} {f : Field} (h : s.get f = none) (d : Document) :
    s.member f.key d = (f.read d).map (s.set f) := by
  rw [member_key, h]
  rfl

theorem finish_get (s : Draft) (f : Field) : s.finish.get f = (s.get f).getD (Settings.get {} f) := by
  obtain ⟨name, _, _, queue, _, _⟩ := s
  cases f with
  | name => cases name <;> rfl
  | queue => cases queue <;> rfl
  | source | exchange | bufferCapacity | reconnectDelaySecs => rfl

end Draft

/-- Every member that sets a field says a value of it. -/
def Typed (members : List (String × Document)) : Prop :=
  ∀ (f : Field) (d : Document), (f.key, d) ∈ members → ∃ v, f.Says d v

/-- What the members make of a field: the value of its member, or its default. -/
def Field.Holds (members : List (String × Document)) (f : Field) (v : f.Value) : Prop :=
  (∃ d, (f.key, d) ∈ members ∧ f.Says d v) ∨ (∀ d, (f.key, d) ∉ members) ∧ v = Settings.get {} f

def Written (members : List (String × Document)) (s : Settings) : Prop := ∀ f : Field, f.Holds members (s.get f)

/-- A draft after these members. -/
def Draft.Filled (s : Draft) (members : List (String × Document)) : Prop :=
  ∀ f : Field, (∃ d v, (f.key, d) ∈ members ∧ f.Says d v ∧ s.get f = some v) ∨
    (∀ d, (f.key, d) ∉ members) ∧ s.get f = none

section Members

variable {members ms : List (String × Document)} {name : String} {d : Document}

theorem typed_concat : Typed (ms ++ [(name, d)]) ↔ Typed ms ∧ ∀ f : Field, f.key = name → ∃ v, f.Says d v := by
  constructor
  · intro h
    refine ⟨fun f x hx => h f x (List.mem_append_left _ hx), ?_⟩
    rintro f rfl
    exact h f d (by simp)
  · rintro ⟨hms, hlast⟩ f x hx
    rcases List.mem_append.mp hx with hx | hx
    · exact hms f x hx
    · obtain ⟨hkey, rfl⟩ := Prod.mk.inj (List.mem_singleton.mp hx)
      exact hlast f hkey

theorem mem_concat_of_ne {f : Field} (h : f.key ≠ name) {x : Document} :
    (f.key, x) ∈ ms ++ [(name, d)] ↔ (f.key, x) ∈ ms := by
  simp [h]

/-- A member leaves the other fields as they are. -/
theorem Draft.Filled.field_of_ne {s s' : Draft} (h : s.Filled ms) {f : Field} (hkey : f.key ≠ name)
    (hget : s'.get f = s.get f) :
    (∃ x v, (f.key, x) ∈ ms ++ [(name, d)] ∧ f.Says x v ∧ s'.get f = some v) ∨
      (∀ x, (f.key, x) ∉ ms ++ [(name, d)]) ∧ s'.get f = none := by
  simp only [mem_concat_of_ne hkey, hget]
  exact h f

/-- One more member fills the draft, or it is refused because it says no value of its field. -/
theorem Draft.Filled.member {s : Draft} (h : s.Filled ms) (hnew : ∀ x, (name, x) ∉ ms) :
    (∃ s', s.member name d = .ok s' ∧ s'.Filled (ms ++ [(name, d)]) ∧ ∀ f : Field, f.key = name → ∃ v, f.Says d v) ∨
      (∃ e, s.member name d = .error e) ∧ ∃ f : Field, f.key = name ∧ ∀ v, ¬ f.Says d v := by
  by_cases hknown : ∃ f : Field, f.key = name
  · obtain ⟨f, rfl⟩ := hknown
    have hfirst : s.get f = none := by
      rcases h f with ⟨x, _, hx, _⟩ | ⟨-, hnone⟩
      · exact absurd hx (hnew x)
      · exact hnone
    rw [member_first hfirst]
    cases hread : f.read d with
    | ok v =>
      have hsays := Field.read_eq_ok.mp hread
      refine .inl ⟨s.set f v, rfl, fun g => ?_, fun g hg => ?_⟩
      · by_cases hg : g = f
        · subst hg
          exact .inl ⟨d, v, by simp, hsays, get_set_self s g v⟩
        · exact h.field_of_ne (fun hkey => hg (Field.key_injective hkey)) (get_set_of_ne s hg v)
      · obtain rfl := Field.key_injective hg
        exact ⟨v, hsays⟩
    | error e =>
      refine .inr ⟨⟨e, rfl⟩, f, rfl, fun v hv => ?_⟩
      rw [Field.read_eq_ok.mpr hv] at hread
      cases hread
  · have hunknown : ∀ f : Field, f.key ≠ name := fun f hf => hknown ⟨f, hf⟩
    refine .inl ⟨s, member_unknown s (fun f => (hunknown f).symm) d, fun f => ?_, fun f hf => absurd hf (hunknown f)⟩
    exact h.field_of_ne (hunknown f) rfl

/-- Members with different names fill a draft if each says a value of its field. -/
theorem foldlM_fill (hnames : (members.map Prod.fst).Nodup) :
    (∃ s, (members.map fun m => (some m.1, m.2)).foldlM reader.fill {} = .ok s ∧ s.Filled members ∧ Typed members) ∨
      (∃ e, (members.map fun m => (some m.1, m.2)).foldlM reader.fill {} = .error e) ∧ ¬ Typed members := by
  induction members using List.reverseRecOn with
  | nil => exact .inl ⟨{}, rfl, fun f => .inr ⟨by simp, by cases f <;> rfl⟩, fun f d hd => by simp at hd⟩
  | append_singleton ms m ih =>
    obtain ⟨name, d⟩ := m
    rw [List.map_append, List.nodup_append] at hnames
    obtain ⟨hms, -, hdisjoint⟩ := hnames
    have hnew : ∀ x, (name, x) ∉ ms := fun x hx =>
      hdisjoint name (List.mem_map_of_mem hx) name (by simp) rfl
    rw [List.map_append, List.foldlM_append, typed_concat]
    rcases ih hms with ⟨s, hfold, hfilled, htyped⟩ | ⟨⟨e, hfold⟩, htyped⟩
    · have hlast : [(some name, d)].foldlM reader.fill s = s.member name d := by
        simp [reader, RecordReader.fill]
      rw [hfold]
      rcases hfilled.member hnew with ⟨s', hmember, hfilled', hsays⟩ | ⟨⟨e, hmember⟩, f, hkey, hsays⟩
      · exact .inl ⟨s', hlast.trans hmember, hfilled', htyped, hsays⟩
      · refine .inr ⟨⟨e, hlast.trans hmember⟩, fun h => ?_⟩
        obtain ⟨v, hv⟩ := h.2 f hkey
        exact hsays v hv
    · rw [hfold]
      exact .inr ⟨⟨e, rfl⟩, fun h => htyped h.1⟩

theorem Draft.Filled.written {s : Draft} (h : s.Filled members) : Written members s.finish := by
  intro f
  rw [Draft.finish_get]
  rcases h f with ⟨d, v, hmem, hsays, hget⟩ | ⟨hnone, hget⟩
  · rw [hget]
    exact .inl ⟨d, hmem, hsays⟩
  · rw [hget]
    exact .inr ⟨hnone, rfl⟩

theorem mem_unique (hnames : (members.map Prod.fst).Nodup) {x y : Document} (hx : (name, x) ∈ members)
    (hy : (name, y) ∈ members) : x = y := by
  have h := List.inj_on_of_nodup_map hnames hx hy rfl
  exact (Prod.mk.inj h).2

theorem Written.unique {s t : Settings} (hs : Written members s) (ht : Written members t)
    (hnames : (members.map Prod.fst).Nodup) : s = t := by
  apply ext_get
  intro f
  rcases hs f with ⟨x, hx, hsx⟩ | ⟨hnone, hs⟩ <;> rcases ht f with ⟨y, hy, hty⟩ | ⟨hnone', ht⟩
  · rw [mem_unique hnames hx hy] at hsx
    exact hsx.unique hty
  · exact absurd hx (hnone' x)
  · exact absurd hy (hnone y)
  · rw [hs, ht]

theorem Written.typed {s : Settings} (h : Written members s) (hnames : (members.map Prod.fst).Nodup) :
    Typed members := by
  intro f d hd
  rcases h f with ⟨x, hx, hsays⟩ | ⟨hnone, -⟩
  · rw [mem_unique hnames hd hx]
    exact ⟨_, hsays⟩
  · exact absurd hd (hnone d)

end Members

end Settings

end AlertRelay
