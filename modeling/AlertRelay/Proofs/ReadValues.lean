import AlertRelay.Json.Scan
import AlertRelay.Proofs.Numerals

/-! What the values have in common that are read from texts: integers fit 64 bits,
doubles are finite, and the members of an object come in the order of their names. -/

namespace AlertRelay

section Members

theorem mem_insertMember {name : String} {v : Json} {m : String × Json} {members : List (String × Json)}
    (h : m ∈ insertMember name v members) : m = (name, v) ∨ m ∈ members := by
  induction members with
  | nil => exact .inl (List.mem_singleton.mp h)
  | cons n rest ih =>
    unfold insertMember at h
    split at h
    · exact List.mem_cons.mp h
    split at h
    · exact .inr h
    · rcases List.mem_cons.mp h with rfl | h
      · exact .inr List.mem_cons_self
      · exact (ih h).imp_right (List.mem_cons_of_mem _)

theorem mem_orderMembers {m : String × Json} {members : List (String × Json)} (h : m ∈ orderMembers members) :
    m ∈ members := by
  induction members with
  | nil => exact h
  | cons n rest ih =>
    rcases mem_insertMember h with rfl | h
    · exact List.mem_cons_self
    · exact List.mem_cons_of_mem _ (ih h)

/-- No name comes twice, and each comes before the greater ones. -/
def Ascending (members : List (String × Json)) : Prop := members.Pairwise fun m n => m.1 < n.1

instance (members : List (String × Json)) : Decidable (Ascending members) :=
  inferInstanceAs (Decidable (members.Pairwise _))

theorem Ascending.insertMember {members : List (String × Json)} (h : Ascending members) (name : String) (v : Json) :
    Ascending (insertMember name v members) := by
  induction members with
  | nil => exact List.pairwise_singleton _ _
  | cons m rest ih =>
    obtain ⟨hfirst, hrest⟩ := List.pairwise_cons.mp h
    unfold AlertRelay.insertMember
    split
    · next hlt =>
      refine List.pairwise_cons.mpr ⟨fun n hn => ?_, h⟩
      rcases List.mem_cons.mp hn with rfl | hn
      · exact hlt
      · exact String.lt_trans hlt (hfirst n hn)
    · next hlt =>
      split
      · exact h
      · next hne =>
        refine List.pairwise_cons.mpr ⟨fun n hn => ?_, ih hrest⟩
        rcases mem_insertMember hn with rfl | hn
        · exact Decidable.byContradiction fun hgt =>
            hne (String.le_antisymm (String.not_lt.mp hgt) (String.not_lt.mp hlt))
        · exact hfirst n hn

theorem orderMembers_ascending (members : List (String × Json)) : Ascending (orderMembers members) := by
  induction members with
  | nil => exact List.Pairwise.nil
  | cons m rest ih => exact ih.insertMember m.1 m.2

theorem Ascending.lookup {members : List (String × Json)} (h : Ascending members) {m : String × Json}
    (hm : m ∈ members) : memberValue? members m.1 = some m.2 := by
  induction members with
  | nil => cases hm
  | cons n rest ih =>
    obtain ⟨hfirst, hrest⟩ := List.pairwise_cons.mp h
    unfold memberValue? at ih ⊢
    rcases List.mem_cons.mp hm with rfl | hm
    · exact List.lookup_cons_self
    · have hne : (m.1 == n.1) = false := by
        rw [beq_eq_false_iff_ne]
        rintro heq
        exact String.lt_irrefl _ (heq ▸ hfirst m hm)
      rw [List.lookup_cons, hne]
      exact ih hrest hm

end Members

/-- A property that scalars have and that containers have if their parts do. -/
structure Json.Inherited (P : Json → Prop) : Prop where
  null : P .null
  bool (b : Bool) : P (.bool b)
  number {n : Numeral} {v : Json} (h : n.value? = some v) : P v
  text (s : String) : P (.text s)
  array {items : List Json} (h : ∀ v ∈ items, P v) : P (.array items)
  object {members : List (String × Json)} (h : ∀ m ∈ members, P m.2) : P (.object (orderMembers members))

namespace Json.Inherited

variable {P : Json → Prop}

mutual

theorem valueWithin (h : Inherited P) :
    ∀ (d : Document) (depth : Nat) (v : Json), d.valueWithin depth = some v → P v
  | .null, _, _, hv => by
    cases hv
    exact h.null
  | .bool b, _, _, hv => by
    cases hv
    exact h.bool b
  | .number n, _, _, hv => h.number hv
  | .text s, _, _, hv => by
    obtain ⟨s, _, rfl⟩ := Option.map_eq_some_iff.mp hv
    exact h.text s
  | .array items closed, depth + 1, _, hv => by
    unfold Document.valueWithin at hv
    split at hv
    · obtain ⟨vs, hvs, rfl⟩ := Option.map_eq_some_iff.mp hv
      exact h.array (h.itemValues items depth vs hvs)
    · cases hv
  | .object members closed, depth + 1, _, hv => by
    unfold Document.valueWithin at hv
    split at hv
    · obtain ⟨ms, hms, rfl⟩ := Option.map_eq_some_iff.mp hv
      exact h.object (h.memberValues members depth ms hms)
    · cases hv

theorem itemValues (h : Inherited P) :
    ∀ (ds : List Document) (depth : Nat) (vs : List Json), itemValues ds depth = some vs → ∀ v ∈ vs, P v
  | [], _, _, hvs => by
    cases hvs
    simp
  | d :: rest, depth, _, hvs => by
    unfold AlertRelay.itemValues at hvs
    split at hvs
    · cases hvs
    · next v hv =>
      obtain ⟨vs, hrest, rfl⟩ := Option.map_eq_some_iff.mp hvs
      intro w hw
      rcases List.mem_cons.mp hw with rfl | hw
      · exact h.valueWithin d depth w hv
      · exact h.itemValues rest depth vs hrest w hw

theorem memberValues (h : Inherited P) :
    ∀ (ds : List (Option String × Document)) (depth : Nat) (ms : List (String × Json)),
      memberValues ds depth = some ms → ∀ m ∈ ms, P m.2
  | [], _, _, hms => by
    cases hms
    simp
  | (name, d) :: rest, depth, _, hms => by
    unfold AlertRelay.memberValues at hms
    split at hms
    · next n v hv =>
      obtain ⟨ms, hrest, rfl⟩ := Option.map_eq_some_iff.mp hms
      intro m hm
      rcases List.mem_cons.mp hm with rfl | hm
      · exact h.valueWithin d depth _ hv
      · exact h.memberValues rest depth ms hrest m hm
    · cases hms

end

theorem of_readJsonBytes? (h : Inherited P) {body : ByteArray} {v : Json} (hv : readJsonBytes? body = some v) :
    P v := by
  obtain ⟨s, _, hv⟩ := Option.bind_eq_some_iff.mp hv
  unfold readJson? at hv
  split at hv
  · next d _ => exact h.valueWithin d depthLimit v hv
  · cases hv

end Json.Inherited

theorem Significand.pushWhole_lt {s : Significand} (h : s.value < UInt64.size) (d : Nat) :
    (s.pushWhole d).value < UInt64.size := by
  unfold pushWhole
  split
  · next hfits => exact of_decide_eq_true (Bool.and_eq_true_iff.mp hfits).2
  · exact h

theorem Numeral.wholePart_lt (n : Numeral) : n.wholePart.value < UInt64.size :=
  List.foldlRecOn (motive := fun s : Significand => s.value < UInt64.size) n.whole _ (by decide)
    fun _ hs d _ => Significand.pushWhole_lt hs d

theorem Numeral.int?_bounds {n : Numeral} {i : Int} (h : n.int? = some i) : -2 ^ 63 ≤ i ∧ i < 2 ^ 64 := by
  have hwhole : n.wholePart.value < 2 ^ 64 := n.wholePart_lt
  have hhalf : UInt64.size / 2 = 2 ^ 63 := rfl
  simp only [int?, hhalf] at h
  split at h
  · split at h
    · obtain rfl := Option.some.inj h
      omega
    · split at h
      · next hs =>
        obtain rfl := Option.some.inj h
        omega
      · cases h
  · cases h

/-- A numeral is read as an integer of 64 bits or as a finite double. -/
theorem Numeral.value?_cases {n : Numeral} {v : Json} (h : n.value? = some v) :
    (∃ i : Int, v = .int i ∧ -2 ^ 63 ≤ i ∧ i < 2 ^ 64) ∨ ∃ x : Float, v = .float x ∧ x.isFinite = true := by
  have hread := h
  unfold value? at h
  split at h
  · next i hi =>
    cases h
    exact .inl ⟨i, rfl, int?_bounds hi⟩
  · obtain ⟨_, _, rfl⟩ := Option.map_eq_some_iff.mp h
    exact .inr ⟨_, rfl, isFinite_of_value? hread⟩

/-- A value as it may be read from a text. -/
inductive Json.Proper : Json → Prop
  | null : Json.null.Proper
  | bool (b : Bool) : (Json.bool b).Proper
  | int {n : Int} (h : -2 ^ 63 ≤ n ∧ n < 2 ^ 64) : (Json.int n).Proper
  | float {x : Float} (h : x.isFinite = true) : (Json.float x).Proper
  | text (s : String) : (Json.text s).Proper
  | array {items : List Json} (h : ∀ v ∈ items, v.Proper) : (Json.array items).Proper
  | object {members : List (String × Json)} (h : ∀ m ∈ members, m.2.Proper) (hnames : Ascending members) :
    (Json.object members).Proper

section Parts

@[simp] theorem Json.proper_int {n : Int} : (Json.int n).Proper ↔ -2 ^ 63 ≤ n ∧ n < 2 ^ 64 :=
  ⟨fun | .int h => h, .int⟩

@[simp] theorem Json.proper_text (s : String) : (Json.text s).Proper := .text s

@[simp] theorem Json.proper_array {items : List Json} : (Json.array items).Proper ↔ ∀ v ∈ items, v.Proper :=
  ⟨fun | .array h => h, .array⟩

@[simp] theorem Json.proper_object {members : List (String × Json)} :
    (Json.object members).Proper ↔ (∀ m ∈ members, m.2.Proper) ∧ Ascending members :=
  ⟨fun | .object h hnames => ⟨h, hnames⟩, fun h => .object h.1 h.2⟩

end Parts

theorem Json.proper_inherited : Json.Inherited Json.Proper where
  null := .null
  bool := .bool
  number h := by
    rcases Numeral.value?_cases h with ⟨i, rfl, hi⟩ | ⟨x, rfl, hx⟩
    · exact .int hi
    · exact .float hx
  text := .text
  array := .array
  object h := .object (fun m hm => h m (mem_orderMembers hm)) (orderMembers_ascending _)

/-- Whatever is read from a message is proper. -/
theorem proper_of_readJsonBytes? {body : ByteArray} {v : Json} (h : readJsonBytes? body = some v) : v.Proper :=
  Json.proper_inherited.of_readJsonBytes? h

theorem of_memberValue? {P : Json → Prop} {members : List (String × Json)} (h : ∀ m ∈ members, P m.2) {name : String}
    {v : Json} (hv : memberValue? members name = some v) : P v := by
  obtain ⟨l, r, hmem, _⟩ := List.lookup_eq_some_iff.mp hv
  exact h (name, v) (by rw [hmem]; simp)

theorem Json.Proper.get? {v w : Json} (h : v.Proper) {name : String} (hw : v.get? name = some w) : w.Proper := by
  cases h with
  | object h => exact of_memberValue? h hw
  | null | bool | int | float | text | array => cases hw

end AlertRelay
