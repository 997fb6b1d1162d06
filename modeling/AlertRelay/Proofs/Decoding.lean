import AlertRelay.Payload.GitHub
import AlertRelay.Proofs.ReadValues

/-! Which values are read as the records of a payload, and as what. A record is
read from the members of an object or from the elements of an array. -/

namespace AlertRelay

section Steps

variable {ε ε' α β : Type}

theorem bind_eq_ok {x : Except ε α} {f : α → Except ε β} {b : β} :
    x >>= f = .ok b ↔ ∃ a, x = .ok a ∧ f a = .ok b := by
  cases x with
  | error e => exact ⟨nofun, nofun⟩
  | ok a => exact ⟨fun h => ⟨a, rfl, h⟩, fun ⟨_, ha, h⟩ => by cases ha; exact h⟩

theorem bind_eq_error {x : Except ε α} {f : α → Except ε β} {e : ε} :
    x >>= f = .error e ↔ x = .error e ∨ ∃ a, x = .ok a ∧ f a = .error e := by
  constructor
  · intro h
    cases x with
    | error e' =>
      cases h
      exact .inl rfl
    | ok a => exact .inr ⟨a, rfl, h⟩
  · rintro (rfl | ⟨a, rfl, h⟩)
    · rfl
    · exact h

theorem map_eq_ok {x : Except ε α} {f : α → β} {b : β} : x.map f = .ok b ↔ ∃ a, x = .ok a ∧ f a = b := by
  cases x <;> simp [Except.map]

theorem mapError_eq_ok {x : Except ε α} {f : ε → ε'} {a : α} : x.mapError f = .ok a ↔ x = .ok a := by
  cases x <;> simp [Except.mapError]

end Steps

namespace Json

/-- A field of a record, found by its name or by its place. -/
def field? (v : Json) (name : String) (place : Nat) : Option Json :=
  match v with
  | .object members => memberValue? members name
  | .array items => items[place]?
  | _ => none

theorem Proper.field? {v w : Json} (h : v.Proper) {name : String} {place : Nat} (hw : v.field? name place = some w) :
    w.Proper := by
  cases h with
  | object h => exact of_memberValue? h hw
  | array h => exact h w (List.mem_of_getElem? hw)
  | null | bool | int | float | text => cases hw

/-- A field that is there and is read as `a`. -/
def FieldReads {α : Type} (v : Json) (name : String) (place : Nat) (read : Json → Except Mismatch α) (a : α) : Prop :=
  ∃ w, v.field? name place = some w ∧ read w = .ok a

/-- An object, or an array with so many elements at most. -/
inductive IsRecord (size : Nat) : Json → Prop
  | object (members : List (String × Json)) : IsRecord size (.object members)
  | array {items : List Json} (h : items.length ≤ size) : IsRecord size (.array items)

theorem isRecord_array {size : Nat} {items : List Json} :
    (Json.array items).IsRecord size ↔ items.length ≤ size :=
  ⟨fun | .array h => h, .array⟩

end Json

section Fields

variable {α β : Type} {read : Json → Except Mismatch α} {members : List (String × Json)} {name : String}
variable {shape : RecordShape} {items : List Json}

theorem readMember_eq_ok (name : String) (place : Nat) {o : Option α} : readMember members name read = .ok o ↔
    (∃ a, o = some a ∧ (Json.object members).FieldReads name place read a) ∨
      (Json.object members).field? name place = none ∧ o = none := by
  unfold readMember Json.FieldReads Json.field?
  split <;> cases o <;> simp [map_eq_ok, *]

theorem readMember_eq_ok_some (place : Nat) {a : α} :
    readMember members name read = .ok (some a) ↔ (Json.object members).FieldReads name place read a := by
  simp [readMember_eq_ok name place]

theorem requireField_eq_ok {o : Option α} {a : α} : requireField name o = .ok a ↔ o = some a := by
  cases o <;> simp [requireField]

/-- The elements are taken one after the other. -/
theorem readElement_bind_eq_ok (name : String) (place : Nat) {f : α × List Json → Except Mismatch β} {b : β} :
    readElement shape place read (items.drop place) >>= f = .ok b ↔
      ∃ a, (Json.array items).FieldReads name place read a ∧ f (a, items.drop (place + 1)) = .ok b := by
  rw [bind_eq_ok]
  unfold Json.FieldReads Json.field?
  by_cases h : place < items.length
  · rw [List.drop_eq_getElem_cons h]
    simp only [readElement, map_eq_ok, List.getElem?_eq_getElem h, Option.some.injEq]
    constructor
    · rintro ⟨_, ⟨a, hread, rfl⟩, hf⟩
      exact ⟨a, ⟨_, rfl, hread⟩, hf⟩
    · rintro ⟨a, ⟨_, rfl, hread⟩, hf⟩
      exact ⟨_, ⟨a, hread, rfl⟩, hf⟩
  · rw [List.drop_eq_nil_of_le (Nat.le_of_not_lt h)]
    simp [readElement, List.getElem?_eq_none (Nat.le_of_not_lt h)]

theorem readElement_first_bind_eq_ok (name : String) {f : α × List Json → Except Mismatch β} {b : β} :
    readElement shape 0 read items >>= f = .ok b ↔
      ∃ a, (Json.array items).FieldReads name 0 read a ∧ f (a, items.drop 1) = .ok b :=
  readElement_bind_eq_ok name 0

theorem endElements_bind_eq_ok {place : Nat} {f : Unit → Except Mismatch β} {b : β} :
    endElements items (items.drop place) >>= f = .ok b ↔ (Json.array items).IsRecord place ∧ f () = .ok b := by
  rw [Json.isRecord_array]
  by_cases h : items.length ≤ place <;> simp [endElements, h, bind, Except.bind]

end Fields

theorem Release.ofJson_eq_ok {v : Json} {r : Release} : Release.ofJson v = .ok r ↔
    v.IsRecord 2 ∧ v.FieldReads "release_name" 0 Json.asText r.releaseName ∧
      v.FieldReads "tag_name" 1 Json.asText r.tagName := by
  obtain ⟨releaseName, tagName⟩ := r
  cases v with
  | object members =>
    simp only [ofJson, bind_eq_ok, requireField_eq_ok, ← readMember_eq_ok_some]
    constructor
    · rintro ⟨_, h0, _, h1, _, rfl, _, rfl, h⟩
      cases h
      exact ⟨.object _, h0, h1⟩
    · rintro ⟨-, h0, h1⟩
      exact ⟨_, h0, _, h1, _, rfl, _, rfl, rfl⟩
  | array items =>
    simp only [ofJson, readElement_first_bind_eq_ok "release_name", readElement_bind_eq_ok "tag_name",
      endElements_bind_eq_ok]
    constructor
    · rintro ⟨_, h0, _, h1, hrecord, h⟩
      cases h
      exact ⟨hrecord, h0, h1⟩
    · rintro ⟨hrecord, h0, h1⟩
      exact ⟨_, h0, _, h1, hrecord, rfl⟩
  | null | bool | int | float | text => exact ⟨nofun, nofun⟩

theorem RepoMetadata.ofJson_eq_ok {v : Json} {m : RepoMetadata} : RepoMetadata.ofJson v = .ok m ↔
    v.IsRecord 4 ∧ v.FieldReads "repo_name" 0 Json.asText m.repoName ∧
      v.FieldReads "last_monitored" 1 Json.asReal m.lastMonitored ∧
      v.FieldReads "repo_parent_id" 2 Json.asText m.repoParentId ∧ v.FieldReads "repo_id" 3 Json.asText m.repoId := by
  obtain ⟨repoName, lastMonitored, repoParentId, repoId⟩ := m
  cases v with
  | object members =>
    simp only [ofJson, bind_eq_ok, requireField_eq_ok, ← readMember_eq_ok_some]
    constructor
    · rintro ⟨_, h1, _, h3, _, h0, _, h2, _, rfl, _, rfl, _, rfl, _, rfl, h⟩
      cases h
      exact ⟨.object _, h0, h1, h2, h3⟩
    · rintro ⟨-, h0, h1, h2, h3⟩
      exact ⟨_, h1, _, h3, _, h0, _, h2, _, rfl, _, rfl, _, rfl, _, rfl, rfl⟩
  | array items =>
    simp only [ofJson, readElement_first_bind_eq_ok "repo_name", readElement_bind_eq_ok "last_monitored" 1,
      readElement_bind_eq_ok "repo_parent_id" 2, readElement_bind_eq_ok "repo_id" 3, endElements_bind_eq_ok]
    constructor
    · rintro ⟨_, h0, _, h1, _, h2, _, h3, hrecord, h⟩
      cases h
      exact ⟨hrecord, h0, h1, h2, h3⟩
    · rintro ⟨hrecord, h0, h1, h2, h3⟩
      exact ⟨_, h0, _, h1, _, h2, _, h3, hrecord, rfl⟩
  | null | bool | int | float | text => exact ⟨nofun, nofun⟩

theorem RepoFailure.ofJson_eq_ok {v : Json} {f : RepoFailure} : RepoFailure.ofJson v = .ok f ↔
    v.IsRecord 4 ∧ v.FieldReads "repo_name" 0 Json.asText f.repoName ∧ v.FieldReads "time" 1 Json.asReal f.time ∧
      v.FieldReads "repo_parent_id" 2 Json.asText f.repoParentId ∧ v.FieldReads "repo_id" 3 Json.asText f.repoId := by
  obtain ⟨repoName, time, repoParentId, repoId⟩ := f
  cases v with
  | object members =>
    simp only [ofJson, bind_eq_ok, requireField_eq_ok, ← readMember_eq_ok_some]
    constructor
    · rintro ⟨_, h3, _, h0, _, h2, _, h1, _, rfl, _, rfl, _, rfl, _, rfl, h⟩
      cases h
      exact ⟨.object _, h0, h1, h2, h3⟩
    · rintro ⟨-, h0, h1, h2, h3⟩
      exact ⟨_, h3, _, h0, _, h2, _, h1, _, rfl, _, rfl, _, rfl, _, rfl, rfl⟩
  | array items =>
    simp only [ofJson, readElement_first_bind_eq_ok "repo_name", readElement_bind_eq_ok "time" 1,
      readElement_bind_eq_ok "repo_parent_id" 2, readElement_bind_eq_ok "repo_id" 3, endElements_bind_eq_ok]
    constructor
    · rintro ⟨_, h0, _, h1, _, h2, _, h3, hrecord, h⟩
      cases h
      exact ⟨hrecord, h0, h1, h2, h3⟩
    · rintro ⟨hrecord, h0, h1, h2, h3⟩
      exact ⟨_, h0, _, h1, _, h2, _, h3, hrecord, rfl⟩
  | null | bool | int | float | text => exact ⟨nofun, nofun⟩

/-- The earlier count may be missing from an object, but not from an array. -/
theorem Counter.ofJson_eq_ok {v : Json} {c : Counter} : Counter.ofJson v = .ok c ↔
    v.IsRecord 2 ∧ v.FieldReads "current" 0 Json.asSigned c.current ∧
      (v.FieldReads "previous" 1 (Json.orNull Json.asSigned) c.previous ∨
        (∃ members, v = .object members) ∧ v.field? "previous" 1 = none ∧ c.previous = none) := by
  obtain ⟨current, previous⟩ := c
  cases v with
  | object members =>
    simp only [ofJson, bind_eq_ok, requireField_eq_ok, readMember_eq_ok "previous" 1]
    constructor
    · rintro ⟨_, h0, _, h1, _, rfl, h⟩
      cases h
      refine ⟨.object _, (readMember_eq_ok_some 0).mp h0, ?_⟩
      rcases h1 with ⟨_, rfl, h1⟩ | ⟨hnone, rfl⟩
      · exact .inl h1
      · exact .inr ⟨⟨_, rfl⟩, hnone, rfl⟩
    · rintro ⟨-, h0, h1⟩
      have h0 := (readMember_eq_ok_some 0).mpr h0
      rcases h1 with h1 | ⟨-, hnone, rfl⟩
      · exact ⟨_, h0, _, .inl ⟨_, rfl, h1⟩, _, rfl, rfl⟩
      · exact ⟨_, h0, _, .inr ⟨hnone, rfl⟩, _, rfl, rfl⟩
  | array items =>
    simp only [ofJson, readElement_first_bind_eq_ok "current", readElement_bind_eq_ok "previous" 1,
      endElements_bind_eq_ok]
    constructor
    · rintro ⟨_, h0, _, h1, hrecord, h⟩
      cases h
      exact ⟨hrecord, h0, .inl h1⟩
    · rintro ⟨hrecord, h0, h1 | ⟨⟨_, hobject⟩, _⟩⟩
      · exact ⟨_, h0, _, h1, hrecord, rfl⟩
      · cases hobject
  | null | bool | int | float | text => exact ⟨nofun, nofun⟩

theorem ReleaseData.ofJson_eq_ok {v : Json} {d : ReleaseData} : ReleaseData.ofJson v = .ok d ↔
    v.IsRecord 2 ∧ v.FieldReads "no_of_releases" 0 Counter.ofJson d.counter ∧
      (v.FieldReads "releases" 1 releasesOfJson d.releases ∨ v.field? "releases" 1 = none ∧ d.releases = []) := by
  obtain ⟨counter, releases⟩ := d
  cases v with
  | object members =>
    simp only [ofJson, bind_eq_ok, requireField_eq_ok, readMember_eq_ok "releases" 1]
    constructor
    · rintro ⟨_, h0, _, h1, _, rfl, h⟩
      cases h
      refine ⟨.object _, (readMember_eq_ok_some 0).mp h0, ?_⟩
      rcases h1 with ⟨_, rfl, h1⟩ | ⟨hnone, rfl⟩
      · exact .inl h1
      · exact .inr ⟨hnone, rfl⟩
    · rintro ⟨-, h0, h1⟩
      have h0 := (readMember_eq_ok_some 0).mpr h0
      rcases h1 with h1 | ⟨hnone, rfl⟩
      · exact ⟨_, h0, _, .inl ⟨_, rfl, h1⟩, _, rfl, rfl⟩
      · exact ⟨_, h0, _, .inr ⟨hnone, rfl⟩, _, rfl, rfl⟩
  | array items =>
    simp only [ofJson, readElement_first_bind_eq_ok "no_of_releases"]
    rcases hrest : items.drop 1 with _ | ⟨w, rest⟩
    · have hlen : items.length ≤ 1 := List.drop_eq_nil_iff.mp hrest
      have hnone : (Json.array items).field? "releases" 1 = none := List.getElem?_eq_none hlen
      constructor
      · rintro ⟨_, h0, h⟩
        cases h
        exact ⟨.array (by omega), h0, .inr ⟨hnone, rfl⟩⟩
      · rintro ⟨-, h0, ⟨_, hsome, _⟩ | ⟨-, rfl⟩⟩
        · rw [hnone] at hsome
          cases hsome
        · exact ⟨_, h0, rfl⟩
    · dsimp only
      rw [← hrest]
      simp only [readElement_bind_eq_ok "releases" 1, endElements_bind_eq_ok]
      constructor
      · rintro ⟨_, h0, _, h1, hrecord, h⟩
        cases h
        exact ⟨hrecord, h0, .inl h1⟩
      · rintro ⟨hrecord, h0, h1 | ⟨hnone, -⟩⟩
        · exact ⟨_, h0, _, h1, hrecord, rfl⟩
        · have hnil := List.drop_eq_nil_iff.mpr (List.getElem?_eq_none_iff.mp hnone)
          rw [hrest] at hnil
          cases hnil
  | null | bool | int | float | text => exact ⟨nofun, nofun⟩

section Releases

theorem releasesOfJson_cons (m : String × Json) (members : List (String × Json)) :
    releasesOfJson (.object (m :: members)) = do
      let r ← Release.ofJson m.2
      let rs ← releasesOfJson (.object members)
      return (m.1, r) :: rs := by
  simp only [releasesOfJson, List.mapM_cons]
  cases Release.ofJson m.2 <;> rfl

theorem releasesOfJson_cons_eq_ok {m : String × Json} {members : List (String × Json)}
    {releases : List (String × Release)} : releasesOfJson (.object (m :: members)) = .ok releases ↔
      ∃ r, Release.ofJson m.2 = .ok r ∧
        ∃ rs, releasesOfJson (.object members) = .ok rs ∧ releases = (m.1, r) :: rs := by
  simp only [releasesOfJson_cons, bind_eq_ok]
  constructor
  · rintro ⟨r, hr, rs, hrs, h⟩
    cases h
    exact ⟨r, hr, rs, hrs, rfl⟩
  · rintro ⟨r, hr, rs, hrs, rfl⟩
    exact ⟨r, hr, rs, hrs, rfl⟩

/-- Every member has to be a release. -/
theorem releasesOfJson_isOk {members : List (String × Json)} :
    (∃ rs, releasesOfJson (.object members) = .ok rs) ↔ ∀ m ∈ members, ∃ r, Release.ofJson m.2 = .ok r := by
  induction members with
  | nil => exact ⟨fun _ => by simp, fun _ => ⟨[], rfl⟩⟩
  | cons m members ih =>
    rw [List.forall_mem_cons, ← ih]
    constructor
    · rintro ⟨_, h⟩
      obtain ⟨r, hr, rs, hrs, _⟩ := releasesOfJson_cons_eq_ok.mp h
      exact ⟨⟨r, hr⟩, rs, hrs⟩
    · rintro ⟨⟨r, hr⟩, rs, hrs⟩
      exact ⟨_, releasesOfJson_cons_eq_ok.mpr ⟨r, hr, rs, hrs, rfl⟩⟩

/-- Releases have the names of the members that they are read from. -/
theorem lookup_releasesOfJson {members : List (String × Json)} {releases : List (String × Release)}
    (h : releasesOfJson (.object members) = .ok releases) (name : String) :
    (memberValue? members name).map Release.ofJson = (releases.lookup name).map .ok := by
  induction members generalizing releases with
  | nil =>
    cases h
    rfl
  | cons m members ih =>
    obtain ⟨r, hr, rs, hrs, rfl⟩ := releasesOfJson_cons_eq_ok.mp h
    have hrest := ih hrs
    obtain ⟨n, v⟩ := m
    unfold memberValue? at hrest ⊢
    rw [List.lookup_cons, List.lookup_cons]
    cases name == n with
    | true => simpa using hr
    | false => exact hrest

end Releases

section Scalars

variable {v : Json}

theorem Json.asText_eq_ok {s : String} : v.asText = .ok s ↔ v = .text s := by
  cases v <;> simp [asText, wrongType]

theorem Json.asReal_eq_ok {x : Float} : v.asReal = .ok x ↔ (∃ n, v = .int n ∧ intToFloat n = x) ∨ v = .float x := by
  cases v <;> simp [asReal, wrongType]

theorem Json.asSigned_eq_ok {n : Int} : v.asSigned = .ok n ↔ v = .int n ∧ n < 2 ^ 63 := by
  have hhalf : UInt64.size / 2 = 2 ^ 63 := rfl
  cases v with
  | int i =>
    simp only [asSigned, hhalf, Json.int.injEq]
    split <;> simp <;> omega
  | null | bool | float | text | array | object => simp [asSigned, wrongType]

theorem Json.orNull_eq_ok {α : Type} {read : Json → Except Mismatch α} {o : Option α} :
    v.orNull read = .ok o ↔ v = .null ∧ none = o ∨ v ≠ .null ∧ ∃ a, read v = .ok a ∧ some a = o := by
  cases v <;> simp [orNull, map_eq_ok]

end Scalars

section Payloads

theorem readContent_eq_ok {α : Type} {parent : Json} {name : String} {read : Json → Except Mismatch α} {a : α} :
    readContent parent name read = .ok a ↔ ∃ w, parent.get? name = some w ∧ read w = .ok a := by
  unfold readContent
  split <;> simp [mapError_eq_ok, *]

variable {payload : Json}

/-- A `result` is read whatever else there is. -/
theorem GitHubResult.ofJson_of_result {result : Json} (h : payload.get? "result" = some result) :
    GitHubResult.ofJson payload = do
      let m ← readContent result "meta_data" RepoMetadata.ofJson
      let d ← readContent result "data" ReleaseData.ofJson
      return .success m d := by
  cases payload with
  | object members =>
    have hresult : memberValue? members "result" = some result := h
    simp only [GitHubResult.ofJson, Envelope.ofJson, hresult]
  | null | bool | int | float | text | array => cases h

theorem GitHubResult.ofJson_of_error {error : Json} (hresult : payload.get? "result" = none)
    (herror : payload.get? "error" = some error) : GitHubResult.ofJson payload = do
      return .failure (← readContent error "meta_data" RepoFailure.ofJson) := by
  cases payload with
  | object members =>
    have hnone : memberValue? members "result" = none := hresult
    have hsome : memberValue? members "error" = some error := herror
    simp only [GitHubResult.ofJson, Envelope.ofJson, hnone, hsome]
  | null | bool | int | float | text | array => cases herror

theorem GitHubResult.ofJson_object_of_neither {members : List (String × Json)}
    (hresult : memberValue? members "result" = none) (herror : memberValue? members "error" = none) :
    GitHubResult.ofJson (.object members) = .error (.unrecognized .noOutcome) := by
  simp only [GitHubResult.ofJson, Envelope.ofJson, hresult, herror]

theorem GitHubResult.ofJson_of_neither (hresult : payload.get? "result" = none) (herror : payload.get? "error" = none) :
    GitHubResult.ofJson payload = .error (.unrecognized .noOutcome) ∨
      GitHubResult.ofJson payload = .error (.unrecognized .notObject) := by
  cases payload with
  | object members => exact .inl (ofJson_object_of_neither hresult herror)
  | null | bool | int | float | text | array => exact .inr rfl

/-- A result is read from the `result` of a payload, or from its `error` if there is no `result`. -/
theorem GitHubResult.ofJson_eq_ok {r : GitHubResult} : GitHubResult.ofJson payload = .ok r ↔
    (∃ result m d, payload.get? "result" = some result ∧ r = .success m d ∧
      (∃ w, result.get? "meta_data" = some w ∧ RepoMetadata.ofJson w = .ok m) ∧
      ∃ w, result.get? "data" = some w ∧ ReleaseData.ofJson w = .ok d) ∨
    (payload.get? "result" = none ∧ ∃ error f, payload.get? "error" = some error ∧ r = .failure f ∧
      ∃ w, error.get? "meta_data" = some w ∧ RepoFailure.ofJson w = .ok f) := by
  simp only [← readContent_eq_ok]
  cases hresult : payload.get? "result" with
  | some result =>
    simp only [ofJson_of_result hresult, bind_eq_ok]
    constructor
    · rintro ⟨m, hm, d, hd, h⟩
      cases h
      exact .inl ⟨result, m, d, rfl, rfl, hm, hd⟩
    · rintro (⟨_, m, d, ⟨⟩, rfl, hm, hd⟩ | ⟨h, _⟩)
      · exact ⟨m, hm, d, hd, rfl⟩
      · cases h
  | none =>
    cases herror : payload.get? "error" with
    | some error =>
      simp only [ofJson_of_error hresult herror, bind_eq_ok]
      constructor
      · rintro ⟨f, hf, h⟩
        cases h
        exact .inr ⟨trivial, error, f, rfl, rfl, hf⟩
      · rintro (⟨_, _, _, h, _⟩ | ⟨-, _, f, ⟨⟩, rfl, hf⟩)
        · cases h
        · exact ⟨f, hf, rfl⟩
    | none =>
      constructor
      · intro h
        rcases ofJson_of_neither hresult herror with he | he <;> rw [he] at h <;> cases h
      · rintro (⟨_, _, _, h, _⟩ | ⟨-, _, _, h, _⟩) <;> cases h

theorem readContent_eq_error {α : Type} {parent : Json} {name : String} {read : Json → Except Mismatch α}
    {e : Rejection} (h : readContent parent name read = .error e) : ∃ fault, e = .unrecognized fault := by
  unfold readContent at h
  split at h
  · cases h
    exact ⟨_, rfl⟩
  · next w _ =>
    cases hw : read w <;> rw [hw] at h <;> cases h
    exact ⟨_, rfl⟩

/-- What is not read is unrecognized. -/
theorem GitHubResult.ofJson_eq_error {e : Rejection} (h : GitHubResult.ofJson payload = .error e) :
    ∃ fault, e = .unrecognized fault := by
  cases hresult : payload.get? "result" with
  | some result =>
    rw [ofJson_of_result hresult, bind_eq_error] at h
    rcases h with hm | ⟨m, -, h⟩
    · exact readContent_eq_error hm
    · rcases bind_eq_error.mp h with hd | ⟨d, -, h⟩
      · exact readContent_eq_error hd
      · cases h
  | none =>
    cases herror : payload.get? "error" with
    | some error =>
      rw [ofJson_of_error hresult herror, bind_eq_error] at h
      rcases h with hf | ⟨f, -, h⟩
      · exact readContent_eq_error hf
      · cases h
    | none =>
      rcases ofJson_of_neither hresult herror with he | he <;> rw [he] at h <;> cases h <;> exact ⟨_, rfl⟩

end Payloads

end AlertRelay
