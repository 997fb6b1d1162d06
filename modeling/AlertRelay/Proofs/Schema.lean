import AlertRelay.Proofs.Decoding

/-! The form of the payloads of a monitored repository. The schema asks for objects;
the records in it are read from arrays as well, and nothing else is different. -/

namespace AlertRelay

namespace Json

def IsObject (v : Json) : Prop := ∃ members, v = .object members

def IsArray (v : Json) : Prop := ∃ items, v = .array items

def IsText (v : Json) : Prop := ∃ s, v = .text s

def IsNumber (v : Json) : Prop := (∃ n, v = .int n) ∨ ∃ x, v = .float x

def IsCount (v : Json) : Prop := ∃ n, v = .int n ∧ Signed n

end Json

/-- Where the fields of a record are found. -/
structure RecordForm where
  IsRecord : Nat → Json → Prop
  field? : Json → String → Nat → Option Json

/-- Records are objects. -/
def RecordForm.objects : RecordForm := ⟨fun _ v => v.IsObject, fun v name _ => v.get? name⟩

/-- Records are objects, or arrays of their fields in order. -/
def RecordForm.rows : RecordForm := ⟨fun size v => v.IsRecord size, Json.field?⟩

section Schema

variable (form : RecordForm)

def RecordForm.FieldIs (v : Json) (name : String) (place : Nat) (P : Json → Prop) : Prop :=
  ∃ w, form.field? v name place = some w ∧ P w

/-- A repository at some time. -/
structure Json.IsRepo (time : String) (v : Json) : Prop where
  record : form.IsRecord 4 v
  name : form.FieldIs v "repo_name" 0 IsText
  time : form.FieldIs v time 1 IsNumber
  parentId : form.FieldIs v "repo_parent_id" 2 IsText
  id : form.FieldIs v "repo_id" 3 IsText

/-- Only an object may be without an earlier count. -/
structure Json.IsCounter (v : Json) : Prop where
  record : form.IsRecord 2 v
  current : form.FieldIs v "current" 0 IsCount
  previous : form.FieldIs v "previous" 1 (fun w => w = .null ∨ w.IsCount) ∨ v.IsObject ∧ v.get? "previous" = none

structure Json.IsRelease (v : Json) : Prop where
  record : form.IsRecord 2 v
  releaseName : form.FieldIs v "release_name" 0 IsText
  tagName : form.FieldIs v "tag_name" 1 IsText

def Json.IsReleases (v : Json) : Prop := ∃ members, v = .object members ∧ ∀ m ∈ members, m.2.IsRelease form

structure Json.IsReleaseData (v : Json) : Prop where
  record : form.IsRecord 2 v
  counter : form.FieldIs v "no_of_releases" 0 (IsCounter form)
  releases : form.FieldIs v "releases" 1 (IsReleases form) ∨ form.field? v "releases" 1 = none

structure Json.IsSuccess (v : Json) : Prop where
  metadata : ∃ w, v.get? "meta_data" = some w ∧ w.IsRepo form "last_monitored"
  data : ∃ w, v.get? "data" = some w ∧ w.IsReleaseData form

def Json.IsFailure (v : Json) : Prop := ∃ w, v.get? "meta_data" = some w ∧ w.IsRepo form "time"

/-- An object with a `result`, or without one and with an `error`. -/
def Json.IsPayload (v : Json) : Prop :=
  (∃ result, v.get? "result" = some result ∧ result.IsSuccess form) ∨
    v.get? "result" = none ∧ ∃ error, v.get? "error" = some error ∧ error.IsFailure form

end Schema

section Readers

variable {v : Json}

theorem Json.asText_isOk : (∃ s, v.asText = .ok s) ↔ v.IsText := by
  simp only [asText_eq_ok, IsText]

theorem Json.asReal_isOk : (∃ x, v.asReal = .ok x) ↔ v.IsNumber := by
  simp only [asReal_eq_ok, IsNumber, exists_or]
  constructor
  · rintro (⟨_, n, hn, -⟩ | h)
    · exact .inl ⟨n, hn⟩
    · exact .inr h
  · rintro (⟨n, hn⟩ | h)
    · exact .inl ⟨_, n, hn, rfl⟩
    · exact .inr h

theorem Json.Proper.asSigned_isOk (hv : v.Proper) : (∃ n, v.asSigned = .ok n) ↔ v.IsCount := by
  simp only [asSigned_eq_ok, IsCount]
  constructor
  · rintro ⟨n, rfl, hn⟩
    exact ⟨n, rfl, (proper_int.mp hv).1, hn⟩
  · rintro ⟨n, rfl, hn⟩
    exact ⟨n, rfl, hn.2⟩

theorem Json.Proper.orNull_isOk (hv : v.Proper) :
    (∃ o, v.orNull Json.asSigned = .ok o) ↔ v = .null ∨ v.IsCount := by
  rw [← hv.asSigned_isOk]
  simp only [orNull_eq_ok, exists_or]
  constructor
  · rintro (⟨_, h, -⟩ | ⟨_, -, n, hn, -⟩)
    · exact .inl h
    · exact .inr ⟨n, hn⟩
  · rintro (h | ⟨n, hn⟩)
    · exact .inl ⟨_, h, rfl⟩
    · refine .inr ⟨_, ?_, n, hn, rfl⟩
      rintro rfl
      cases hn

/-- A field is read if its reader reads just the values that are asked for. -/
theorem fieldReads_iff {α : Type} {read : Json → Except Mismatch α} {P : Json → Prop} {name : String} {place : Nat}
    (h : ∀ w, v.field? name place = some w → ((∃ a, read w = .ok a) ↔ P w)) :
    (∃ a, v.FieldReads name place read a) ↔ RecordForm.rows.FieldIs v name place P := by
  constructor
  · rintro ⟨a, w, hw, ha⟩
    exact ⟨w, hw, (h w hw).mp ⟨a, ha⟩⟩
  · rintro ⟨w, hw, hP⟩
    obtain ⟨a, ha⟩ := (h w hw).mpr hP
    exact ⟨a, w, hw, ha⟩

theorem fieldReads_text {name : String} {place : Nat} :
    (∃ s, v.FieldReads name place Json.asText s) ↔ RecordForm.rows.FieldIs v name place Json.IsText :=
  fieldReads_iff fun _ _ => Json.asText_isOk

theorem fieldReads_real {name : String} {place : Nat} :
    (∃ x, v.FieldReads name place Json.asReal x) ↔ RecordForm.rows.FieldIs v name place Json.IsNumber :=
  fieldReads_iff fun _ _ => Json.asReal_isOk

theorem RepoMetadata.ofJson_isOk : (∃ m, RepoMetadata.ofJson v = .ok m) ↔ v.IsRepo .rows "last_monitored" := by
  constructor
  · rintro ⟨m, h⟩
    obtain ⟨hrecord, hname, htime, hparent, hid⟩ := ofJson_eq_ok.mp h
    exact ⟨hrecord, fieldReads_text.mp ⟨_, hname⟩, fieldReads_real.mp ⟨_, htime⟩, fieldReads_text.mp ⟨_, hparent⟩,
      fieldReads_text.mp ⟨_, hid⟩⟩
  · intro h
    obtain ⟨repoName, hname⟩ := fieldReads_text.mpr h.name
    obtain ⟨lastMonitored, htime⟩ := fieldReads_real.mpr h.time
    obtain ⟨repoParentId, hparent⟩ := fieldReads_text.mpr h.parentId
    obtain ⟨repoId, hid⟩ := fieldReads_text.mpr h.id
    exact ⟨⟨repoName, lastMonitored, repoParentId, repoId⟩, ofJson_eq_ok.mpr ⟨h.record, hname, htime, hparent, hid⟩⟩

theorem RepoFailure.ofJson_isOk : (∃ f, RepoFailure.ofJson v = .ok f) ↔ v.IsRepo .rows "time" := by
  constructor
  · rintro ⟨f, h⟩
    obtain ⟨hrecord, hname, htime, hparent, hid⟩ := ofJson_eq_ok.mp h
    exact ⟨hrecord, fieldReads_text.mp ⟨_, hname⟩, fieldReads_real.mp ⟨_, htime⟩, fieldReads_text.mp ⟨_, hparent⟩,
      fieldReads_text.mp ⟨_, hid⟩⟩
  · intro h
    obtain ⟨repoName, hname⟩ := fieldReads_text.mpr h.name
    obtain ⟨time, htime⟩ := fieldReads_real.mpr h.time
    obtain ⟨repoParentId, hparent⟩ := fieldReads_text.mpr h.parentId
    obtain ⟨repoId, hid⟩ := fieldReads_text.mpr h.id
    exact ⟨⟨repoName, time, repoParentId, repoId⟩, ofJson_eq_ok.mpr ⟨h.record, hname, htime, hparent, hid⟩⟩

theorem Release.ofJson_isOk : (∃ r, Release.ofJson v = .ok r) ↔ v.IsRelease .rows := by
  constructor
  · rintro ⟨r, h⟩
    obtain ⟨hrecord, hname, htag⟩ := ofJson_eq_ok.mp h
    exact ⟨hrecord, fieldReads_text.mp ⟨_, hname⟩, fieldReads_text.mp ⟨_, htag⟩⟩
  · intro h
    obtain ⟨releaseName, hname⟩ := fieldReads_text.mpr h.releaseName
    obtain ⟨tagName, htag⟩ := fieldReads_text.mpr h.tagName
    exact ⟨⟨releaseName, tagName⟩, ofJson_eq_ok.mpr ⟨h.record, hname, htag⟩⟩

theorem releasesOfJson_isOk_iff : (∃ rs, releasesOfJson v = .ok rs) ↔ v.IsReleases .rows := by
  cases v with
  | object members =>
    simp only [releasesOfJson_isOk, Release.ofJson_isOk]
    constructor
    · exact fun h => ⟨members, rfl, h⟩
    · rintro ⟨_, ⟨⟩, h⟩
      exact h
  | null | bool | int | float | text | array => exact ⟨nofun, nofun⟩

theorem Counter.ofJson_isOk (hv : v.Proper) : (∃ c, Counter.ofJson v = .ok c) ↔ v.IsCounter .rows := by
  have hcount : (∃ n, v.FieldReads "current" 0 Json.asSigned n) ↔ RecordForm.rows.FieldIs v "current" 0 Json.IsCount :=
    fieldReads_iff fun w hw => (hv.field? hw).asSigned_isOk
  have hearlier : (∃ o, v.FieldReads "previous" 1 (Json.orNull Json.asSigned) o) ↔
      RecordForm.rows.FieldIs v "previous" 1 fun w => w = .null ∨ w.IsCount :=
    fieldReads_iff fun w hw => (hv.field? hw).orNull_isOk
  constructor
  · rintro ⟨c, h⟩
    obtain ⟨hrecord, hcurrent, hprevious⟩ := ofJson_eq_ok.mp h
    refine ⟨hrecord, hcount.mp ⟨_, hcurrent⟩, ?_⟩
    rcases hprevious with hsome | ⟨⟨members, rfl⟩, hnone, -⟩
    · exact .inl (hearlier.mp ⟨_, hsome⟩)
    · exact .inr ⟨⟨members, rfl⟩, hnone⟩
  · intro h
    obtain ⟨current, hcurrent⟩ := hcount.mpr h.current
    rcases h.previous with hsome | ⟨⟨members, rfl⟩, hnone⟩
    · obtain ⟨previous, hprevious⟩ := hearlier.mpr hsome
      exact ⟨⟨current, previous⟩, ofJson_eq_ok.mpr ⟨h.record, hcurrent, .inl hprevious⟩⟩
    · exact ⟨⟨current, none⟩, ofJson_eq_ok.mpr ⟨h.record, hcurrent, .inr ⟨⟨members, rfl⟩, hnone, rfl⟩⟩⟩

theorem ReleaseData.ofJson_isOk (hv : v.Proper) : (∃ d, ReleaseData.ofJson v = .ok d) ↔ v.IsReleaseData .rows := by
  have hcounter : (∃ c, v.FieldReads "no_of_releases" 0 Counter.ofJson c) ↔
      RecordForm.rows.FieldIs v "no_of_releases" 0 (Json.IsCounter .rows) :=
    fieldReads_iff fun w hw => Counter.ofJson_isOk (hv.field? hw)
  have hreleases : (∃ rs, v.FieldReads "releases" 1 releasesOfJson rs) ↔
      RecordForm.rows.FieldIs v "releases" 1 (Json.IsReleases .rows) :=
    fieldReads_iff fun _ _ => releasesOfJson_isOk_iff
  constructor
  · rintro ⟨d, h⟩
    obtain ⟨hrecord, hc, hrs⟩ := ofJson_eq_ok.mp h
    exact ⟨hrecord, hcounter.mp ⟨_, hc⟩, hrs.imp (fun h => hreleases.mp ⟨_, h⟩) And.left⟩
  · intro h
    obtain ⟨counter, hc⟩ := hcounter.mpr h.counter
    rcases h.releases with hsome | hnone
    · obtain ⟨releases, hrs⟩ := hreleases.mpr hsome
      exact ⟨⟨counter, releases⟩, ofJson_eq_ok.mpr ⟨h.record, hc, .inl hrs⟩⟩
    · exact ⟨⟨counter, []⟩, ofJson_eq_ok.mpr ⟨h.record, hc, .inr ⟨hnone, rfl⟩⟩⟩

theorem GitHubResult.ofJson_isOk (hv : v.Proper) : (∃ r, GitHubResult.ofJson v = .ok r) ↔ v.IsPayload .rows := by
  constructor
  · rintro ⟨r, h⟩
    rcases ofJson_eq_ok.mp h with ⟨result, m, d, hresult, -, ⟨w, hw, hm⟩, u, hu, hd⟩ |
      ⟨hnone, error, f, herror, -, w, hw, hf⟩
    · have hdata := (ReleaseData.ofJson_isOk ((hv.get? hresult).get? hu)).mp ⟨d, hd⟩
      exact .inl ⟨result, hresult, ⟨w, hw, RepoMetadata.ofJson_isOk.mp ⟨m, hm⟩⟩, u, hu, hdata⟩
    · exact .inr ⟨hnone, error, herror, w, hw, RepoFailure.ofJson_isOk.mp ⟨f, hf⟩⟩
  · rintro (⟨result, hresult, ⟨w, hw, hmetadata⟩, u, hu, hdata⟩ | ⟨hnone, error, herror, w, hw, hfailure⟩)
    · obtain ⟨m, hm⟩ := RepoMetadata.ofJson_isOk.mpr hmetadata
      obtain ⟨d, hd⟩ := (ReleaseData.ofJson_isOk ((hv.get? hresult).get? hu)).mpr hdata
      exact ⟨_, ofJson_eq_ok.mpr (.inl ⟨result, m, d, hresult, rfl, ⟨w, hw, hm⟩, u, hu, hd⟩)⟩
    · obtain ⟨f, hf⟩ := RepoFailure.ofJson_isOk.mpr hfailure
      exact ⟨_, ofJson_eq_ok.mpr (.inr ⟨hnone, error, f, herror, rfl, w, hw, hf⟩)⟩

end Readers

/-- The value at the end of a path of names. -/
def Json.at? (v : Json) (path : List String) : Option Json := path.foldlM Json.get? v

/-- Where the records of a payload are. -/
inductive Json.RecordPath (v : Json) : List String → Prop
  | metadata : RecordPath v ["result", "meta_data"]
  | data : RecordPath v ["result", "data"]
  | counter : RecordPath v ["result", "data", "no_of_releases"]
  | release (key : String) : RecordPath v ["result", "data", "releases", key]
  | failure (h : v.get? "result" = none) : RecordPath v ["error", "meta_data"]

/-- None of its records is an array. -/
def Json.RowFree (v : Json) : Prop := ∀ path, v.RecordPath path → ∀ w, v.at? path = some w → ¬ w.IsArray

section Rows

theorem isRepo_objects_iff {time : String} {v : Json} : v.IsRepo .objects time ↔ v.IsRepo .rows time ∧ ¬ v.IsArray := by
  constructor
  · rintro ⟨⟨members, rfl⟩, hname, htime, hparent, hid⟩
    exact ⟨⟨.object members, hname, htime, hparent, hid⟩, nofun⟩
  · rintro ⟨⟨hrecord, hname, htime, hparent, hid⟩, hrow⟩
    cases hrecord with
    | object members => exact ⟨⟨members, rfl⟩, hname, htime, hparent, hid⟩
    | array _ => exact absurd ⟨_, rfl⟩ hrow

theorem isCounter_objects_iff {v : Json} : v.IsCounter .objects ↔ v.IsCounter .rows ∧ ¬ v.IsArray := by
  constructor
  · rintro ⟨⟨members, rfl⟩, hcurrent, hprevious⟩
    exact ⟨⟨.object members, hcurrent, hprevious⟩, nofun⟩
  · rintro ⟨⟨hrecord, hcurrent, hprevious⟩, hrow⟩
    cases hrecord with
    | object members => exact ⟨⟨members, rfl⟩, hcurrent, hprevious⟩
    | array _ => exact absurd ⟨_, rfl⟩ hrow

theorem isRelease_objects_iff {v : Json} : v.IsRelease .objects ↔ v.IsRelease .rows ∧ ¬ v.IsArray := by
  constructor
  · rintro ⟨⟨members, rfl⟩, hname, htag⟩
    exact ⟨⟨.object members, hname, htag⟩, nofun⟩
  · rintro ⟨⟨hrecord, hname, htag⟩, hrow⟩
    cases hrecord with
    | object members => exact ⟨⟨members, rfl⟩, hname, htag⟩
    | array _ => exact absurd ⟨_, rfl⟩ hrow

theorem isReleases_objects_iff {v : Json} (hv : v.Proper) :
    v.IsReleases .objects ↔ v.IsReleases .rows ∧ ∀ key w, v.get? key = some w → ¬ w.IsArray := by
  constructor
  · rintro ⟨members, rfl, hall⟩
    refine ⟨⟨members, rfl, fun m hm => (isRelease_objects_iff.mp (hall m hm)).1⟩, fun key w hw => ?_⟩
    have hrow : ∀ m ∈ members, ¬ m.2.IsArray := fun m hm => (isRelease_objects_iff.mp (hall m hm)).2
    exact of_memberValue? (P := fun w => ¬ w.IsArray) hrow hw
  · rintro ⟨⟨members, rfl, hall⟩, hrow⟩
    refine ⟨members, rfl, fun m hm => isRelease_objects_iff.mpr ⟨hall m hm, ?_⟩⟩
    exact hrow m.1 m.2 ((Json.proper_object.mp hv).2.lookup hm)

theorem isReleaseData_objects_iff {v : Json} (hv : v.Proper) :
    v.IsReleaseData .objects ↔ v.IsReleaseData .rows ∧ ¬ v.IsArray ∧
      (∀ c, v.get? "no_of_releases" = some c → ¬ c.IsArray) ∧
      ∀ rs key r, v.get? "releases" = some rs → rs.get? key = some r → ¬ r.IsArray := by
  constructor
  · rintro ⟨⟨members, rfl⟩, ⟨c, hc, hcounter⟩, hreleases⟩
    obtain ⟨hcounter, hrow⟩ := isCounter_objects_iff.mp hcounter
    have hreleases' : (Json.IsReleaseData .rows (.object members)) ∧ ∀ rs key r,
        (Json.object members).get? "releases" = some rs → rs.get? key = some r → ¬ r.IsArray := by
      rcases hreleases with ⟨rs, hrs, hall⟩ | hnone
      · obtain ⟨hall, hrows⟩ := (isReleases_objects_iff (hv.get? hrs)).mp hall
        refine ⟨⟨.object members, ⟨c, hc, hcounter⟩, .inl ⟨rs, hrs, hall⟩⟩, fun rs' key r hrs' hr => ?_⟩
        obtain rfl : rs = rs' := Option.some.inj (hrs.symm.trans hrs')
        exact hrows key r hr
      · refine ⟨⟨.object members, ⟨c, hc, hcounter⟩, .inr hnone⟩, fun rs key r hrs => ?_⟩
        cases hnone.symm.trans hrs
    refine ⟨hreleases'.1, nofun, fun c' hc' => ?_, hreleases'.2⟩
    obtain rfl : c = c' := Option.some.inj (hc.symm.trans hc')
    exact hrow
  · rintro ⟨⟨hrecord, ⟨c, hc, hcounter⟩, hreleases⟩, hrow, hcrow, hrrow⟩
    cases hrecord with
    | array _ => exact absurd ⟨_, rfl⟩ hrow
    | object members =>
      have hcounter := isCounter_objects_iff.mpr ⟨hcounter, hcrow c hc⟩
      refine ⟨⟨members, rfl⟩, ⟨c, hc, hcounter⟩, hreleases.imp ?_ id⟩
      rintro ⟨rs, hrs, hall⟩
      exact ⟨rs, hrs, (isReleases_objects_iff (hv.get? hrs)).mpr ⟨hall, fun key r => hrrow rs key r hrs⟩⟩

theorem Json.at?_cons {v w : Json} {name : String} {path : List String} (h : v.get? name = some w) :
    v.at? (name :: path) = w.at? path := by
  simp only [at?, List.foldlM_cons, h, Option.bind_eq_bind, Option.bind_some]

theorem Json.at?_cons_eq_some {v u : Json} {name : String} {path : List String} :
    v.at? (name :: path) = some u ↔ ∃ w, v.get? name = some w ∧ w.at? path = some u := by
  cases h : v.get? name with
  | none => simp [at?, h]
  | some w => simp [at?_cons h]

/-- What is read is what the schema asks for, unless one of its records is an array. -/
theorem isPayload_objects_iff {v : Json} (hv : v.Proper) : v.IsPayload .objects ↔ v.IsPayload .rows ∧ v.RowFree := by
  constructor
  · rintro (⟨result, hresult, ⟨w, hw, hmetadata⟩, u, hu, hdata⟩ | ⟨hnone, error, herror, w, hw, hfailure⟩)
    · obtain ⟨hmetadata, hwrow⟩ := isRepo_objects_iff.mp hmetadata
      obtain ⟨hdata, hurow, hcrow, hrrow⟩ := (isReleaseData_objects_iff ((hv.get? hresult).get? hu)).mp hdata
      refine ⟨.inl ⟨result, hresult, ⟨w, hw, hmetadata⟩, u, hu, hdata⟩, fun path hpath x hx => ?_⟩
      cases hpath with
      | metadata =>
        rw [Json.at?_cons hresult, Json.at?_cons hw] at hx
        exact Option.some.inj hx ▸ hwrow
      | data =>
        rw [Json.at?_cons hresult, Json.at?_cons hu] at hx
        exact Option.some.inj hx ▸ hurow
      | counter =>
        rw [Json.at?_cons hresult, Json.at?_cons hu] at hx
        obtain ⟨c, hc, hx⟩ := Json.at?_cons_eq_some.mp hx
        exact Option.some.inj hx ▸ hcrow c hc
      | release key =>
        rw [Json.at?_cons hresult, Json.at?_cons hu] at hx
        obtain ⟨rs, hrs, hx⟩ := Json.at?_cons_eq_some.mp hx
        obtain ⟨r, hr, hx⟩ := Json.at?_cons_eq_some.mp hx
        exact Option.some.inj hx ▸ hrrow rs key r hrs hr
      | failure hnone =>
        rw [hresult] at hnone
        cases hnone
    · obtain ⟨hfailure, hwrow⟩ := isRepo_objects_iff.mp hfailure
      have hno : ∀ path x, v.at? ("result" :: path) ≠ some x := by
        intro path x hx
        obtain ⟨result, hresult, -⟩ := Json.at?_cons_eq_some.mp hx
        rw [hnone] at hresult
        cases hresult
      refine ⟨.inr ⟨hnone, error, herror, w, hw, hfailure⟩, fun path hpath x hx => ?_⟩
      cases hpath with
      | failure _ =>
        rw [Json.at?_cons herror, Json.at?_cons hw] at hx
        exact Option.some.inj hx ▸ hwrow
      | metadata | data | counter | release => exact absurd hx (hno _ x)
  · rintro ⟨⟨result, hresult, ⟨w, hw, hmetadata⟩, u, hu, hdata⟩ | ⟨hnone, error, herror, w, hw, hfailure⟩, hfree⟩
    · have hin : ∀ {path x}, u.at? path = some x → v.at? ("result" :: "data" :: path) = some x := fun hx =>
        Json.at?_cons_eq_some.mpr ⟨result, hresult, Json.at?_cons_eq_some.mpr ⟨u, hu, hx⟩⟩
      have hmetadata' : w.IsRepo .objects "last_monitored" := by
        refine isRepo_objects_iff.mpr ⟨hmetadata, hfree _ .metadata w ?_⟩
        rw [Json.at?_cons hresult, Json.at?_cons hw]
        rfl
      have hdata' : u.IsReleaseData .objects := by
        refine (isReleaseData_objects_iff ((hv.get? hresult).get? hu)).mpr
          ⟨hdata, ?_, fun c hc => ?_, fun rs key r hrs hr => ?_⟩
        · exact hfree _ .data u (hin rfl)
        · exact hfree _ .counter c (hin (Json.at?_cons_eq_some.mpr ⟨c, hc, rfl⟩))
        · have hrelease : rs.at? [key] = some r := Json.at?_cons_eq_some.mpr ⟨r, hr, rfl⟩
          exact hfree _ (.release key) r (hin (Json.at?_cons_eq_some.mpr ⟨rs, hrs, hrelease⟩))
      exact .inl ⟨result, hresult, ⟨w, hw, hmetadata'⟩, u, hu, hdata'⟩
    · have hfailure' : w.IsRepo .objects "time" := by
        refine isRepo_objects_iff.mpr ⟨hfailure, hfree _ (.failure hnone) w ?_⟩
        rw [Json.at?_cons herror, Json.at?_cons hw]
        rfl
      exact .inr ⟨hnone, error, herror, w, hw, hfailure'⟩

end Rows

section Acceptance

/-- What is read as a result is what the schema asks for, or has the fields of a record
in the order of an array. Everything else is unrecognized. -/
theorem GitHubResult.read_iff_schema {v : Json} (hv : v.Proper) :
    ((∃ r, GitHubResult.ofJson v = .ok r) ↔ v.IsPayload .rows) ∧
      (v.IsPayload .objects ↔ (∃ r, GitHubResult.ofJson v = .ok r) ∧ v.RowFree) ∧
      ∀ e, GitHubResult.ofJson v = .error e → ∃ fault, e = .unrecognized fault := by
  have hrows := isPayload_objects_iff hv
  have hread := ofJson_isOk hv
  refine ⟨hread, ?_, fun e => ofJson_eq_error⟩
  rw [hread]
  exact hrows

theorem GitHubResult.read_iff_schema_first_observation :
    let counter : Json := .object [("current", .int 7)]
    let metadata : Json := .object [("last_monitored", .int 5), ("repo_id", .text "r"), ("repo_name", .text "x"),
      ("repo_parent_id", .text "p")]
    let v : Json := .object [("result", .object [("data", .object [("no_of_releases", counter)]), ("meta_data", metadata)])]
    v.Proper ∧ v.IsPayload .objects ∧ (∃ r, GitHubResult.ofJson v = .ok r) ∧ v.RowFree := by
  intro counter metadata v
  have hv : v.Proper := by
    simp [v, counter, metadata]
    decide +kernel
  have hmetadata : metadata.IsRepo .objects "last_monitored" :=
    ⟨⟨_, rfl⟩, ⟨_, rfl, _, rfl⟩, ⟨_, rfl, .inl ⟨_, rfl⟩⟩, ⟨_, rfl, _, rfl⟩, ⟨_, rfl, _, rfl⟩⟩
  have hcounter : counter.IsCounter .objects :=
    ⟨⟨_, rfl⟩, ⟨_, rfl, 7, rfl, by decide⟩, .inr ⟨⟨_, rfl⟩, rfl⟩⟩
  have hpayload : v.IsPayload .objects :=
    .inl ⟨_, rfl, ⟨metadata, rfl, hmetadata⟩, _, rfl, ⟨_, rfl⟩, ⟨counter, rfl, hcounter⟩, .inr rfl⟩
  exact ⟨hv, hpayload, (read_iff_schema hv).2.1.mp hpayload⟩

/-- An alert is raised for an array in place of metadata. -/
theorem GitHubResult.row_read_as_failure :
    let v : Json := .object [("error", .object [("meta_data", .array [.text "x", .int 5, .text "p", .text "r"])])]
    v.Proper ∧ gitHubAlerts v = .ok [.pageInaccessible "x" (intToFloat 5) "p" "r"] ∧
      (∃ r, GitHubResult.ofJson v = .ok r) ∧ ¬ v.IsPayload .objects := by
  intro v
  have hv : v.Proper := by
    simp [v]
    decide +kernel
  refine ⟨hv, rfl, ⟨_, rfl⟩, fun h => ?_⟩
  have hfree := ((isPayload_objects_iff hv).mp h).2
  exact hfree _ (.failure rfl) _ rfl ⟨_, rfl⟩

end Acceptance

end AlertRelay
