import AlertRelay.Proofs.Growth

/-! What the alerts of a payload do not depend on. Two payloads that differ only in what
is never looked at are read side by side: either both readings fail alike, or they
succeed with results that no alert tells apart. -/

namespace AlertRelay

/-- Both fail alike, or both succeed with related results. -/
inductive Alike {ε α β : Type} (Q : α → β → Prop) : Except ε α → Except ε β → Prop
  | ok {a : α} {b : β} (h : Q a b) : Alike Q (.ok a) (.ok b)
  | error (e : ε) : Alike Q (.error e) (.error e)

namespace Alike

variable {ε ε' α β γ δ : Type} {Q : α → β → Prop} {R : γ → δ → Prop} {x : Except ε α} {y : Except ε β}

theorem of_eq {Q : α → α → Prop} {x y : Except ε α} (h : x = y) (hQ : ∀ a, Q a a) : Alike Q x y := by
  subst h
  cases x with
  | error e => exact .error e
  | ok a => exact .ok (hQ a)

theorem eq {x y : Except ε α} (h : Alike Eq x y) : x = y := by
  cases h with
  | error e => rfl
  | ok h => rw [h]

theorem bind (h : Alike Q x y) {f : α → Except ε γ} {g : β → Except ε δ}
    (hnext : ∀ a b, x = .ok a → y = .ok b → Q a b → Alike R (f a) (g b)) : Alike R (x >>= f) (y >>= g) := by
  cases h with
  | error e => exact .error e
  | ok h => exact hnext _ _ rfl rfl h

theorem map (h : Alike Q x y) {f : α → γ} {g : β → δ} (hR : ∀ a b, Q a b → R (f a) (g b)) :
    Alike R (x.map f) (y.map g) := by
  cases h with
  | error e => exact .error e
  | ok h => exact .ok (hR _ _ h)

theorem mapError (h : Alike Q x y) (f : ε → ε') : Alike Q (x.mapError f) (y.mapError f) := by
  cases h with
  | error e => exact .error (f e)
  | ok h => exact .ok h

end Alike

section Options

variable {α β γ : Type} {R : α → β → Prop} {o : Option α} {o' : Option β}

theorem related_of_left (h : Option.Rel R o o') {a : α} (ha : o = some a) : ∃ b, o' = some b ∧ R a b := by
  cases h with
  | none => cases ha
  | some h => exact ⟨_, rfl, Option.some.inj ha ▸ h⟩

theorem related_of_right (h : Option.Rel R o o') {b : β} (hb : o' = some b) : ∃ a, o = some a ∧ R a b := by
  cases h with
  | none => cases hb
  | some h => exact ⟨_, rfl, Option.some.inj hb ▸ h⟩

theorem map_eq_of_related (h : Option.Rel R o o') {f : α → γ} {g : β → γ} (hf : ∀ a b, R a b → f a = g b) :
    o.map f = o'.map g := by
  cases h with
  | none => rfl
  | some h => exact congrArg some (hf _ _ h)

end Options

/-- The same value, or objects with the same members under these names. -/
inductive Json.AgreeOn (names : List String) : Json → Json → Prop
  | same (v : Json) : AgreeOn names v v
  | members {ms ns : List (String × Json)} (h : ∀ name ∈ names, memberValue? ms name = memberValue? ns name) :
    AgreeOn names (.object ms) (.object ns)

def RepoMetadata.names : List String := ["repo_name", "last_monitored", "repo_parent_id", "repo_id"]
def RepoFailure.names : List String := ["repo_name", "time", "repo_parent_id", "repo_id"]
def Counter.names : List String := ["current", "previous"]
def Release.names : List String := ["release_name", "tag_name"]

/-- A key that is looked up: a numeral below the growth. -/
def Json.Asked (data : Json) (key : String) : Prop :=
  ∃ c count i, data.FieldReads "no_of_releases" 0 Counter.ofJson c ∧ c.delta = .ok count ∧ i < count ∧ IsIndex key i

/-- The same value, or objects that agree on each key, unless it is not asked for and
what they have there is a release. -/
inductive Json.AgreeReleases (asked : String → Prop) : Json → Json → Prop
  | same (v : Json) : AgreeReleases asked v v
  | entries {ms ns : List (String × Json)}
      (h : ∀ key, Option.Rel (AgreeOn Release.names) (memberValue? ms key) (memberValue? ns key) ∨
        ¬ asked key ∧ (∀ v ∈ memberValue? ms key, ∃ r, Release.ofJson v = .ok r) ∧
          ∀ v ∈ memberValue? ns key, ∃ r, Release.ofJson v = .ok r) :
    AgreeReleases asked (.object ms) (.object ns)

inductive Json.AgreeData : Json → Json → Prop
  | same (v : Json) : AgreeData v v
  | members {ms ns : List (String × Json)}
      (hcounter : Option.Rel (AgreeOn Counter.names) (memberValue? ms "no_of_releases")
        (memberValue? ns "no_of_releases"))
      (hreleases : Option.Rel (AgreeReleases (Json.object ms).Asked) (memberValue? ms "releases")
        (memberValue? ns "releases")) :
    AgreeData (.object ms) (.object ns)
  | row {vs ws : List Json} (hlength : vs.length = ws.length)
      (hcounter : Option.Rel (AgreeOn Counter.names) vs[0]? ws[0]?)
      (hreleases : Option.Rel (AgreeReleases (Json.array vs).Asked) vs[1]? ws[1]?) :
    AgreeData (.array vs) (.array ws)

inductive Json.AgreeResult : Json → Json → Prop
  | same (v : Json) : AgreeResult v v
  | members {ms ns : List (String × Json)}
      (hmetadata : Option.Rel (AgreeOn RepoMetadata.names) (memberValue? ms "meta_data") (memberValue? ns "meta_data"))
      (hdata : Option.Rel AgreeData (memberValue? ms "data") (memberValue? ns "data")) :
    AgreeResult (.object ms) (.object ns)

inductive Json.AgreeError : Json → Json → Prop
  | same (v : Json) : AgreeError v v
  | members {ms ns : List (String × Json)}
      (hmetadata : Option.Rel (AgreeOn RepoFailure.names) (memberValue? ms "meta_data") (memberValue? ns "meta_data")) :
    AgreeError (.object ms) (.object ns)

/-- Payloads that agree on all that is looked at: their results if they have some, and
their errors if they have no results. -/
inductive Json.AgreePayload : Json → Json → Prop
  | result {ms ns : List (String × Json)} {r s : Json} (hr : memberValue? ms "result" = some r)
      (hs : memberValue? ns "result" = some s) (h : AgreeResult r s) : AgreePayload (.object ms) (.object ns)
  | error {ms ns : List (String × Json)} (hr : memberValue? ms "result" = none) (hs : memberValue? ns "result" = none)
      (h : Option.Rel AgreeError (memberValue? ms "error") (memberValue? ns "error")) :
    AgreePayload (.object ms) (.object ns)

section Records

variable {v w : Json}

theorem RepoMetadata.ofJson_congr (h : v.AgreeOn names w) : RepoMetadata.ofJson v = RepoMetadata.ofJson w := by
  cases h with
  | same => rfl
  | members h =>
    have h0 := h "repo_name" (by decide)
    have h1 := h "last_monitored" (by decide)
    have h2 := h "repo_parent_id" (by decide)
    have h3 := h "repo_id" (by decide)
    simp only [ofJson, readMember, h0, h1, h2, h3]

theorem RepoFailure.ofJson_congr (h : v.AgreeOn names w) : RepoFailure.ofJson v = RepoFailure.ofJson w := by
  cases h with
  | same => rfl
  | members h =>
    have h0 := h "repo_name" (by decide)
    have h1 := h "time" (by decide)
    have h2 := h "repo_parent_id" (by decide)
    have h3 := h "repo_id" (by decide)
    simp only [ofJson, readMember, h0, h1, h2, h3]

theorem Counter.ofJson_congr (h : v.AgreeOn names w) : Counter.ofJson v = Counter.ofJson w := by
  cases h with
  | same => rfl
  | members h =>
    have h0 := h "current" (by decide)
    have h1 := h "previous" (by decide)
    simp only [ofJson, readMember, h0, h1]

theorem Release.ofJson_congr (h : v.AgreeOn names w) : Release.ofJson v = Release.ofJson w := by
  cases h with
  | same => rfl
  | members h =>
    have h0 := h "release_name" (by decide)
    have h1 := h "tag_name" (by decide)
    simp only [ofJson, readMember, h0, h1]

end Records

section Releases

variable {ms ns : List (String × Json)} {asked : String → Prop}

/-- The release with the least key is complained about. -/
theorem releasesOfJson_eq_error {e : Mismatch} (h : Ascending ms) : releasesOfJson (.object ms) = .error e ↔
    ∃ m ∈ ms, Release.ofJson m.2 = .error e ∧ ∀ n ∈ ms, n.1 < m.1 → ∃ r, Release.ofJson n.2 = .ok r := by
  induction ms with
  | nil => exact ⟨nofun, fun ⟨_, hm, _⟩ => nomatch hm⟩
  | cons first rest ih =>
    obtain ⟨hfirst, hrest⟩ := List.pairwise_cons.mp h
    have hfail : ∀ r, Release.ofJson first.2 = .ok r →
        (releasesOfJson (.object (first :: rest)) = .error e ↔ releasesOfJson (.object rest) = .error e) := by
      intro r hr
      rw [releasesOfJson_cons, hr]
      cases releasesOfJson (.object rest) with
      | error e' => rfl
      | ok rs => exact ⟨nofun, nofun⟩
    constructor
    · intro he
      cases hr : Release.ofJson first.2 with
      | error e' =>
        rw [releasesOfJson_cons, hr] at he
        cases he
        refine ⟨first, List.mem_cons_self, hr, fun n hn hlt => ?_⟩
        rcases List.mem_cons.mp hn with rfl | hn
        · exact absurd hlt (String.lt_irrefl _)
        · exact absurd (String.lt_trans hlt (hfirst n hn)) (String.lt_irrefl _)
      | ok r =>
        obtain ⟨m, hm, hfault, hleast⟩ := (ih hrest).mp ((hfail r hr).mp he)
        refine ⟨m, List.mem_cons_of_mem _ hm, hfault, fun n hn hlt => ?_⟩
        rcases List.mem_cons.mp hn with rfl | hn
        · exact ⟨r, hr⟩
        · exact hleast n hn hlt
    · rintro ⟨m, hm, hfault, hleast⟩
      rcases List.mem_cons.mp hm with rfl | hm
      · rw [releasesOfJson_cons, hfault]
        rfl
      · obtain ⟨r, hr⟩ := hleast first List.mem_cons_self (hfirst m hm)
        refine (hfail r hr).mpr ((ih hrest).mpr ⟨m, hm, hfault, fun n hn => ?_⟩)
        exact hleast n (List.mem_cons_of_mem _ hn)

theorem mem_of_memberValue? {name : String} {v : Json} (h : memberValue? ms name = some v) : (name, v) ∈ ms := by
  obtain ⟨l, r, rfl, -⟩ := List.lookup_eq_some_iff.mp h
  simp

/-- Entries that are not asked for do not matter, even for which release is complained about. -/
theorem releasesOfJson_alike (hms : Ascending ms) (hns : Ascending ns)
    (h : ∀ key, Option.Rel (Json.AgreeOn Release.names) (memberValue? ms key) (memberValue? ns key) ∨
      ¬ asked key ∧ (∀ v ∈ memberValue? ms key, ∃ r, Release.ofJson v = .ok r) ∧
        ∀ v ∈ memberValue? ns key, ∃ r, Release.ofJson v = .ok r) :
    Alike (fun rs rs' => ∀ key, asked key → rs.lookup key = rs'.lookup key)
      (releasesOfJson (.object ms)) (releasesOfJson (.object ns)) := by
  -- What one side has at a key the other side has as well, or it is a release.
  have hleft : ∀ n ∈ ns, (∃ r, Release.ofJson n.2 = .ok r) ∨
      ∃ v, memberValue? ms n.1 = some v ∧ Release.ofJson v = Release.ofJson n.2 := by
    intro n hn
    have hlookup := hns.lookup hn
    rcases h n.1 with hrel | ⟨-, -, hok⟩
    · obtain ⟨v, hv, hagree⟩ := related_of_right hrel hlookup
      exact .inr ⟨v, hv, Release.ofJson_congr hagree⟩
    · exact .inl (hok n.2 hlookup)
  cases hread : releasesOfJson (.object ms) with
  | error e =>
    obtain ⟨m, hm, hfault, hleast⟩ := (releasesOfJson_eq_error hms).mp hread
    have hlookup := hms.lookup hm
    have hread' : releasesOfJson (.object ns) = .error e := by
      rw [releasesOfJson_eq_error hns]
      rcases h m.1 with hrel | ⟨-, hok, -⟩
      · obtain ⟨w, hw, hagree⟩ := related_of_left hrel hlookup
        refine ⟨(m.1, w), mem_of_memberValue? hw, (Release.ofJson_congr hagree).symm.trans hfault, fun n hn hlt => ?_⟩
        rcases hleft n hn with hok | ⟨v, hv, heq⟩
        · exact hok
        · obtain ⟨r, hr⟩ := hleast (n.1, v) (mem_of_memberValue? hv) hlt
          exact ⟨r, heq.symm.trans hr⟩
      · obtain ⟨r, hr⟩ := hok m.2 hlookup
        rw [hfault] at hr
        cases hr
    rw [hread']
    exact .error e
  | ok rs =>
    have hall := releasesOfJson_isOk.mp ⟨rs, hread⟩
    have hall' : ∀ n ∈ ns, ∃ r, Release.ofJson n.2 = .ok r := by
      intro n hn
      rcases hleft n hn with hok | ⟨v, hv, heq⟩
      · exact hok
      · obtain ⟨r, hr⟩ := hall (n.1, v) (mem_of_memberValue? hv)
        exact ⟨r, heq.symm.trans hr⟩
    obtain ⟨rs', hread'⟩ := releasesOfJson_isOk.mpr hall'
    rw [hread']
    refine .ok fun key hkey => ?_
    have hlookups : (memberValue? ms key).map Release.ofJson = (memberValue? ns key).map Release.ofJson := by
      rcases h key with hrel | ⟨hnot, -⟩
      · exact map_eq_of_related hrel fun _ _ => Release.ofJson_congr
      · exact absurd hkey hnot
    rw [lookup_releasesOfJson hread, lookup_releasesOfJson hread'] at hlookups
    exact Option.map_injective (fun _ _ => Except.ok.inj) hlookups

end Releases

/-- The same counts, and the same releases as far as they are asked for. -/
structure ReleaseData.AgreesWith (d d' : ReleaseData) : Prop where
  counter : d.counter = d'.counter
  release? : ∀ count, d.counter.delta = .ok count → ∀ i < count, d.release? i = d'.release? i

section Data

variable {v w : Json}

theorem ReleaseData.AgreesWith.refl (d : ReleaseData) : d.AgreesWith d := ⟨rfl, fun _ _ _ _ => rfl⟩

/-- Releases that agree where the data asks for them make data that agree. -/
theorem agreesWith_of_asked {c : Counter} {rs rs' : List (String × Release)}
    (hc : v.FieldReads "no_of_releases" 0 Counter.ofJson c) (h : ∀ key, v.Asked key → rs.lookup key = rs'.lookup key) :
    ReleaseData.AgreesWith ⟨c, rs⟩ ⟨c, rs'⟩ := by
  refine ⟨rfl, fun count hcount i hi => h (toString i) ?_⟩
  exact ⟨c, count, i, hc, hcount, hi, isIndex_iff.mpr rfl⟩

theorem Json.AgreeReleases.alike {asked : String → Prop} (hv : v.Proper) (hw : w.Proper) (h : v.AgreeReleases asked w) :
    Alike (fun rs rs' => ∀ key, asked key → rs.lookup key = rs'.lookup key) (releasesOfJson v) (releasesOfJson w) := by
  cases h with
  | same => exact .of_eq rfl fun _ _ _ => rfl
  | entries h => exact releasesOfJson_alike (proper_object.mp hv).2 (proper_object.mp hw).2 h

theorem readMember_alike {α β : Type} {Q : α → β → Prop} {R : Json → Json → Prop} {ms ns : List (String × Json)}
    {name : String} {read : Json → Except Mismatch α} {read' : Json → Except Mismatch β}
    (h : Option.Rel R (memberValue? ms name) (memberValue? ns name))
    (hread : ∀ v w, memberValue? ms name = some v → memberValue? ns name = some w → R v w →
      Alike Q (read v) (read' w)) :
    Alike (Option.Rel Q) (readMember ms name read) (readMember ns name read') := by
  unfold readMember
  cases hm : memberValue? ms name with
  | none =>
    cases hn : memberValue? ns name with
    | none => exact .ok .none
    | some w =>
      obtain ⟨v, hv, -⟩ := related_of_right h hn
      rw [hm] at hv
      cases hv
  | some v =>
    obtain ⟨w, hw, hR⟩ := related_of_left h hm
    rw [hw]
    exact (hread v w hm hw hR).map fun _ _ => .some

theorem readElement_alike {α β : Type} {Q : α → β → Prop} {read : Json → Except Mismatch α}
    {read' : Json → Except Mismatch β} (shape : RecordShape) (place : Nat) (vs ws : List Json)
    (h : Alike Q (read v) (read' w)) : Alike (fun p p' => Q p.1 p'.1 ∧ p.2 = vs ∧ p'.2 = ws)
      (readElement shape place read (v :: vs)) (readElement shape place read' (w :: ws)) :=
  h.map fun _ _ hQ => ⟨hQ, rfl, rfl⟩

theorem endElements_congr {all all' rest rest' : List Json} (hall : all.length = all'.length)
    (hrest : rest.length = rest'.length) : endElements all rest = endElements all' rest' := by
  have hempty : rest.isEmpty = rest'.isEmpty := by
    rw [Bool.eq_iff_iff, List.isEmpty_iff_length_eq_zero, List.isEmpty_iff_length_eq_zero, hrest]
  rw [endElements, endElements, hempty, hall]

theorem ReleaseData.ofJson_alike (hv : v.Proper) (hw : w.Proper) (h : v.AgreeData w) :
    Alike AgreesWith (ReleaseData.ofJson v) (ReleaseData.ofJson w) := by
  cases h with
  | same => exact .of_eq rfl AgreesWith.refl
  | @members ms ns hcounter hreleases =>
    have hc : Alike (Option.Rel Eq) (readMember ms "no_of_releases" Counter.ofJson)
        (readMember ns "no_of_releases" Counter.ofJson) :=
      readMember_alike hcounter fun _ _ _ _ hagree => .of_eq (Counter.ofJson_congr hagree) fun _ => rfl
    refine hc.bind fun c c' hread _ hcc => ?_
    have hr := readMember_alike hreleases fun _ _ hm hn hagree =>
      hagree.alike (of_memberValue? (Json.proper_object.mp hv).1 hm) (of_memberValue? (Json.proper_object.mp hw).1 hn)
    refine hr.bind fun rs rs' _ _ hrs => ?_
    cases hcc with
    | none => exact .error _
    | some hcc =>
      subst hcc
      refine .ok (agreesWith_of_asked ((readMember_eq_ok_some 0).mp hread) fun key hkey => ?_)
      cases hrs with
      | none => rfl
      | some hrs => exact hrs key hkey
  | @row vs ws hlength hcounter hreleases =>
    have hvs := Json.proper_array.mp hv
    have hws := Json.proper_array.mp hw
    match vs, ws, hlength with
    | [], [], _ => exact .of_eq rfl AgreesWith.refl
    | v :: vs, w :: ws, hlength =>
      obtain ⟨_, heq, hagree⟩ := related_of_left hcounter (a := v) rfl
      cases heq
      have hc := readElement_alike shape 0 vs ws (.of_eq (Counter.ofJson_congr hagree) fun _ => rfl)
      refine hc.bind fun ⟨c, vs'⟩ ⟨c', ws'⟩ hread _ ⟨(hcc : c = c'), (hvs' : vs' = vs), (hws' : ws' = ws)⟩ => ?_
      subst hcc hvs' hws'
      obtain ⟨_, hread, heq⟩ := map_eq_ok.mp hread
      cases heq
      have hfield : (Json.array (v :: vs')).FieldReads "no_of_releases" 0 Counter.ofJson c := ⟨v, rfl, hread⟩
      match vs', ws', hlength with
      | [], [], _ => exact .ok (agreesWith_of_asked hfield fun _ _ => rfl)
      | v' :: vs', w' :: ws', hlength =>
        obtain ⟨_, heq, hagree'⟩ := related_of_left hreleases (a := v') rfl
        cases heq
        have hr := readElement_alike shape 1 vs' ws' (hagree'.alike (hvs v' (by simp)) (hws w' (by simp)))
        refine hr.bind fun ⟨rs, vs''⟩ ⟨rs', ws''⟩ _ _ ⟨hrs, (hvs'' : vs'' = vs'), (hws'' : ws'' = ws')⟩ => ?_
        subst hvs'' hws''
        have hend := endElements_congr hlength (Nat.succ.inj (Nat.succ.inj hlength))
        exact (Alike.of_eq hend fun _ => rfl).bind fun _ _ _ _ _ => .ok (agreesWith_of_asked hfield hrs)

end Data

section Payloads

variable {v w : Json}

theorem ReleaseData.collect_congr {d d' : ReleaseData} {index count : Nat}
    (h : ∀ i < count, d.release? (index + i) = d'.release? (index + i)) :
    d.collect index count = d'.collect index count := by
  induction count generalizing index with
  | zero => rfl
  | succ count ih =>
    have hfirst : d.release? index = d'.release? index := h 0 (Nat.succ_pos count)
    have hrest : d.collect (index + 1) count = d'.collect (index + 1) count := by
      refine ih fun i hi => ?_
      rw [Nat.succ_add_eq_add_succ]
      exact h (i + 1) (Nat.succ_lt_succ hi)
    rw [collect, collect, hfirst, hrest]

theorem ReleaseData.AgreesWith.alerts_eq {d d' : ReleaseData} (h : d.AgreesWith d') (m : RepoMetadata) :
    GitHubResult.alerts (.success m d) = GitHubResult.alerts (.success m d') := by
  cases hdelta : d.counter.delta with
  | error e =>
    have hdelta' : d'.counter.delta = .error e := h.counter ▸ hdelta
    rw [GitHubResult.alerts, GitHubResult.alerts, hdelta, hdelta']
    rfl
  | ok count =>
    have hdelta' : d'.counter.delta = .ok count := h.counter ▸ hdelta
    have hcollect : d.collect 0 count = d'.collect 0 count := by
      refine collect_congr fun i hi => ?_
      rw [Nat.zero_add]
      exact h.release? count hdelta i hi
    rw [GitHubResult.alerts_of_delta hdelta, GitHubResult.alerts_of_delta hdelta', hcollect]

theorem readContent_alike {α β : Type} {Q : α → β → Prop} {R : Json → Json → Prop} {name : String}
    {read : Json → Except Mismatch α} {read' : Json → Except Mismatch β} (h : Option.Rel R (v.get? name) (w.get? name))
    (hread : ∀ a b, v.get? name = some a → w.get? name = some b → R a b → Alike Q (read a) (read' b)) :
    Alike Q (readContent v name read) (readContent w name read') := by
  unfold readContent
  cases hv : v.get? name with
  | none =>
    cases hw : w.get? name with
    | none => exact .error _
    | some b =>
      obtain ⟨a, ha, -⟩ := related_of_right h hw
      rw [hv] at ha
      cases ha
  | some a =>
    obtain ⟨b, hb, hR⟩ := related_of_left h hv
    rw [hb]
    exact (hread a b hv hb hR).mapError _

theorem readSuccess_alike (hv : v.Proper) (hw : w.Proper) (h : v.AgreeResult w) :
    Alike (fun r r' : GitHubResult => r.alerts = r'.alerts)
      (do
        let m ← readContent v "meta_data" RepoMetadata.ofJson
        let d ← readContent v "data" ReleaseData.ofJson
        return .success m d)
      (do
        let m ← readContent w "meta_data" RepoMetadata.ofJson
        let d ← readContent w "data" ReleaseData.ofJson
        return .success m d) := by
  cases h with
  | same => exact .of_eq rfl fun _ => rfl
  | @members ms ns hmetadata hdata =>
    have hm : Alike Eq (readContent (.object ms) "meta_data" RepoMetadata.ofJson)
        (readContent (.object ns) "meta_data" RepoMetadata.ofJson) :=
      readContent_alike hmetadata fun _ _ _ _ hagree => .of_eq (RepoMetadata.ofJson_congr hagree) fun _ => rfl
    have hd : Alike ReleaseData.AgreesWith (readContent (.object ms) "data" ReleaseData.ofJson)
        (readContent (.object ns) "data" ReleaseData.ofJson) :=
      readContent_alike hdata fun _ _ ha hb hagree => ReleaseData.ofJson_alike (hv.get? ha) (hw.get? hb) hagree
    refine hm.bind fun m m' _ _ hmm => hd.bind fun d d' _ _ hdd => .ok ?_
    rw [hmm]
    exact hdd.alerts_eq m'

theorem readFailure_alike (h : v.AgreeError w) :
    readContent v "meta_data" RepoFailure.ofJson = readContent w "meta_data" RepoFailure.ofJson := by
  cases h with
  | same => rfl
  | members hmetadata =>
    have hread : Alike Eq (readContent (.object _) "meta_data" RepoFailure.ofJson)
        (readContent (.object _) "meta_data" RepoFailure.ofJson) :=
      readContent_alike hmetadata fun _ _ _ _ hagree => .of_eq (RepoFailure.ofJson_congr hagree) fun _ => rfl
    exact hread.eq

theorem GitHubResult.ofJson_alike (hv : v.Proper) (hw : w.Proper) (h : v.AgreePayload w) :
    Alike (fun r r' : GitHubResult => r.alerts = r'.alerts) (GitHubResult.ofJson v) (GitHubResult.ofJson w) := by
  cases h with
  | @result ms ns r s hr hs h =>
    have hms : (Json.object ms).get? "result" = some r := hr
    have hns : (Json.object ns).get? "result" = some s := hs
    rw [ofJson_of_result hms, ofJson_of_result hns]
    exact readSuccess_alike (hv.get? hr) (hw.get? hs) h
  | @error ms ns hr hs h =>
    cases he : memberValue? ms "error" with
    | none =>
      have he' : memberValue? ns "error" = none := by
        cases hn : memberValue? ns "error" with
        | none => rfl
        | some _ =>
          obtain ⟨_, hm, -⟩ := related_of_right h hn
          rw [he] at hm
          cases hm
      rw [ofJson_object_of_neither hr he, ofJson_object_of_neither hs he']
      exact .error _
    | some e =>
      obtain ⟨e', he', hagree⟩ := related_of_left h he
      have hms : (Json.object ms).get? "result" = none := hr
      have hns : (Json.object ns).get? "result" = none := hs
      rw [ofJson_of_error hms he, ofJson_of_error hns he', readFailure_alike hagree]
      exact .of_eq rfl fun _ => rfl

/-- Payloads that agree on what is looked at are classified alike, also where they are
refused, and a payload with a result is classified as if it had nothing else. -/
theorem gitHubAlerts_of_agree (hv : v.Proper) (hw : w.Proper) (h : v.AgreePayload w) :
    gitHubAlerts v = gitHubAlerts w ∧
      ∀ result, v.get? "result" = some result → gitHubAlerts v = gitHubAlerts (.object [("result", result)]) := by
  constructor
  · have hr := (GitHubResult.ofJson_alike hv hw h).bind fun r r' _ _ heq => Alike.of_eq heq fun _ => rfl
    exact Alike.eq hr
  · intro result hresult
    have halone : (Json.object [("result", result)]).get? "result" = some result := rfl
    rw [gitHubAlerts, gitHubAlerts, GitHubResult.ofJson_of_result hresult, GitHubResult.ofJson_of_result halone]

/-- A valid error beside the result, a member with a name that is not known and a
release that is not asked for make no difference. -/
theorem gitHubAlerts_of_agree_further_release :
    let failure : Json := .object [("repo_id", .text "r"), ("repo_name", .text "x"), ("repo_parent_id", .text "p"),
      ("time", .int 5)]
    let metadata : Json := .object [("last_monitored", .int 5), ("repo_id", .text "r"), ("repo_name", .text "x"),
      ("repo_parent_id", .text "p")]
    let release : Json := .object [("release_name", .text "a"), ("tag_name", .text "b")]
    let counter : Json := .object [("current", .int 1), ("previous", .int 0)]
    let data (releases : List (String × Json)) : Json :=
      .object [("no_of_releases", counter), ("releases", .object releases)]
    let v : Json := .object [("result", .object [("data", data [("0", release)]), ("meta_data", metadata)])]
    let w : Json := .object [("error", .object [("meta_data", failure)]),
      ("result", .object [("data", data [("0", release), ("7", release)]), ("meta_data", metadata), ("noted", .null)])]
    v.Proper ∧ w.Proper ∧ v.AgreePayload w ∧ gitHubAlerts v = gitHubAlerts w := by
  intro failure metadata release counter data v w
  have hv : v.Proper := by
    simp [v, metadata, data, counter, release]
    decide +kernel
  have hw : w.Proper := by
    simp [w, failure, metadata, data, counter, release, Json.Proper.null]
    decide +kernel
  have hasked : ¬ (data [("0", release)]).Asked "7" := by
    rintro ⟨c, count, i, ⟨_, hcounter, hc⟩, hcount, hi, hkey⟩
    cases hcounter
    cases hc
    cases hcount
    obtain rfl : i = 0 := Nat.lt_one_iff.mp hi
    exact absurd (isIndex_iff.mp hkey) (by decide)
  have hreleases : Json.AgreeReleases (data [("0", release)]).Asked (.object [("0", release)])
      (.object [("0", release), ("7", release)]) := by
    refine .entries fun key => ?_
    by_cases hseven : key = "7"
    · subst hseven
      refine .inr ⟨hasked, nofun, fun v hv => ⟨⟨"a", "b"⟩, ?_⟩⟩
      cases hv
      rfl
    · have hlookup : memberValue? [("0", release), ("7", release)] key = memberValue? [("0", release)] key := by
        simp [memberValue?, List.lookup_cons, beq_eq_false_iff_ne.mpr hseven]
      rw [hlookup]
      cases memberValue? [("0", release)] key with
      | none => exact .inl .none
      | some r => exact .inl (.some (.same r))
  have hagree : v.AgreePayload w :=
    .result rfl rfl (.members (.some (.same _)) (.some (.members (.some (.same _)) (.some hreleases))))
  exact ⟨hv, hw, hagree, (gitHubAlerts_of_agree hv hw hagree).1⟩

end Payloads

end AlertRelay
