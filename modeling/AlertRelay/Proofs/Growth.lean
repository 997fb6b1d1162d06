import AlertRelay.Proofs.Decoding
import AlertRelay.Proofs.NumberText

/-! The alerts of a result: one for each release by which the count grew, or none at
all if one of them is missing. -/

namespace AlertRelay

/-- A decimal numeral, without a sign and without zeros in front. -/
structure IsIndex (key : String) (n : Nat) : Prop where
  digits : ∀ c ∈ key.toList, c.isDigit = true
  nonempty : key.toList ≠ []
  first : key.toList.head? = some '0' → key.toList = ['0']
  value : Nat.ofDigitChars 10 key.toList 0 = n

section Indices

theorem toDigits_digit {c : Char} (hc : c.isDigit = true) : Nat.toDigits 10 (digitOf c) = [c] := by
  have hrange := Char.isDigit_iff_toNat.mp hc
  have hzero : '0'.toNat = 48 := rfl
  rw [Nat.toDigits_of_lt_base (digitOf_lt hc)]
  have hchar : Nat.digitChar (digitOf c) = c := by
    apply Char.toNat_inj.mp
    rw [Nat.toNat_digitChar_of_lt_ten (digitOf_lt hc), digitOf]
    omega
  rw [hchar]

/-- Digits without zeros in front are those of their value. -/
theorem toDigits_ofDigitChars (cs : List Char) (hdigits : ∀ c ∈ cs, c.isDigit = true) (hne : cs ≠ [])
    (hfirst : cs.head? = some '0' → cs = ['0']) : Nat.toDigits 10 (Nat.ofDigitChars 10 cs 0) = cs := by
  induction cs using List.reverseRecOn with
  | nil => exact absurd rfl hne
  | append_singleton cs c ih =>
    have hc : c.isDigit = true := hdigits c (by simp)
    have hvalue : Nat.ofDigitChars 10 (cs ++ [c]) 0 = 10 * Nat.ofDigitChars 10 cs 0 + digitOf c := by
      simp [Nat.ofDigitChars_eq_foldl, digitOf]
    cases cs with
    | nil => rw [hvalue]; simpa using toDigits_digit hc
    | cons d ds =>
      have hzero : d ≠ '0' := by
        rintro rfl
        simpa using hfirst rfl
      have hih := ih (fun x hx => hdigits x (List.mem_append_left _ hx)) (by simp) fun h =>
        absurd (by simpa using h) hzero
      have hpos : 0 < Nat.ofDigitChars 10 (d :: ds) 0 := by
        refine Nat.pos_of_ne_zero fun h => hzero ?_
        rw [h] at hih
        exact (List.cons.inj hih).1.symm
      rw [hvalue, ← Nat.toDigits_append_toDigits (by decide) hpos (digitOf_lt hc), hih, toDigits_digit hc]

theorem isIndex_iff {key : String} {n : Nat} : IsIndex key n ↔ key = toString n := by
  have htoList : (toString n).toList = decimalDigits n := by
    rw [Nat.toString_eq_repr, Nat.repr_eq_ofList_toDigits, String.toList_ofList, decimalDigits]
  constructor
  · intro h
    apply String.toList_injective
    rw [htoList, ← h.value]
    exact (toDigits_ofDigitChars _ h.digits h.nonempty h.first).symm
  · rintro rfl
    refine ⟨?_, ?_, ?_, ?_⟩ <;> rw [htoList]
    · exact decimalDigits_isDigit n
    · exact Nat.toDigits_ne_nil
    · intro hfirst
      rcases Nat.eq_zero_or_pos n with rfl | hn
      · rfl
      · obtain ⟨c, cs, hcs, hc⟩ := decimalDigits_head hn
        rw [hcs] at hfirst
        cases hfirst
        cases hc
    · exact Nat.ofDigitChars_toDigits (by decide) (by decide)

end Indices

/-- The release with this number, under its numeral. -/
def ReleaseData.Holds (d : ReleaseData) (i : Nat) (r : Release) : Prop :=
  ∃ key, IsIndex key i ∧ d.releases.lookup key = some r

theorem ReleaseData.holds_iff {d : ReleaseData} {i : Nat} {r : Release} : d.Holds i r ↔ d.release? i = some r := by
  simp [Holds, isIndex_iff, release?]

/-- What a result comes to: nothing before the first observation, no negative counts,
the first number without a release, or an alert for each number below the growth. -/
inductive GitHubResult.ComesTo : GitHubResult → Except Rejection (List Alert) → Prop
  | baseline {m : RepoMetadata} {d : ReleaseData} (h : d.counter.previous = none) : ComesTo (.success m d) (.ok [])
  | negative {m : RepoMetadata} {d : ReleaseData} {previous : Int} (h : d.counter.previous = some previous)
      (hneg : d.counter.current < 0 ∨ previous < 0) :
    ComesTo (.success m d) (.error (.unrecognized (.negativeCounter d.counter.current previous)))
  | missing {m : RepoMetadata} {d : ReleaseData} {previous : Int} {i : Nat} (h : d.counter.previous = some previous)
      (hcurrent : 0 ≤ d.counter.current) (hprevious : 0 ≤ previous) (hi : i < max 0 (d.counter.current - previous))
      (hgap : ∀ r, ¬ d.Holds i r) (hbefore : ∀ j < i, ∃ r, d.Holds j r) :
    ComesTo (.success m d) (.error (.missingItem i))
  | complete {m : RepoMetadata} {d : ReleaseData} {previous : Int} {alerts : List Alert}
      (h : d.counter.previous = some previous) (hcurrent : 0 ≤ d.counter.current) (hprevious : 0 ≤ previous)
      (hcount : alerts.length = max 0 (d.counter.current - previous))
      (hall : ∀ i (hi : i < alerts.length), ∃ r, d.Holds i r ∧ alerts[i] =
        .newRelease m.repoName r.releaseName r.tagName m.lastMonitored m.repoParentId m.repoId) :
    ComesTo (.success m d) (.ok alerts)
  | failure (f : RepoFailure) :
    ComesTo (.failure f) (.ok [.pageInaccessible f.repoName f.time f.repoParentId f.repoId])

section Counting

variable {c : Counter} {previous : Int}

/-- The difference of counts of 64 bits is one too, and it is a size if it is positive. -/
theorem Counter.delta_eq (h : c.previous = some previous) (hcurrent : 0 ≤ c.current) (hcurrent' : c.current < 2 ^ 63)
    (hprevious : 0 ≤ previous) (hprevious' : previous < 2 ^ 63) :
    checkedSub c.current previous = some (c.current - previous) ∧
      c.delta = .ok (max 0 (c.current - previous)).toNat := by
  have hsub : checkedSub c.current previous = some (c.current - previous) :=
    if_pos (by unfold Signed; omega)
  have hsize : toSize? (max (c.current - previous) 0) = some (max (c.current - previous) 0).toNat :=
    if_pos (by omega)
  have hneg : ¬ (c.current < 0 ∨ previous < 0) := by omega
  refine ⟨hsub, ?_⟩
  simp only [delta, h, hneg, if_false, hsub, Option.getD_some, hsize, Int.max_comm 0]

theorem Counter.delta_none (h : c.previous = none) : c.delta = .ok 0 := by
  simp only [delta, h]

theorem Counter.delta_negative (h : c.previous = some previous) (hneg : c.current < 0 ∨ previous < 0) :
    c.delta = .error (.unrecognized (.negativeCounter c.current previous)) := by
  simp only [delta, h, if_pos hneg]

/-- No growth is out of range: either the counts are refused before it is computed or it is a size. -/
theorem Counter.delta_in_range (hcurrent : Signed c.current) (hprevious : ∀ previous ∈ c.previous, Signed previous)
    (growth : Int) : c.delta ≠ .error (.unrecognized (.growthOutOfRange growth)) := by
  intro hrange
  cases h : c.previous with
  | none =>
    rw [delta_none h] at hrange
    cases hrange
  | some previous =>
    by_cases hneg : c.current < 0 ∨ previous < 0
    · rw [delta_negative h hneg] at hrange
      cases hrange
    · have hdelta := (delta_eq h (by omega) hcurrent.2 (by omega) (hprevious previous h).2).2
      rw [hdelta] at hrange
      cases hrange

end Counting

section Collecting

variable {d : ReleaseData}

/-- The first number without a release ends the collection. -/
theorem ReleaseData.collect_missing {index count i : Nat} (hi : i < count) (hgap : d.release? (index + i) = none)
    (hbefore : ∀ j < i, ∃ r, d.release? (index + j) = some r) :
    d.collect index count = .error (.missingItem (index + i)) := by
  induction count generalizing index i with
  | zero => omega
  | succ count ih =>
    cases i with
    | zero =>
      have hnone : d.release? index = none := hgap
      simp only [collect, hnone, Nat.add_zero]
    | succ i =>
      obtain ⟨r, hr⟩ := hbefore 0 (Nat.succ_pos i)
      have hnext : ∀ j, d.release? (index + 1 + j) = d.release? (index + (j + 1)) := by
        intro j
        rw [Nat.succ_add_eq_add_succ]
      have hrest : d.collect (index + 1) count = .error (.missingItem (index + 1 + i)) := by
        refine ih (Nat.lt_of_succ_lt_succ hi) (by rw [hnext, hgap]) fun j hj => ?_
        rw [hnext]
        exact hbefore (j + 1) (Nat.succ_lt_succ hj)
      rw [Nat.add_zero] at hr
      simp only [collect, hr, hrest, Except.map]
      rw [Nat.succ_add_eq_add_succ]

theorem ReleaseData.collect_complete {index : Nat} {rs : List Release}
    (hall : ∀ i (hi : i < rs.length), d.release? (index + i) = some rs[i]) :
    d.collect index rs.length = .ok rs := by
  induction rs generalizing index with
  | nil => rfl
  | cons r rs ih =>
    have hr : d.release? index = some r := hall 0 (Nat.succ_pos _)
    have hrest : d.collect (index + 1) rs.length = .ok rs := by
      refine ih fun i hi => ?_
      rw [Nat.succ_add_eq_add_succ]
      exact hall (i + 1) (Nat.succ_lt_succ hi)
    simp only [List.length_cons, collect, hr, hrest, Except.map]

end Collecting

section Counters

theorem asSigned_signed {v : Json} {n : Int} (hv : v.Proper) (h : v.asSigned = .ok n) : Signed n := by
  obtain ⟨rfl, hn⟩ := Json.asSigned_eq_ok.mp h
  cases hv with
  | int hrange => exact ⟨hrange.1, hn⟩

/-- The counts of a value that was read have 64 bits. -/
theorem Counter.ofJson_signed {v : Json} {c : Counter} (hv : v.Proper) (h : Counter.ofJson v = .ok c) :
    Signed c.current ∧ ∀ previous ∈ c.previous, Signed previous := by
  obtain ⟨-, ⟨w, hw, hcurrent⟩, hprevious⟩ := Counter.ofJson_eq_ok.mp h
  refine ⟨asSigned_signed (hv.field? hw) hcurrent, fun previous hp => ?_⟩
  rcases hprevious with ⟨u, hu, hread⟩ | ⟨-, -, hnone⟩
  · rcases Json.orNull_eq_ok.mp hread with ⟨-, hnone⟩ | ⟨-, n, hn, hsome⟩
    · rw [← hnone] at hp
      cases hp
    · rw [← hsome] at hp
      cases hp
      exact asSigned_signed (hv.field? hu) hn
  · rw [hnone] at hp
    cases hp

theorem GitHubResult.ofJson_signed {payload : Json} {m : RepoMetadata} {d : ReleaseData} (hp : payload.Proper)
    (h : GitHubResult.ofJson payload = .ok (.success m d)) :
    Signed d.counter.current ∧ ∀ previous ∈ d.counter.previous, Signed previous := by
  rcases GitHubResult.ofJson_eq_ok.mp h with ⟨result, m', d', hresult, hr, -, w, hw, hd⟩ | ⟨-, _, _, -, hr, -⟩
  · cases hr
    obtain ⟨-, ⟨u, hu, hcounter⟩, -⟩ := ReleaseData.ofJson_eq_ok.mp hd
    exact Counter.ofJson_signed (((hp.get? hresult).get? hw).field? hu) hcounter
  · cases hr

end Counters

section Outcomes

/-- Some outcome always fits: either a number below the growth is the first without a
release, or all of them have one. -/
theorem GitHubResult.exists_comesTo (r : GitHubResult) : ∃ outcome, r.ComesTo outcome := by
  cases r with
  | failure f => exact ⟨_, .failure f⟩
  | success m d =>
    cases h : d.counter.previous with
    | none => exact ⟨_, .baseline h⟩
    | some previous =>
      by_cases hneg : d.counter.current < 0 ∨ previous < 0
      · exact ⟨_, .negative h hneg⟩
      · have hcurrent : 0 ≤ d.counter.current := by omega
        have hprevious : 0 ≤ previous := by omega
        obtain ⟨count, hcount⟩ := Int.eq_ofNat_of_zero_le (show 0 ≤ max 0 (d.counter.current - previous) by omega)
        by_cases hall : ∀ i < count, ∃ r, d.Holds i r
        · choose f hf using fun i : Fin count => hall i i.isLt
          have hcomplete : ComesTo (.success m d) (.ok (List.ofFn fun i => m.releaseAlert (f i))) := by
            refine .complete h hcurrent hprevious ?_ fun i hi => ?_
            · rw [List.length_ofFn, hcount]
            · rw [List.length_ofFn] at hi
              exact ⟨_, hf ⟨i, hi⟩, List.getElem_ofFn _⟩
          exact ⟨_, hcomplete⟩
        · classical
          have hgap : ∃ i, i < count ∧ ∀ r, ¬ d.Holds i r := by
            simpa using hall
          obtain ⟨hi, hno⟩ := Nat.find_spec hgap
          refine ⟨_, .missing h hcurrent hprevious (by omega) hno fun j hj => ?_⟩
          have hj' := Nat.find_min hgap hj
          have hlt : j < count := by omega
          simpa [hlt] using hj'

theorem GitHubResult.alerts_of_delta {m : RepoMetadata} {d : ReleaseData} {count : Nat}
    (h : d.counter.delta = .ok count) :
    GitHubResult.alerts (.success m d) = (d.collect 0 count).map (List.map m.releaseAlert) := by
  simp only [alerts, h]
  change (do let releases ← d.collect 0 count; return releases.map m.releaseAlert) = _
  cases d.collect 0 count <;> rfl

theorem GitHubResult.ComesTo.alerts_eq {r : GitHubResult} {outcome : Except Rejection (List Alert)}
    (h : r.ComesTo outcome) (hsigned : ∀ m d, r = .success m d →
      Signed d.counter.current ∧ ∀ previous ∈ d.counter.previous, Signed previous) : r.alerts = outcome := by
  cases h with
  | baseline h => exact alerts_of_delta (Counter.delta_none h)
  | negative h hneg =>
    rw [alerts, Counter.delta_negative h hneg]
    rfl
  | @missing m d previous i h hcurrent hprevious hi hgap hbefore =>
    obtain ⟨hsc, hsp⟩ := hsigned m d rfl
    obtain ⟨-, hdelta⟩ := Counter.delta_eq h hcurrent hsc.2 hprevious (hsp previous h).2
    have hcollect : d.collect 0 (max 0 (d.counter.current - previous)).toNat = .error (.missingItem (0 + i)) := by
      refine ReleaseData.collect_missing (by omega) ?_ fun j hj => ?_
      · rw [Nat.zero_add, Option.eq_none_iff_forall_ne_some]
        exact fun r hr => hgap r (ReleaseData.holds_iff.mpr hr)
      · rw [Nat.zero_add]
        exact (hbefore j hj).imp fun r => ReleaseData.holds_iff.mp
    rw [Nat.zero_add] at hcollect
    rw [alerts_of_delta hdelta, hcollect]
    rfl
  | @complete m d previous alerts h hcurrent hprevious hcount hall =>
    obtain ⟨hsc, hsp⟩ := hsigned m d rfl
    obtain ⟨-, hdelta⟩ := Counter.delta_eq h hcurrent hsc.2 hprevious (hsp previous h).2
    choose f hf using fun i : Fin alerts.length => hall i i.isLt
    have hcollect : d.collect 0 (List.ofFn f).length = .ok (List.ofFn f) := by
      refine ReleaseData.collect_complete fun i hi => ?_
      rw [List.length_ofFn] at hi
      rw [Nat.zero_add, List.getElem_ofFn]
      exact ReleaseData.holds_iff.mp (hf ⟨i, hi⟩).1
    have hlength : (List.ofFn f).length = (max 0 (d.counter.current - previous)).toNat := by
      rw [List.length_ofFn]
      omega
    have halerts : (List.ofFn f).map m.releaseAlert = alerts := by
      refine List.ext_getElem (by simp) fun i hi hi' => ?_
      rw [List.getElem_map, List.getElem_ofFn]
      exact (hf ⟨i, hi'⟩).2.symm
    rw [alerts_of_delta hdelta, ← hlength, hcollect]
    exact congrArg Except.ok halerts
  | failure f => rfl

/-- What a payload is classified as is what its result comes to, and the counts of its
result are subtracted without leaving their range. -/
theorem GitHubResult.alerts_all_or_none {payload : Json} (hp : payload.Proper) {r : GitHubResult}
    (hr : GitHubResult.ofJson payload = .ok r) :
    (∀ outcome, gitHubAlerts payload = outcome ↔ r.ComesTo outcome) ∧
      ∀ m d, r = .success m d →
        (∀ previous, d.counter.previous = some previous → 0 ≤ d.counter.current → 0 ≤ previous →
          checkedSub d.counter.current previous = some (d.counter.current - previous)) ∧
        ∀ growth, d.counter.delta ≠ .error (.unrecognized (.growthOutOfRange growth)) := by
  have hsigned : ∀ m d, r = .success m d →
      Signed d.counter.current ∧ ∀ previous ∈ d.counter.previous, Signed previous := by
    rintro m d rfl
    exact ofJson_signed hp hr
  have halerts : gitHubAlerts payload = r.alerts := by
    rw [gitHubAlerts, hr]
    rfl
  refine ⟨fun outcome => ⟨?_, fun h => halerts.trans (h.alerts_eq hsigned)⟩, fun m d hd => ⟨?_, ?_⟩⟩
  · rintro rfl
    obtain ⟨outcome, h⟩ := r.exists_comesTo
    rw [halerts, h.alerts_eq hsigned]
    exact h
  · intro previous hprevious hcurrent hpos
    obtain ⟨hc, hp'⟩ := hsigned m d hd
    exact (Counter.delta_eq hprevious hcurrent hc.2 hpos (hp' previous hprevious).2).1
  · obtain ⟨hc, hp'⟩ := hsigned m d hd
    exact Counter.delta_in_range hc hp'

/-- The greatest growth there is; `00` and `+1` are not the numbers of releases. -/
theorem GitHubResult.alerts_all_or_none_greatest :
    let release : Json := .object [("release_name", .text "a"), ("tag_name", .text "b")]
    let payload : Json := .object [("result", .object [
      ("data", .object [
        ("no_of_releases", .object [("current", .int 9223372036854775807), ("previous", .int 0)]),
        ("releases", .object [("+1", release), ("0", release), ("00", release)])]),
      ("meta_data", .object [("last_monitored", .int 5), ("repo_id", .text "r"), ("repo_name", .text "x"),
        ("repo_parent_id", .text "p")])])]
    payload.Proper ∧ (∃ r, GitHubResult.ofJson payload = .ok r) ∧ gitHubAlerts payload = .error (.missingItem 1) := by
  intro release payload
  let m : RepoMetadata := ⟨"x", intToFloat 5, "p", "r"⟩
  let d : ReleaseData := ⟨⟨9223372036854775807, some 0⟩, [("+1", ⟨"a", "b"⟩), ("0", ⟨"a", "b"⟩), ("00", ⟨"a", "b"⟩)]⟩
  have hzero : d.release? 0 = some ⟨"a", "b"⟩ := by decide +kernel
  have hone : d.release? 1 = none := by decide +kernel
  have hp : payload.Proper := by
    simp [payload, release]
    decide +kernel
  have hr : GitHubResult.ofJson payload = .ok (.success m d) := by rfl
  have hcomes : ComesTo (.success m d) (.error (.missingItem 1)) := by
    refine .missing rfl (by decide) (by decide) (by decide) (fun r hr => ?_) fun j hj => ⟨⟨"a", "b"⟩, ?_⟩
    · rw [ReleaseData.holds_iff, hone] at hr
      cases hr
    · obtain rfl : j = 0 := Nat.lt_one_iff.mp hj
      exact ReleaseData.holds_iff.mpr hzero
  exact ⟨hp, ⟨_, hr⟩, ((alerts_all_or_none hp hr).1 _).mpr hcomes⟩

end Outcomes

end AlertRelay
