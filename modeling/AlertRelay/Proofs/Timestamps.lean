import AlertRelay.Payload.GitHub
import AlertRelay.Proofs.ReadValues

/-! Every double in a value that was read is finite, and so is the timestamp of
every alert that a payload yields. -/

namespace AlertRelay

/-- A value whose doubles are finite. -/
inductive Json.Finite : Json → Prop
  | null : Json.null.Finite
  | bool (b : Bool) : (Json.bool b).Finite
  | int (n : Int) : (Json.int n).Finite
  | float {x : Float} (h : x.isFinite = true) : (Json.float x).Finite
  | text (s : String) : (Json.text s).Finite
  | array {items : List Json} (h : ∀ v ∈ items, v.Finite) : (Json.array items).Finite
  | object {members : List (String × Json)} (h : ∀ m ∈ members, m.2.Finite) : (Json.object members).Finite

section Reading

theorem Json.finite_inherited : Json.Inherited Json.Finite where
  null := .null
  bool := .bool
  number h := by
    rcases Numeral.value?_cases h with ⟨i, rfl, _⟩ | ⟨x, rfl, hx⟩
    · exact .int i
    · exact .float hx
  text := .text
  array := .array
  object h := .object fun m hm => h m (mem_orderMembers hm)

theorem finite_of_readJsonBytes? {body : ByteArray} {v : Json} (h : readJsonBytes? body = some v) : v.Finite :=
  Json.finite_inherited.of_readJsonBytes? h

end Reading

/-- What a computation results in, if it succeeds, has a property. -/
def Yields {ε α : Type} (x : Except ε α) (P : α → Prop) : Prop := ∀ a, x = .ok a → P a

namespace Yields

variable {ε ε' α β : Type} {x : Except ε α} {f : α → Except ε β} {P : β → Prop} {Q : α → Prop}

theorem ok {a : α} (h : Q a) : Yields (.ok a : Except ε α) Q := by
  rintro _ ⟨⟩
  exact h

theorem error (e : ε) : Yields (.error e : Except ε α) Q := nofun

theorem bind (hx : Yields x Q) (hf : ∀ a, Q a → Yields (f a) P) : Yields (x >>= f) P := by
  intro b hb
  cases hxa : x with
  | error e =>
    rw [hxa] at hb
    cases hb
  | ok a =>
    rw [hxa] at hb
    exact hf a (hx a hxa) b hb

/-- A result that plays no part. -/
theorem skip (hf : ∀ a, Yields (f a) P) : Yields (x >>= f) P :=
  bind (Q := fun _ => True) (fun _ _ => trivial) fun a _ => hf a

theorem map {g : α → β} (h : Yields x fun a => P (g a)) : Yields (x.map g) P := by
  cases x with
  | error e => exact error e
  | ok a => exact ok (h a rfl)

theorem mapError {g : ε → ε'} (h : Yields x Q) : Yields (x.mapError g) Q := by
  cases x with
  | error e => exact error (g e)
  | ok a => exact ok (h a rfl)

end Yields

section Payloads

theorem asReal_finite {v : Json} (h : v.Finite) : Yields v.asReal fun x => x.isFinite = true := by
  cases h with
  | int n => exact .ok (intToFloat_isFinite n)
  | float h => exact .ok h
  | null | bool | text | array | object => exact .error _

theorem readMember_finite {members : List (String × Json)} (h : ∀ m ∈ members, m.2.Finite) (name : String) :
    Yields (readMember members name Json.asReal) fun o => ∀ x ∈ o, x.isFinite = true := by
  unfold readMember
  split
  · exact .ok (by simp)
  · next v hv =>
    have hread := asReal_finite (of_memberValue? h hv)
    refine .map fun x hx => ?_
    rintro _ ⟨⟩
    exact hread x hx

theorem requireField_yields {α : Type} {Q : α → Prop} {o : Option α} (h : ∀ a ∈ o, Q a) (name : String) :
    Yields (requireField name o) Q := by
  cases o with
  | none => exact .error _
  | some a => exact .ok (h a rfl)

theorem readElement_rest {α : Type} {items : List Json} (h : ∀ v ∈ items, v.Finite) (shape : RecordShape) (index : Nat)
    (read : Json → Except Mismatch α) : Yields (readElement shape index read items) fun p => ∀ v ∈ p.2, v.Finite := by
  cases items with
  | nil => exact .error _
  | cons v rest => exact .map fun _ _ w hw => h w (List.mem_cons_of_mem _ hw)

theorem readElement_finite {items : List Json} (h : ∀ v ∈ items, v.Finite) (shape : RecordShape) (index : Nat) :
    Yields (readElement shape index Json.asReal items) fun p => p.1.isFinite = true := by
  cases items with
  | nil => exact .error _
  | cons v rest => exact .map (asReal_finite (h v List.mem_cons_self))

theorem RepoMetadata.ofJson_finite {v : Json} (h : v.Finite) :
    Yields (RepoMetadata.ofJson v) fun m => m.lastMonitored.isFinite = true := by
  cases h with
  | object h =>
    refine (readMember_finite h "last_monitored").bind fun time htime => .skip fun _ => .skip fun _ => .skip fun _ => ?_
    exact .skip fun _ => (requireField_yields htime _).bind fun x hx => .skip fun _ => .skip fun _ => .ok hx
  | array h =>
    refine (readElement_rest h _ _ _).bind fun ⟨_, rest⟩ hrest => ?_
    refine (readElement_finite hrest _ _).bind fun ⟨time, _⟩ htime => ?_
    exact .skip fun _ => .skip fun _ => .skip fun _ => .ok htime
  | null | bool | int | float | text => exact .error _

theorem RepoFailure.ofJson_finite {v : Json} (h : v.Finite) :
    Yields (RepoFailure.ofJson v) fun f => f.time.isFinite = true := by
  cases h with
  | object h =>
    refine .skip fun _ => .skip fun _ => .skip fun _ => (readMember_finite h "time").bind fun time htime => ?_
    exact .skip fun _ => (requireField_yields htime _).bind fun x hx => .skip fun _ => .skip fun _ => .ok hx
  | array h =>
    refine (readElement_rest h _ _ _).bind fun ⟨_, rest⟩ hrest => ?_
    refine (readElement_finite hrest _ _).bind fun ⟨time, _⟩ htime => ?_
    exact .skip fun _ => .skip fun _ => .skip fun _ => .ok htime
  | null | bool | int | float | text => exact .error _

theorem readContent_yields {α : Type} {Q : α → Prop} {parent : Json} (h : parent.Finite) (name : String)
    {read : Json → Except Mismatch α} (hread : ∀ v, v.Finite → Yields (read v) Q) :
    Yields (readContent parent name read) Q := by
  unfold readContent
  cases h with
  | object h =>
    cases hv : (Json.object _).get? name with
    | none => exact .error _
    | some v => exact .mapError (hread v (of_memberValue? h hv))
  | null | bool | int | float | text | array => exact .error _

/-- A result whose time is finite. -/
def GitHubResult.Finite : GitHubResult → Prop
  | .success metadata _ => metadata.lastMonitored.isFinite = true
  | .failure metadata => metadata.time.isFinite = true

theorem GitHubResult.ofJson_finite {payload : Json} (h : payload.Finite) :
    Yields (GitHubResult.ofJson payload) GitHubResult.Finite := by
  unfold GitHubResult.ofJson Envelope.ofJson
  cases h with
  | object h =>
    dsimp only
    split
    · next result hresult =>
      have hparent := of_memberValue? h hresult
      refine (readContent_yields hparent _ fun _ => RepoMetadata.ofJson_finite).bind fun m hm => ?_
      exact .skip fun _ => .ok hm
    · next error _ herror =>
      have hparent := of_memberValue? h herror
      exact (readContent_yields hparent _ fun _ => RepoFailure.ofJson_finite).bind fun f hf => .ok hf
    · exact .error _
  | null | bool | int | float | text | array => exact .error _

/-- Every alert of a result has the time of the result. -/
theorem GitHubResult.alerts_finite {r : GitHubResult} (h : r.Finite) :
    Yields r.alerts fun alerts => ∀ a ∈ alerts, a.timestamp.isFinite = true := by
  cases r with
  | success metadata data =>
    refine .skip fun delta => .skip fun releases => .ok ?_
    intro a ha
    obtain ⟨release, _, rfl⟩ := List.mem_map.mp ha
    exact h
  | failure metadata =>
    refine .ok fun a ha => ?_
    rw [List.mem_singleton.mp ha]
    exact h

theorem gitHubAlerts_finite {payload : Json} (h : payload.Finite) :
    Yields (gitHubAlerts payload) fun alerts => ∀ a ∈ alerts, a.timestamp.isFinite = true :=
  (GitHubResult.ofJson_finite h).bind fun _ => GitHubResult.alerts_finite

theorem Rule.gitHub_finite (body : ByteArray) :
    Yields (Rule.gitHub.classify body) fun alerts => ∀ a ∈ alerts, a.timestamp.isFinite = true := by
  unfold Rule.classify
  split
  · exact .error _
  · next payload hpayload => exact gitHubAlerts_finite (finite_of_readJsonBytes? hpayload)

end Payloads

end AlertRelay
