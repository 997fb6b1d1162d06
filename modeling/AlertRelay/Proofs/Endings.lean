import AlertRelay.Proofs.Grammar
import AlertRelay.Proofs.ReadValues

/-! What may follow a document. Where a scan stands is told by its frames, blanks at the end
change no value, and a value that is not a number ends with its last character: a text that
has such a value has none with more than blanks behind it. -/

namespace AlertRelay

section Order

variable {frames : List Frame} {s : Scan}

/-- No name waits for its value in the innermost container. -/
def NameFree : List Frame → Prop
  | .object _ (some _) :: _ => False
  | _ => True

/-- Values and names are read only where they may stand, and words are spelled with letters. -/
def Scan.Orderly (s : Scan) : Prop :=
  match s.mode with
  | .value _ | .colon | .number _ _ | .text false _ _ => Awaiting s.frames
  | .word rest _ => Awaiting s.frames ∧ ∀ c ∈ rest, c.isAlpha = true
  | .name _ | .text true _ _ | .after => NameFree s.frames
  | .done _ | .failed _ => True

theorem deliver_free (frames : List Frame) (d : Document) : NameFree (Scan.deliver frames d).frames := by
  unfold Scan.deliver
  split <;> trivial

theorem deliver_orderly (frames : List Frame) (d : Document) : (Scan.deliver frames d).Orderly := by
  unfold Scan.deliver
  split <;> trivial

theorem close_orderly (frames : List Frame) (c : Char) : (Scan.close frames c).Orderly := by
  unfold Scan.close
  split
  · split
    · exact deliver_orderly _ _
    · trivial
  · split
    · exact deliver_orderly _ _
    · trivial
  · trivial

theorem afterValue_orderly (h : NameFree frames) (c : Char) : (Scan.afterValue frames c).Orderly := by
  unfold Scan.afterValue
  split
  · exact h
  split
  · split
    · trivial
    · exact h
  · exact close_orderly _ _

theorem afterRoot_orderly (root : Document) (c : Char) : (Scan.afterRoot root c).Orderly := by
  unfold Scan.afterRoot
  split <;> trivial

/-- The ways in which a value can begin. -/
theorem beginValue_cases {P : Scan → Prop} {closable : Bool} {c : Char} (blank : P ⟨frames, .value closable⟩)
    (array : P ⟨.array [] :: frames, .value true⟩) (object : P ⟨.object [] none :: frames, .name true⟩)
    (text : P ⟨frames, .text false .empty .plain⟩) (number : ∀ p n, P ⟨frames, .number p n⟩)
    (word : ∀ rest d, (∀ x ∈ rest, x.isAlpha = true) → P ⟨frames, .word rest d⟩)
    (close : P (Scan.close frames c)) (fail : P (Scan.fail frames)) : P (Scan.beginValue frames closable c) := by
  unfold Scan.beginValue
  refine iteInduction (fun _ => blank) fun _ => ?_
  refine iteInduction (fun _ => array) fun _ => ?_
  refine iteInduction (fun _ => object) fun _ => ?_
  refine iteInduction (fun _ => text) fun _ => ?_
  refine iteInduction (fun _ => number _ _) fun _ => ?_
  refine iteInduction (fun _ => number _ _) fun _ => ?_
  refine iteInduction (fun _ => number _ _) fun _ => ?_
  refine iteInduction (fun _ => word _ _ (List.all_eq_true.mp rfl)) fun _ => ?_
  refine iteInduction (fun _ => word _ _ (List.all_eq_true.mp rfl)) fun _ => ?_
  refine iteInduction (fun _ => word _ _ (List.all_eq_true.mp rfl)) fun _ => ?_
  exact iteInduction (fun _ => close) fun _ => fail

theorem beginValue_orderly (h : Awaiting frames) (closable : Bool) (c : Char) :
    (Scan.beginValue frames closable c).Orderly := by
  apply beginValue_cases
  case blank => exact h
  case array => trivial
  case object => trivial
  case text => exact h
  case number => exact fun _ _ => h
  case word => exact fun _ _ hrest => ⟨h, hrest⟩
  case close => exact close_orderly frames c
  case fail => trivial

theorem beginName_orderly (h : NameFree frames) (closable : Bool) (c : Char) :
    (Scan.beginName frames closable c).Orderly := by
  unfold Scan.beginName
  iterate 2
    split
    · exact h
  split
  · exact close_orderly _ _
  · trivial

theorem endText_orderly (frames : List Frame) (isName : Bool) (sp : Spelling) :
    (Scan.endText frames isName sp).Orderly := by
  unfold Scan.endText
  split
  · split <;> trivial
  · exact deliver_orderly _ _

theorem textStep_orderly {isName : Bool} (h : ∀ sp e, (⟨frames, .text isName sp e⟩ : Scan).Orderly) (sp : Spelling)
    (c : Char) (e : EscapePhase) : (Scan.textStep frames isName sp c e).Orderly := by
  unfold Scan.textStep
  cases e with
  | plain =>
    simp only
    split
    · exact endText_orderly _ _ _
    split
    · exact h _ _
    split
    · trivial
    · exact h _ _
  | backslash =>
    simp only
    split
    · exact h _ _
    split
    · exact h _ _
    · trivial
  | unit count value =>
    simp only
    split
    · trivial
    split
    · exact h _ _
    · exact h _ _

theorem wordStep_orderly {rest : List Char} (hframes : Awaiting frames) (h : ∀ c ∈ rest, c.isAlpha = true)
    (d : Document) (c : Char) : (Scan.wordStep frames rest d c).Orderly := by
  unfold Scan.wordStep
  split
  · trivial
  split
  · split
    · exact deliver_orderly _ _
    · exact ⟨hframes, fun y hy => h y (List.mem_cons_of_mem _ hy)⟩
  · trivial

theorem follow_orderly (frames : List Frame) (d : Document) (c : Char) :
    ((Scan.deliver frames d).follow c).Orderly := by
  unfold Scan.follow
  split
  · exact afterRoot_orderly _ _
  · exact afterValue_orderly (deliver_free _ _) c

theorem step_orderly (h : s.Orderly) (c : Char) : (s.step c).Orderly := by
  obtain ⟨frames, mode⟩ := s
  cases mode with
  | value closable => exact beginValue_orderly h _ _
  | name closable => exact beginName_orderly h _ _
  | colon =>
    unfold Scan.step
    simp only
    split
    · exact h
    split
    · exact h
    · trivial
  | word rest d => exact wordStep_orderly h.1 h.2 _ _
  | number p n =>
    unfold Scan.step
    simp only
    split
    · exact h
    · exact follow_orderly _ _ _
    · trivial
  | text isName sp e =>
    cases isName with
    | false => exact textStep_orderly (fun _ _ => h) _ _ _
    | true => exact textStep_orderly (fun _ _ => h) _ _ _
  | after => exact afterValue_orderly h _
  | done root => exact afterRoot_orderly _ _
  | failed root => trivial

theorem start_orderly : Scan.start.Orderly := trivial

theorem foldl_orderly (h : s.Orderly) (cs : List Char) : (cs.foldl Scan.step s).Orderly :=
  List.foldlRecOn (motive := Scan.Orderly) cs _ h fun _ hs c _ => step_orderly hs c

end Order

section Ends

variable {s : Scan} {c : Char} {d : Document} {cs : List Char}

/-- A text that is JSON to its end has its value in its place, or is a number in no container. -/
theorem result_cases (h : s.result = (d, true)) : s.mode = .done d ∨
    ∃ p n, s = ⟨[], .number p n⟩ ∧ d = .number n.finish := by
  obtain ⟨frames, mode⟩ := s
  cases mode with
  | done root =>
    cases h
    exact .inl rfl
  | number p n =>
    unfold Scan.result Scan.atEnd at h
    cases hp : p.complete with
    | false =>
      simp only [hp] at h
      cases h
    | true =>
      simp only [hp] at h
      cases frames with
      | nil =>
        cases h
        exact .inr ⟨p, n, rfl, rfl⟩
      | cons f frames => cases h
  | value | name | colon | word | text | after | failed => cases h

/-- What a scan comes to if the text ends here. -/
def Scan.value? (s : Scan) : Option Json :=
  match s.result with
  | (d, true) => d.value?
  | (_, false) => none

theorem readJson?_eq (cs : List Char) : readJson? cs = (cs.foldl Scan.step .start).value? := rfl

theorem value?_eq_some {v : Json} (h : s.value? = some v) : ∃ d, s.result = (d, true) ∧ d.value? = some v := by
  unfold Scan.value? at h
  split at h
  · next d hd => exact ⟨d, hd, h⟩
  · cases h

theorem step_number_blank {p : NumberPhase} (n : Numeral) (hp : p.complete = false) (hc : isJsonBlank c = true) :
    p.step n c = .bad := by
  simp only [isJsonBlank, Bool.or_eq_true, decide_eq_true_eq] at hc
  rcases hc with ((rfl | rfl) | rfl) | rfl <;> cases p <;> first | rfl | cases hp

theorem wordStep_blank {frames : List Frame} {rest : List Char} (h : ∀ x ∈ rest, x.isAlpha = true) (root : Document)
    (hc : isJsonBlank c = true) : Scan.wordStep frames rest root c = Scan.fail frames := by
  cases rest with
  | nil => rfl
  | cons x more =>
    have hne : c ≠ x := by
      rintro rfl
      have halpha := h c List.mem_cons_self
      simp only [isJsonBlank, Bool.or_eq_true, decide_eq_true_eq] at hc
      rcases hc with ((rfl | rfl) | rfl) | rfl <;> cases halpha
    unfold Scan.wordStep
    simp only [if_neg hne]

theorem textStep_blank {frames : List Frame} {isName : Bool} (sp : Spelling) (hc : isJsonBlank c = true)
    (e : EscapePhase) : (Scan.textStep frames isName sp c e).value? = none := by
  have hquote : c ≠ '"' := by
    rintro rfl
    cases hc
  unfold Scan.textStep
  cases e with
  | plain =>
    simp only [if_neg hquote]
    split
    · rfl
    · split <;> rfl
  | backslash =>
    simp only
    split
    · rfl
    · split <;> rfl
  | unit count value =>
    simp only
    split
    · rfl
    · split <;> rfl

theorem value?_number {p : NumberPhase} (n : Numeral) (hp : p.complete = true) :
    Scan.value? ⟨[], .number p n⟩ = n.finish.value? := by
  cases p <;> first | rfl | cases hp

/-- Inside a container no text ends. -/
theorem value?_open_number (f : Frame) (frames : List Frame) (p : NumberPhase) (n : Numeral) :
    Scan.value? ⟨f :: frames, .number p n⟩ = none := by
  cases p <;> rfl

theorem value?_open_deliver (f : Frame) (frames : List Frame) (d : Document) :
    (Scan.deliver (f :: frames) d).value? = none := by
  cases f with
  | array items => rfl
  | object members name => cases name <;> rfl

/-- A blank only shows that a number has ended. -/
theorem value?_step_blank (h : s.Orderly) (hc : isJsonBlank c = true) : (s.step c).value? = s.value? := by
  obtain ⟨frames, mode⟩ := s
  cases mode with
  | value closable => rw [step_value_blank closable c hc]
  | name closable => rw [step_name_blank closable c hc]
  | colon => rw [step_colon_blank c hc]
  | word rest root =>
    have hstep : Scan.step ⟨frames, .word rest root⟩ c = Scan.fail frames := wordStep_blank h.2 root hc
    rw [hstep]
    rfl
  | number p n =>
    cases hp : p.complete with
    | false =>
      have hstep : Scan.step ⟨frames, .number p n⟩ c = Scan.fail frames := by
        simp only [Scan.step, step_number_blank n hp hc]
      rw [hstep]
      cases p <;> first | rfl | cases hp
    | true =>
      have hstep : Scan.step ⟨frames, .number p n⟩ c = Scan.deliver frames (.number n.finish) := by
        simp only [Scan.step, step_follow hp (.inr hc)]
        rw [follow_deliver h, step_deliver_blank h _ c hc]
      rw [hstep]
      cases frames with
      | nil =>
        rw [value?_number n hp]
        rfl
      | cons f frames => rw [value?_open_deliver, value?_open_number]
  | text isName sp e =>
    exact textStep_blank sp hc e
  | after =>
    have hstep : Scan.step ⟨frames, .after⟩ c = ⟨frames, .after⟩ := if_pos hc
    rw [hstep]
  | done root =>
    have hstep : Scan.step ⟨frames, .done root⟩ c = ⟨[], .done root⟩ := if_pos hc
    rw [hstep]
    rfl
  | failed root => rfl

theorem value?_foldl_blanks (h : s.Orderly) (hcs : Blank cs) : (cs.foldl Scan.step s).value? = s.value? := by
  induction cs generalizing s with
  | nil => rfl
  | cons c cs ih =>
    obtain ⟨hc, hcs⟩ := List.forall_mem_cons.mp hcs
    rw [List.foldl_cons, ih (step_orderly h c) hcs, value?_step_blank h hc]

/-- Blanks around a text change nothing. -/
theorem readJson?_blanks {bs as : List Char} (hb : Blank bs) (ha : Blank as) (cs : List Char) :
    readJson? (bs ++ cs ++ as) = readJson? cs := by
  have hbefore : bs.foldl Scan.step .start = .start := foldl_blanks hb (step_value_blank false)
  have horderly : (cs.foldl Scan.step .start).Orderly := foldl_orderly start_orderly cs
  rw [readJson?_eq, readJson?_eq, List.foldl_append, List.foldl_append, hbefore, value?_foldl_blanks horderly ha]

theorem foldl_failed {root : Document} (h : s.mode = .failed root) (cs : List Char) :
    cs.foldl Scan.step s = s := by
  induction cs with
  | nil => rfl
  | cons c cs ih =>
    have hstep : s.step c = s := by
      unfold Scan.step
      simp only [h]
    rw [List.foldl_cons, hstep, ih]

/-- Behind a value that is in its place there is nothing but blanks. -/
theorem foldl_done {root : Document} (h : s.mode = .done root) (hcs : ¬ Blank cs) :
    (cs.foldl Scan.step s).value? = none := by
  induction cs generalizing s with
  | nil => exact absurd (by decide) hcs
  | cons c cs ih =>
    have hstep : s.step c = Scan.afterRoot root c := by
      unfold Scan.step
      simp only [h]
    rw [List.foldl_cons, hstep]
    unfold Scan.afterRoot
    cases hc : isJsonBlank c with
    | true =>
      have hrest : ¬ Blank cs := fun hall => hcs (List.forall_mem_cons.mpr ⟨hc, hall⟩)
      exact ih rfl hrest
    | false =>
      have hfailed := foldl_failed (s := ⟨[], .failed root⟩) rfl cs
      rw [if_neg Bool.false_ne_true, hfailed]
      rfl

/-- A number may go on, but any other value ends with its last character. -/
theorem readJson?_extended {v : Json} (h : readJson? cs = some v) (hint : ∀ n, v ≠ .int n) (hfloat : ∀ x, v ≠ .float x)
    {more : List Char} (hmore : ¬ Blank more) : readJson? (cs ++ more) = none := by
  rw [readJson?_eq] at h
  rw [readJson?_eq, List.foldl_append]
  obtain ⟨d, hd, hv⟩ := value?_eq_some h
  rcases result_cases hd with hdone | ⟨p, n, -, rfl⟩
  · exact foldl_done hdone hmore
  · rcases Numeral.value?_cases hv with ⟨i, rfl, -⟩ | ⟨x, rfl, -⟩
    · exact absurd rfl (hint i)
    · exact absurd rfl (hfloat x)

end Ends

end AlertRelay
