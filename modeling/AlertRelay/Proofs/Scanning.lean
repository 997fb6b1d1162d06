import AlertRelay.Json.Scan
import AlertRelay.Proofs.NumberText
import AlertRelay.Proofs.Utf8

/-! The scanner at work: how it is said that a text is read as a document, and what it makes
of the digits of a number. -/

namespace AlertRelay

/-- Containers in which a value may stand next. -/
def Awaiting : List Frame → Prop
  | .object _ none :: _ => False
  | _ => True

/-- What follows a value inside a container. -/
def IsSeparator (c : Char) : Prop := c = ',' ∨ c = ']' ∨ c = '\x7d'

/-- A text that is read as this document. A number is known to be complete only
from what follows it. -/
def Reads (cs : List Char) (d : Document) : Prop :=
  ∀ frames closable c, Awaiting frames → IsSeparator c →
    (cs ++ [c]).foldl Scan.step ⟨frames, .value closable⟩ = (Scan.deliver frames d).step c

/-- A text that is read as this document whatever follows. -/
def Closes (cs : List Char) (d : Document) : Prop :=
  ∀ frames closable, Awaiting frames → cs.foldl Scan.step ⟨frames, .value closable⟩ = Scan.deliver frames d

theorem Closes.reads {cs : List Char} {d : Document} (h : Closes cs d) : Reads cs d := by
  intro frames closable c hframes _
  rw [List.foldl_append, h frames closable hframes]
  rfl

theorem follow_deliver {frames : List Frame} (h : Awaiting frames) (d : Document) (c : Char) :
    (Scan.deliver frames d).follow c = (Scan.deliver frames d).step c := by
  cases frames with
  | nil => rfl
  | cons f rest =>
    cases f with
    | array items => rfl
    | object members name =>
      cases name with
      | none => exact h.elim
      | some name => rfl

section Numbers

variable {frames : List Frame} {n : Numeral} {c : Char} {cs : List Char}

theorem number_more {p p' : NumberPhase} {n' : Numeral} (h : p.step n c = .more p' n') :
    Scan.step ⟨frames, .number p n⟩ c = ⟨frames, .number p' n'⟩ := by
  simp only [Scan.step, h]

/-- Digits leave a phase as it is. -/
theorem foldl_digits {p : NumberPhase} {push : Numeral → Char → Numeral}
    (hstep : ∀ n c, c.isDigit = true → p.step n c = .more p (push n c)) (hcs : ∀ x ∈ cs, x.isDigit = true) :
    cs.foldl Scan.step ⟨frames, .number p n⟩ = ⟨frames, .number p (cs.foldl push n)⟩ := by
  induction cs generalizing n with
  | nil => rfl
  | cons c cs ih =>
    rw [List.foldl_cons, number_more (hstep n c (hcs c List.mem_cons_self))]
    exact ih fun x hx => hcs x (List.mem_cons_of_mem _ hx)

theorem step_whole (n : Numeral) (c : Char) (hc : c.isDigit = true) :
    NumberPhase.step n c .whole = .more .whole (n.pushWhole c) := if_pos hc

theorem step_fraction (n : Numeral) (c : Char) (hc : c.isDigit = true) :
    NumberPhase.step n c .fraction = .more .fraction (n.pushFraction c) := if_pos hc

theorem step_exponent (n : Numeral) (c : Char) (hc : c.isDigit = true) :
    NumberPhase.step n c .exponent = .more .exponent (n.pushExponent c) := if_pos hc

theorem foldl_pushWhole_chars (cs : List Char) (n : Numeral) :
    cs.foldl Numeral.pushWhole n = { n with whole := (cs.map digitOf).reverse ++ n.whole } := by
  induction cs generalizing n with
  | nil => rfl
  | cons c cs ih => simp [ih, Numeral.pushWhole]

theorem foldl_pushFraction_chars (cs : List Char) (n : Numeral) :
    cs.foldl Numeral.pushFraction n = { n with fraction := (cs.map digitOf).reverse ++ n.fraction } := by
  induction cs generalizing n with
  | nil => rfl
  | cons c cs ih => simp [ih, Numeral.pushFraction]

theorem foldl_pushExponent_chars (cs : List Char) (n : Numeral) :
    cs.foldl Numeral.pushExponent n =
      { n with exponent := n.exponent.map fun e => (e.1, (cs.map digitOf).reverse ++ e.2) } := by
  induction cs generalizing n with
  | nil => simp
  | cons c cs ih => simp [ih, Numeral.pushExponent, Function.comp_def]

theorem beginValue_digit19 {closable : Bool} (hc : isDigit19 c = true) :
    Scan.beginValue frames closable c = ⟨frames, .number .whole ⟨false, [digitOf c], [], none⟩⟩ := by
  have hne (x : Char) (hx : isDigit19 x = false) : c ≠ x := by
    rintro rfl
    rw [hc] at hx
    cases hx
  simp [Scan.beginValue, isJsonBlank, hc, hne ' ' rfl, hne '\n' rfl, hne '\r' rfl, hne '\t' rfl, hne '[' rfl,
    hne '\x7b' rfl, hne '"' rfl, hne '-' rfl, hne '0' rfl]

/-- A number may end before a separator. -/
theorem step_separator {p : NumberPhase} (hp : p.complete = true) (hc : IsSeparator c) : p.step n c = .stop := by
  rcases hc with rfl | rfl | rfl <;> cases p <;> first | rfl | cases hp

end Numbers

namespace NumberText

variable {t : NumberText} (frames : List Frame)

/-- The sign and the digits before the point. -/
theorem WellFormed.scan_whole (h : t.WellFormed) (closable : Bool) : ∃ p, (p = .zero ∨ p = .whole) ∧
    ((if t.negative then ['-'] else []) ++ t.whole).foldl Scan.step ⟨frames, .value closable⟩ =
      ⟨frames, .number p ⟨t.negative, (t.whole.map digitOf).reverse, [], none⟩⟩ := by
  rcases h.whole with hzero | ⟨c, cs, hcs, hc, hall⟩
  · refine ⟨.zero, .inl rfl, ?_⟩
    rw [hzero]
    cases t.negative <;> rfl
  · refine ⟨.whole, .inr rfl, ?_⟩
    have hfirst : ((if t.negative then ['-'] else []) ++ [c]).foldl Scan.step ⟨frames, .value closable⟩ =
        ⟨frames, .number .whole ⟨t.negative, [digitOf c], [], none⟩⟩ := by
      cases t.negative with
      | false => exact beginValue_digit19 hc
      | true =>
        have hne : c ≠ '0' := by
          rintro rfl
          cases hc
        exact number_more (by simp [NumberPhase.step, hne, hc, Numeral.pushWhole])
    rw [hcs, List.append_cons, List.foldl_append, hfirst, foldl_digits step_whole hall, foldl_pushWhole_chars]
    simp

/-- A point and the digits after it, if there are any. -/
theorem WellFormed.scan_fraction (h : t.WellFormed) {p : NumberPhase} (hp : p = .zero ∨ p = .whole)
    (whole : List Nat) : ∃ p', (p' = .zero ∨ p' = .whole ∨ p' = .fraction) ∧
    (if t.fraction.isEmpty then [] else '.' :: t.fraction).foldl Scan.step
      ⟨frames, .number p ⟨t.negative, whole, [], none⟩⟩ =
        ⟨frames, .number p' ⟨t.negative, whole, (t.fraction.map digitOf).reverse, none⟩⟩ := by
  cases hf : t.fraction with
  | nil => exact ⟨p, hp.imp_right .inl, rfl⟩
  | cons c cs =>
    refine ⟨.fraction, .inr (.inr rfl), ?_⟩
    have hall : ∀ x ∈ c :: cs, x.isDigit = true := fun x hx => h.fraction x (hf ▸ hx)
    have hpoint : Scan.step ⟨frames, .number p ⟨t.negative, whole, [], none⟩⟩ '.' =
        ⟨frames, .number .point ⟨t.negative, whole, [], none⟩⟩ := by
      rcases hp with rfl | rfl <;> rfl
    have hfirst : NumberPhase.step ⟨t.negative, whole, [], none⟩ c .point =
        .more .fraction ⟨t.negative, whole, [digitOf c], none⟩ := if_pos (hall c List.mem_cons_self)
    rw [List.isEmpty_cons, if_neg Bool.false_ne_true, List.foldl_cons, hpoint, List.foldl_cons, number_more hfirst,
      foldl_digits step_fraction fun x hx => hall x (List.mem_cons_of_mem _ hx), foldl_pushFraction_chars]
    simp

end NumberText

theorem scanBytes_toUTF8 (s : String) : scanBytes s.toUTF8 = scanDocument s.toList := by
  have hread : Scan.start.readBytes (encodeUtf8 s.toList) = s.toList.foldl Scan.step .start := by
    rw [Scan.readBytes]
    split
    next => rw [utf8Text_encodeUtf8, String.toList_ofList]
    next f hfault =>
      rw [utf8Fault?_encodeUtf8] at hfault
      cases hfault
  rw [scanBytes, toUTF8_toList, hread, scanDocument]

theorem readJsonBytes?_toUTF8 (s : String) : readJsonBytes? s.toUTF8 = readJson? s.toList := by
  rw [readJsonBytes?, fromUTF8?_toUTF8, Option.bind_some]

end AlertRelay
