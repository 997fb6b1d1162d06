import AlertRelay.Proofs.Scanning

/-! The grammar of JSON texts, in terms of what they say. The scanner reads every text
that the grammar derives as what it says. -/

namespace AlertRelay

def Blank (cs : List Char) : Prop := ∀ c ∈ cs, isJsonBlank c = true

instance (cs : List Char) : Decidable (Blank cs) := List.decidableBAll _ cs

/-- The four digits of a code unit. -/
inductive CodeUnit : List Char → Nat → Prop
  | digits {a b c d : Char} {p q r s : Nat} (ha : hexDigit? a = some p) (hb : hexDigit? b = some q)
      (hc : hexDigit? c = some r) (hd : hexDigit? d = some s) :
      CodeUnit [a, b, c, d] (16 * (16 * (16 * p + q) + r) + s)

/-- What stands between the quotes of a string, and the characters that it spells. A code
unit that is half of a pair spells none without the other half. -/
inductive Literal : List Char → List Char → Prop
  | nil : Literal [] []
  | plain {c : Char} {cs s : List Char} (hquote : c ≠ '"') (hslash : c ≠ '\\') (hcontrol : 0x20 ≤ c.toNat)
      (h : Literal cs s) : Literal (c :: cs) (c :: s)
  | escape {c x : Char} {cs s : List Char} (hx : simpleEscape? c = some x) (h : Literal cs s) :
      Literal ('\\' :: c :: cs) (x :: s)
  | unit {ds cs s : List Char} {u : Nat} (hu : CodeUnit ds u) (hwhole : u < 0xd800 ∨ 0xe000 ≤ u)
      (h : Literal cs s) : Literal ('\\' :: 'u' :: (ds ++ cs)) (Char.ofNat u :: s)
  | pair {ds es cs s : List Char} {u v : Nat} (hu : CodeUnit ds u) (hv : CodeUnit es v)
      (hhigh : 0xd800 ≤ u ∧ u < 0xdc00) (hlow : 0xdc00 ≤ v ∧ v < 0xe000) (h : Literal cs s) :
      Literal ('\\' :: 'u' :: (ds ++ '\\' :: 'u' :: (es ++ cs))) (pairedChar u v :: s)

/-- Characters that spell themselves. -/
def Verbatim (cs : List Char) : Prop := ∀ c ∈ cs, c ≠ '"' ∧ c ≠ '\\' ∧ 0x20 ≤ c.toNat

instance (cs : List Char) : Decidable (Verbatim cs) := List.decidableBAll _ cs

theorem Verbatim.literal {as cs s : List Char} (ha : Verbatim as) (h : Literal cs s) :
    Literal (as ++ cs) (as ++ s) := by
  induction as with
  | nil => exact h
  | cons c as ih =>
    obtain ⟨⟨hquote, hslash, hcontrol⟩, has⟩ := List.forall_mem_cons.mp ha
    exact .plain hquote hslash hcontrol (ih has)

/-- How an exponent may be written, if there is one. -/
inductive ExponentText : List Char → Option (Bool × List Char) → Prop
  | absent : ExponentText [] none
  | bare {mark : Char} (h : isExponentMark mark = true) (ds : List Char) :
      ExponentText (mark :: ds) (some (false, ds))
  | plus {mark : Char} (h : isExponentMark mark = true) (ds : List Char) :
      ExponentText (mark :: '+' :: ds) (some (false, ds))
  | minus {mark : Char} (h : isExponentMark mark = true) (ds : List Char) :
      ExponentText (mark :: '-' :: ds) (some (true, ds))

/-- What a part of a text says; an element is a value with blanks around it. -/
inductive Phrase
  | value (d : Document)
  | element (d : Document)
  | elements (ds : List Document)
  | member (name : String) (d : Document)
  | members (ms : List (String × Document))

inductive Denotes : List Char → Phrase → Prop
  | nullWord : Denotes ['n', 'u', 'l', 'l'] (.value .null)
  | trueWord : Denotes ['t', 'r', 'u', 'e'] (.value (.bool true))
  | falseWord : Denotes ['f', 'a', 'l', 's', 'e'] (.value (.bool false))
  | number {t : NumberText} {exponent : List Char} (ht : t.WellFormed) (he : ExponentText exponent t.exponent) :
      Denotes ((if t.negative then ['-'] else []) ++ t.whole ++
        (if t.fraction.isEmpty then [] else '.' :: t.fraction) ++ exponent) (.value (.number t.numeral))
  | text {cs s : List Char} (h : Literal cs s) :
      Denotes ('"' :: (cs ++ ['"'])) (.value (.text (some (String.ofList s))))
  | emptyArray {bs : List Char} (hb : Blank bs) : Denotes ('[' :: (bs ++ [']'])) (.value (.array [] true))
  | array {cs : List Char} {ds : List Document} (h : Denotes cs (.elements ds)) :
      Denotes ('[' :: (cs ++ [']'])) (.value (.array ds true))
  | emptyObject {bs : List Char} (hb : Blank bs) :
      Denotes ('\x7b' :: (bs ++ ['\x7d'])) (.value (.object [] true))
  | object {cs : List Char} {ms : List (String × Document)} (h : Denotes cs (.members ms)) :
      Denotes ('\x7b' :: (cs ++ ['\x7d'])) (.value (.object (ms.map fun m => (some m.1, m.2)) true))
  | element {bs cs as : List Char} {d : Document} (hb : Blank bs) (h : Denotes cs (.value d)) (ha : Blank as) :
      Denotes (bs ++ (cs ++ as)) (.element d)
  | lastElement {cs : List Char} {d : Document} (h : Denotes cs (.element d)) : Denotes cs (.elements [d])
  | elements {cs rest : List Char} {d : Document} {ds : List Document} (h : Denotes cs (.element d))
      (hrest : Denotes rest (.elements ds)) : Denotes (cs ++ ',' :: rest) (.elements (d :: ds))
  | member {bs name as cs s : List Char} {d : Document} (hb : Blank bs) (hname : Literal name s) (ha : Blank as)
      (h : Denotes cs (.element d)) :
      Denotes (bs ++ '"' :: (name ++ '"' :: (as ++ ':' :: cs))) (.member (String.ofList s) d)
  | lastMember {cs : List Char} {name : String} {d : Document} (h : Denotes cs (.member name d)) :
      Denotes cs (.members [(name, d)])
  | members {cs rest : List Char} {name : String} {d : Document} {ms : List (String × Document)}
      (h : Denotes cs (.member name d)) (hrest : Denotes rest (.members ms)) :
      Denotes (cs ++ ',' :: rest) (.members ((name, d) :: ms))

section Literals

variable {frames : List Frame} {isName : Bool} {acc : List Char}

theorem CodeUnit.scan {ds : List Char} {u : Nat} (h : CodeUnit ds u) (frames : List Frame) (isName : Bool)
    (s : Spelling) :
    ('\\' :: 'u' :: ds).foldl Scan.step ⟨frames, .text isName s .plain⟩ =
      ⟨frames, .text isName (s.pushUnit u) .plain⟩ := by
  obtain ⟨ha, hb, hc, hd⟩ := h
  have hstart : ['\\', 'u'].foldl Scan.step ⟨frames, .text isName s .plain⟩ =
      ⟨frames, .text isName s (.unit 0 0)⟩ := rfl
  refine (congrArg (List.foldl Scan.step · _) hstart).trans ?_
  simp [Scan.step, Scan.textStep, ha, hb, hc, hd]

theorem pushUnit_whole {u : Nat} (h : u < 0xd800 ∨ 0xe000 ≤ u) :
    Spelling.pushUnit ⟨acc, none, true⟩ u = ⟨Char.ofNat u :: acc, none, true⟩ := by
  have hhigh : ¬ (0xd800 ≤ u ∧ u < 0xdc00) := by omega
  have hlow : ¬ (0xdc00 ≤ u ∧ u < 0xe000) := by omega
  simp [Spelling.pushUnit, Spelling.push, hhigh, hlow]

theorem pushUnit_pair {u v : Nat} (hu : 0xd800 ≤ u ∧ u < 0xdc00) (hv : 0xdc00 ≤ v ∧ v < 0xe000) :
    (Spelling.pushUnit ⟨acc, none, true⟩ u).pushUnit v = ⟨pairedChar u v :: acc, none, true⟩ := by
  simp [Spelling.pushUnit, hu, hv]

theorem Literal.scan {cs s : List Char} (h : Literal cs s) (acc : List Char) :
    cs.foldl Scan.step ⟨frames, .text isName ⟨acc, none, true⟩ .plain⟩ =
      ⟨frames, .text isName ⟨s.reverse ++ acc, none, true⟩ .plain⟩ := by
  induction h generalizing acc with
  | nil => rfl
  | @plain c cs s hquote hslash hcontrol h ih =>
    have hpush : Scan.step ⟨frames, .text isName ⟨acc, none, true⟩ .plain⟩ c =
        ⟨frames, .text isName ⟨c :: acc, none, true⟩ .plain⟩ := by
      simp [Scan.step, Scan.textStep, Spelling.push, hquote, hslash, Nat.not_lt.mpr hcontrol]
    rw [List.foldl_cons, hpush, ih]
    simp
  | @escape c x cs s hx h ih =>
    have hunit : c ≠ 'u' := by
      rintro rfl
      cases hx
    have hpush : ['\\', c].foldl Scan.step ⟨frames, .text isName ⟨acc, none, true⟩ .plain⟩ =
        ⟨frames, .text isName ⟨x :: acc, none, true⟩ .plain⟩ := by
      simp [Scan.step, Scan.textStep, Spelling.push, hunit, hx]
    refine (congrArg (List.foldl Scan.step · cs) hpush).trans ?_
    rw [ih]
    simp
  | @unit ds cs s u hu hwhole h ih =>
    have hscan := hu.scan frames isName ⟨acc, none, true⟩
    rw [pushUnit_whole hwhole] at hscan
    rw [← List.cons_append, ← List.cons_append, List.foldl_append, hscan, ih]
    simp
  | @pair ds es cs s u v hu hv hhigh hlow h ih =>
    have hfirst := hu.scan frames isName ⟨acc, none, true⟩
    have hsecond := hv.scan frames isName (Spelling.pushUnit ⟨acc, none, true⟩ u)
    rw [pushUnit_pair hhigh hlow] at hsecond
    rw [← List.cons_append, ← List.cons_append, List.foldl_append, hfirst, ← List.cons_append,
      ← List.cons_append, List.foldl_append, hsecond, ih]
    simp

/-- The literal and the quote that ends it. -/
theorem Literal.scan_quoted {cs s : List Char} (h : Literal cs s) :
    (cs ++ ['"']).foldl Scan.step ⟨frames, .text isName .empty .plain⟩ =
      Scan.endText frames isName ⟨s.reverse, none, true⟩ := by
  rw [List.foldl_append, Spelling.empty, h.scan, List.append_nil]
  rfl

theorem text?_ofList (s : List Char) : Spelling.text? ⟨s.reverse, none, true⟩ = some (String.ofList s) := by
  simp [Spelling.text?]

end Literals

section Values

variable {frames : List Frame} {cs : List Char} {d : Document}

/-- What may follow a value in a text: a separator or a blank. -/
def MayFollow (c : Char) : Prop := IsSeparator c ∨ isJsonBlank c = true

/-- A text that is read as this document, whatever of these follows and at the end of the text. -/
structure Parses (cs : List Char) (d : Document) : Prop where
  followed : ∀ {frames closable c}, Awaiting frames → MayFollow c →
    (cs ++ [c]).foldl Scan.step ⟨frames, .value closable⟩ = (Scan.deliver frames d).step c
  ends : ∀ {frames closable}, Awaiting frames →
    (cs.foldl Scan.step ⟨frames, .value closable⟩).atEnd = (Scan.deliver frames d).atEnd

/-- A whole text. -/
theorem Parses.scanDocument (h : Parses cs d) : scanDocument cs = (d, true) := by
  have hends : (cs.foldl Scan.step .start).atEnd = (Scan.deliver [] d).atEnd := h.ends trivial
  rw [AlertRelay.scanDocument, Scan.result, hends]
  rfl

theorem Parses.reads (h : Parses cs d) : Reads cs d := fun _ _ _ hframes hc => h.followed hframes (.inl hc)

theorem Closes.parses (h : Closes cs d) : Parses cs d where
  followed {frames closable c} hframes _ := by
    rw [List.foldl_append, h frames closable hframes]
    rfl
  ends {frames closable} hframes := by rw [h frames closable hframes]

theorem step_follow {n : Numeral} {p : NumberPhase} (hp : p.complete = true) {c : Char} (hc : MayFollow c) :
    p.step n c = .stop := by
  rcases hc with hc | hc
  · exact step_separator hp hc
  · simp only [isJsonBlank, Bool.or_eq_true, decide_eq_true_eq] at hc
    rcases hc with ((rfl | rfl) | rfl) | rfl <;> cases p <;> first | rfl | cases hp

/-- The exponent of a number, however it is written. -/
theorem ExponentText.scan {t : NumberText} (h : ExponentText cs t.exponent) (ht : t.WellFormed) {p : NumberPhase}
    (hp : p = .zero ∨ p = .whole ∨ p = .fraction) (frames : List Frame) (whole fraction : List Nat) :
    ∃ p', NumberPhase.complete p' = true ∧
      cs.foldl Scan.step ⟨frames, .number p ⟨t.negative, whole, fraction, none⟩⟩ =
        ⟨frames, .number p' ⟨t.negative, whole, fraction,
          t.exponent.map fun e => (e.1, (e.2.map digitOf).reverse)⟩⟩ := by
  have hmark : ∀ {mark}, isExponentMark mark = true →
      Scan.step ⟨frames, .number p ⟨t.negative, whole, fraction, none⟩⟩ mark =
        ⟨frames, .number .mark ⟨t.negative, whole, fraction, some (false, [])⟩⟩ := by
    intro mark hmark
    simp only [isExponentMark, Bool.or_eq_true, decide_eq_true_eq] at hmark
    rcases hmark with rfl | rfl <;> rcases hp with rfl | rfl | rfl <;> rfl
  -- the digits after the mark and the sign
  have hdigits : ∀ {below ds q}, t.exponent = some (below, ds) → q = .mark ∨ q = .sign →
      ds.foldl Scan.step ⟨frames, .number q ⟨t.negative, whole, fraction, some (below, [])⟩⟩ =
        ⟨frames, .number .exponent ⟨t.negative, whole, fraction, some (below, (ds.map digitOf).reverse)⟩⟩ := by
    intro below ds q he hq
    obtain ⟨hne, hall⟩ := ht.exponent below ds he
    obtain ⟨c, cs, rfl⟩ := List.exists_cons_of_ne_nil hne
    have hfirst : NumberPhase.step ⟨t.negative, whole, fraction, some (below, [])⟩ c q =
        .more .exponent ⟨t.negative, whole, fraction, some (below, [digitOf c])⟩ := by
      rcases hq with rfl | rfl <;> exact if_pos (hall c List.mem_cons_self)
    rw [List.foldl_cons, number_more hfirst, foldl_digits step_exponent fun x hx => hall x (List.mem_cons_of_mem _ hx),
      foldl_pushExponent_chars]
    simp
  generalize he : t.exponent = e at h hdigits
  cases h with
  | absent =>
    refine ⟨p, ?_, rfl⟩
    rcases hp with rfl | rfl | rfl <;> rfl
  | bare hm ds => exact ⟨.exponent, rfl, by rw [List.foldl_cons, hmark hm, hdigits rfl (.inl rfl)]; rfl⟩
  | plus hm ds =>
    refine ⟨.exponent, rfl, ?_⟩
    rw [List.foldl_cons, hmark hm, List.foldl_cons]
    exact hdigits rfl (.inr rfl)
  | minus hm ds =>
    refine ⟨.exponent, rfl, ?_⟩
    rw [List.foldl_cons, hmark hm, List.foldl_cons]
    exact hdigits rfl (.inr rfl)

theorem NumberText.WellFormed.parses {t : NumberText} (ht : t.WellFormed) (he : ExponentText cs t.exponent) :
    Parses ((if t.negative then ['-'] else []) ++ t.whole ++
      (if t.fraction.isEmpty then [] else '.' :: t.fraction) ++ cs) (.number t.numeral) := by
  let whole := (t.whole.map digitOf).reverse
  let fraction := (t.fraction.map digitOf).reverse
  let n : Numeral := ⟨t.negative, whole, fraction, t.exponent.map fun e => (e.1, (e.2.map digitOf).reverse)⟩
  have hn : n.finish = t.numeral := by
    simp [n, Numeral.finish, NumberText.numeral, whole, fraction, Function.comp_def]
  have hscan : ∀ frames closable, ∃ p, NumberPhase.complete p = true ∧
      ((if t.negative then ['-'] else []) ++ t.whole ++ (if t.fraction.isEmpty then [] else '.' :: t.fraction) ++
        cs).foldl Scan.step ⟨frames, .value closable⟩ = ⟨frames, .number p n⟩ := by
    intro frames closable
    obtain ⟨p₁, hp₁, hwhole⟩ := ht.scan_whole frames closable
    obtain ⟨p₂, hp₂, hfraction⟩ := ht.scan_fraction frames hp₁ whole
    obtain ⟨p, hp, hexponent⟩ := he.scan ht hp₂ frames whole fraction
    exact ⟨p, hp, by rw [List.foldl_append, List.foldl_append, hwhole, hfraction, hexponent]⟩
  constructor
  · intro frames closable c hframes hc
    obtain ⟨p, hp, hs⟩ := hscan frames closable
    have hstop : Scan.step ⟨frames, .number p n⟩ c = (Scan.deliver frames (.number n.finish)).follow c := by
      simp only [Scan.step, step_follow hp hc]
    rw [List.foldl_append, hs, List.foldl_cons, List.foldl_nil, hstop, hn, follow_deliver hframes]
  · intro frames closable hframes
    obtain ⟨p, hp, hs⟩ := hscan frames closable
    rw [hs, ← hn]
    cases frames with
    | nil => simp [Scan.atEnd, hp, Scan.deliver]
    | cons f rest =>
      cases f with
      | array items => simp [Scan.atEnd, hp, Scan.deliver]
      | object members name =>
        cases name with
        | none => exact hframes.elim
        | some name => simp [Scan.atEnd, hp, Scan.deliver]

theorem Literal.closes {s : List Char} (h : Literal cs s) :
    Closes ('"' :: (cs ++ ['"'])) (.text (some (String.ofList s))) := by
  intro frames closable _
  have hquote : Scan.step ⟨frames, .value closable⟩ '"' = ⟨frames, .text false .empty .plain⟩ := rfl
  rw [List.foldl_cons, hquote, h.scan_quoted]
  exact congrArg (fun t => Scan.deliver frames (.text t)) (text?_ofList s)

end Values

section Blanks

variable {frames : List Frame} {bs : List Char}

theorem foldl_blanks {s : Scan} (hb : Blank bs) (hs : ∀ c, isJsonBlank c = true → s.step c = s) :
    bs.foldl Scan.step s = s := by
  induction bs with
  | nil => rfl
  | cons c bs ih =>
    rw [List.foldl_cons, hs c (hb c List.mem_cons_self)]
    exact ih fun x hx => hb x (List.mem_cons_of_mem _ hx)

theorem step_value_blank (closable : Bool) (c : Char) (hc : isJsonBlank c = true) :
    Scan.step ⟨frames, .value closable⟩ c = ⟨frames, .value closable⟩ := if_pos hc

theorem step_name_blank (closable : Bool) (c : Char) (hc : isJsonBlank c = true) :
    Scan.step ⟨frames, .name closable⟩ c = ⟨frames, .name closable⟩ := if_pos hc

theorem step_colon_blank (c : Char) (hc : isJsonBlank c = true) :
    Scan.step ⟨frames, .colon⟩ c = ⟨frames, .colon⟩ := if_pos hc

theorem step_deliver_blank (h : Awaiting frames) (d : Document) (c : Char) (hc : isJsonBlank c = true) :
    (Scan.deliver frames d).step c = Scan.deliver frames d := by
  cases frames with
  | nil => exact if_pos hc
  | cons f rest =>
    cases f with
    | array items => exact if_pos hc
    | object members name =>
      cases name with
      | none => exact h.elim
      | some name => exact if_pos hc

theorem Parses.element {cs as : List Char} {d : Document} (h : Parses cs d) (hb : Blank bs) (ha : Blank as) :
    Parses (bs ++ (cs ++ as)) d := by
  have hbefore : ∀ frames closable, bs.foldl Scan.step ⟨frames, .value closable⟩ = ⟨frames, .value closable⟩ :=
    fun _ closable => foldl_blanks hb (step_value_blank closable)
  cases as with
  | nil =>
    rw [List.append_nil]
    constructor
    · intro frames closable c hframes hc
      rw [List.append_assoc, List.foldl_append, hbefore]
      exact h.followed hframes hc
    · intro frames closable hframes
      rw [List.foldl_append, hbefore]
      exact h.ends hframes
  | cons x as =>
    -- the first blank ends the value, and the others change nothing
    have hx : MayFollow x := .inr (ha x List.mem_cons_self)
    have hvalue : ∀ {frames closable}, Awaiting frames →
        (bs ++ (cs ++ x :: as)).foldl Scan.step ⟨frames, .value closable⟩ = Scan.deliver frames d := by
      intro frames closable hframes
      have hrest : Blank as := fun y hy => ha y (List.mem_cons_of_mem _ hy)
      rw [List.foldl_append, hbefore, List.append_cons, List.foldl_append, h.followed hframes hx,
        step_deliver_blank hframes d x (ha x List.mem_cons_self)]
      exact foldl_blanks hrest (step_deliver_blank hframes d)
    constructor
    · intro frames closable c hframes _
      rw [List.foldl_append, hvalue hframes]
      rfl
    · intro frames closable hframes
      rw [hvalue hframes]

end Blanks

/-- What the scanner makes of a part of a text where it may stand: of elements and members
with the bracket or brace that ends them. -/
def Phrase.Scanned (cs : List Char) : Phrase → Prop
  | value d | element d => Parses cs d
  | elements ds => ∀ frames closable items,
      (cs ++ [']']).foldl Scan.step ⟨.array items :: frames, .value closable⟩ =
        Scan.deliver frames (.array (items.reverse ++ ds) true)
  | member name d => ∀ frames closable members c, IsSeparator c →
      (cs ++ [c]).foldl Scan.step ⟨.object members none :: frames, .name closable⟩ =
        Scan.step ⟨.object ((some name, d) :: members) none :: frames, .after⟩ c
  | members ms => ∀ frames closable members,
      (cs ++ ['\x7d']).foldl Scan.step ⟨.object members none :: frames, .name closable⟩ =
        Scan.deliver frames (.object (members.reverse ++ ms.map fun m => (some m.1, m.2)) true)

section Containers

variable {cs rest : List Char} {d : Document} {ds : List Document} {name : String} {ms : List (String × Document)}

theorem Reads.lastElement (h : Reads cs d) : (Phrase.elements [d]).Scanned cs := by
  intro frames closable items
  have hframes : Awaiting (.array items :: frames) := trivial
  rw [h _ _ _ hframes (.inr (.inl rfl))]
  simp [Scan.deliver, Scan.step, Scan.afterValue, Scan.close, isJsonBlank]

theorem Reads.elements (h : Reads cs d) (hrest : (Phrase.elements ds).Scanned rest) :
    (Phrase.elements (d :: ds)).Scanned (cs ++ ',' :: rest) := by
  intro frames closable items
  have hframes : Awaiting (.array items :: frames) := trivial
  have hcomma : (Scan.deliver (.array items :: frames) d).step ',' =
      ⟨.array (d :: items) :: frames, .value false⟩ := rfl
  rw [List.append_assoc, List.cons_append, List.append_cons, List.foldl_append,
    h _ _ _ hframes (.inl rfl), hcomma, hrest]
  simp

theorem array_closes (h : (Phrase.elements ds).Scanned cs) : Closes ('[' :: (cs ++ [']'])) (.array ds true) := by
  intro frames closable _
  have hopen : Scan.step ⟨frames, .value closable⟩ '[' = ⟨.array [] :: frames, .value true⟩ := rfl
  rw [List.foldl_cons, hopen, h]
  rfl

theorem emptyArray_closes (h : Blank cs) : Closes ('[' :: (cs ++ [']'])) (.array [] true) := by
  intro frames closable _
  have hopen : Scan.step ⟨frames, .value closable⟩ '[' = ⟨.array [] :: frames, .value true⟩ := rfl
  rw [List.foldl_cons, hopen, List.foldl_append, foldl_blanks h (step_value_blank true)]
  rfl

theorem Reads.member {bs literal as s : List Char} (hb : Blank bs) (hname : Literal literal s) (ha : Blank as)
    (h : Reads cs d) :
    (Phrase.member (String.ofList s) d).Scanned (bs ++ '"' :: (literal ++ '"' :: (as ++ ':' :: cs))) := by
  intro frames closable members c hc
  have hquote : Scan.step ⟨.object members none :: frames, .name closable⟩ '"' =
      ⟨.object members none :: frames, .text true .empty .plain⟩ := rfl
  have hliteral : (literal ++ ['"']).foldl Scan.step ⟨.object members none :: frames, .text true .empty .plain⟩ =
      ⟨.object members (some (some (String.ofList s))) :: frames, .colon⟩ := by
    rw [hname.scan_quoted]
    exact congrArg (fun t => (⟨.object members (some t) :: frames, .colon⟩ : Scan)) (text?_ofList s)
  have hcolon : Scan.step ⟨.object members (some (some (String.ofList s))) :: frames, .colon⟩ ':' =
      ⟨.object members (some (some (String.ofList s))) :: frames, .value false⟩ := rfl
  have hsplit : bs ++ '"' :: (literal ++ '"' :: (as ++ ':' :: cs)) ++ [c] =
      bs ++ '"' :: ((literal ++ ['"']) ++ (as ++ ':' :: (cs ++ [c]))) := by simp
  rw [hsplit, List.foldl_append, foldl_blanks hb (step_name_blank closable), List.foldl_cons, hquote,
    List.foldl_append, hliteral, List.foldl_append, foldl_blanks ha step_colon_blank, List.foldl_cons, hcolon]
  exact h _ _ _ trivial hc

theorem lastMember_scanned (h : (Phrase.member name d).Scanned cs) : (Phrase.members [(name, d)]).Scanned cs := by
  intro frames closable members
  rw [h frames closable members _ (.inr (.inr rfl))]
  simp [Scan.step, Scan.afterValue, Scan.close, isJsonBlank]

theorem members_scanned (h : (Phrase.member name d).Scanned cs) (hrest : (Phrase.members ms).Scanned rest) :
    (Phrase.members ((name, d) :: ms)).Scanned (cs ++ ',' :: rest) := by
  intro frames closable members
  have hcomma : Scan.step ⟨.object ((some name, d) :: members) none :: frames, .after⟩ ',' =
      ⟨.object ((some name, d) :: members) none :: frames, .name false⟩ := rfl
  rw [List.append_assoc, List.cons_append, List.append_cons, List.foldl_append,
    h frames closable members _ (.inl rfl), hcomma, hrest]
  simp

theorem members_close (h : (Phrase.members ms).Scanned cs) :
    Closes ('\x7b' :: (cs ++ ['\x7d'])) (.object (ms.map fun m => (some m.1, m.2)) true) := by
  intro frames closable _
  have hopen : Scan.step ⟨frames, .value closable⟩ '\x7b' = ⟨.object [] none :: frames, .name true⟩ := rfl
  rw [List.foldl_cons, hopen, h]
  rfl

theorem emptyObject_closes (h : Blank cs) : Closes ('\x7b' :: (cs ++ ['\x7d'])) (.object [] true) := by
  intro frames closable _
  have hopen : Scan.step ⟨frames, .value closable⟩ '\x7b' = ⟨.object [] none :: frames, .name true⟩ := rfl
  rw [List.foldl_cons, hopen, List.foldl_append, foldl_blanks h (step_name_blank true)]
  rfl

end Containers

namespace Denotes

/-- The scanner reads what the grammar derives. -/
theorem scanned {cs : List Char} {p : Phrase} (h : Denotes cs p) : p.Scanned cs := by
  induction h with
  | nullWord => exact Closes.parses fun _ _ _ => rfl
  | trueWord => exact Closes.parses fun _ _ _ => rfl
  | falseWord => exact Closes.parses fun _ _ _ => rfl
  | number ht he => exact ht.parses he
  | text h => exact h.closes.parses
  | emptyArray hb => exact (emptyArray_closes hb).parses
  | array _ ih => exact (array_closes ih).parses
  | emptyObject hb => exact (emptyObject_closes hb).parses
  | object _ ih => exact (members_close ih).parses
  | element hb _ ha ih => exact ih.element hb ha
  | lastElement _ ih => exact ih.reads.lastElement
  | elements _ _ ih ihrest => exact ih.reads.elements ihrest
  | member hb hname ha _ ih => exact ih.reads.member hb hname ha
  | lastMember _ ih => exact lastMember_scanned ih
  | members _ _ ih ihrest => exact members_scanned ih ihrest

theorem scanDocument {cs : List Char} {d : Document} (h : Denotes cs (.element d)) :
    scanDocument cs = (d, true) := Parses.scanDocument h.scanned

end Denotes

end AlertRelay
