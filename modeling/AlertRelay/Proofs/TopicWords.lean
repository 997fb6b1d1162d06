import AlertRelay.Proofs.Matching
import AlertRelay.Topic.Pattern

/-! A binding key accepts a routing key if and only if its words accept the words of
the routing key, wherever the expression of the binding key puts the dots. -/

namespace AlertRelay

open Regex

/-- `*` takes one word, `#` takes any number, and all other words take themselves. -/
def wordsAccept : List (List Char) → List (List Char) → Bool
  | [], key => key.isEmpty
  | p :: pattern, [] => p = ['#'] && wordsAccept pattern []
  | p :: pattern, w :: key =>
    if p = ['#'] then wordsAccept pattern (w :: key) || wordsAccept (p :: pattern) key
    else (p = ['*'] || p = w) && wordsAccept pattern key

/-- Neither empty nor with a dot in it. -/
def Plain (w : List Char) : Prop := w ≠ [] ∧ '.' ∉ w

/-- Words with a dot before each. -/
def dotted (ws : List (List Char)) : List Char := ws.flatMap ('.' :: ·)

/-- The text is made of the words, with dots between them. -/
structure Spells (t : List Char) (ws : List (List Char)) : Prop where
  some : ws ≠ []
  plain : ∀ w ∈ ws, Plain w
  text : t = ['.'].intercalate ws

section Spelling

variable {t : List Char} {ws : List (List Char)}

theorem words_eq_splitOn (t : List Char) : words t = t.splitOn '.' := by
  induction t with
  | nil => rfl
  | cons c t ih =>
    rw [words, ih, List.splitOn_cons_eq_if_modifyHead]
    by_cases hc : c = '.'
    · simp [hc]
    · rw [if_neg hc, if_neg (by simpa using hc)]
      cases hs : t.splitOn '.' with
      | nil => exact absurd hs (List.splitOn_ne_nil _ _)
      | cons w ws => rfl

theorem words_dotless (t : List Char) : ∀ w ∈ words t, '.' ∉ w := by
  induction t with
  | nil => simp [words]
  | cons c t ih =>
    rw [words]
    by_cases hc : c = '.'
    · simpa [hc] using ih
    · rw [if_neg hc]
      cases hw : words t with
      | nil => simp [Ne.symm hc]
      | cons w ws =>
        rw [hw] at ih
        intro v hv
        rcases List.mem_cons.mp hv with rfl | hv
        · simp [Ne.symm hc, ih w List.mem_cons_self]
        · exact ih v (List.mem_cons_of_mem w hv)

theorem Spells.words (h : Spells t ws) : words t = ws := by
  rw [words_eq_splitOn, h.text]
  exact List.splitOn_intercalate '.' (fun w hw => (h.plain w hw).2) h.some

theorem spells_words (h : ∀ w ∈ words t, w ≠ []) : Spells t (words t) where
  some := by
    rw [words_eq_splitOn]
    exact List.splitOn_ne_nil _ _
  plain w hw := ⟨h w hw, words_dotless t w hw⟩
  text := by rw [words_eq_splitOn, List.intercalate_splitOn]

theorem intercalate_cons (w : List Char) (ws : List (List Char)) :
    ['.'].intercalate (w :: ws) = w ++ dotted ws := by
  induction ws generalizing w with
  | nil => simp [dotted]
  | cons w' ws ih =>
    rw [List.intercalate_cons_cons, ih]
    simp [dotted]

theorem intercalate_append (front : List (List Char)) {back : List (List Char)} (h : back ≠ []) :
    ['.'].intercalate (front ++ back) = front.flatMap (· ++ ['.']) ++ ['.'].intercalate back := by
  induction front with
  | nil => rfl
  | cons w front ih =>
    rw [List.cons_append, List.intercalate_cons_of_ne_nil (by simp [h]), ih]
    simp

end Spelling

section Wildcards

variable {p k : List Char} {ps ks : List (List Char)}

theorem wordsAccept_cons (hp : p ≠ ['#']) :
    wordsAccept (p :: ps) (k :: ks) = true ↔ (p = ['*'] ∨ p = k) ∧ wordsAccept ps ks = true := by
  simp [wordsAccept, hp]

/-- A word that is no `#` takes the first word. -/
theorem wordsAccept_cons_iff (hp : p ≠ ['#']) : wordsAccept (p :: ps) ks = true ↔
    ∃ k rest, ks = k :: rest ∧ (p = ['*'] ∨ p = k) ∧ wordsAccept ps rest = true := by
  cases ks with
  | nil => simp [wordsAccept, hp]
  | cons k rest =>
    rw [wordsAccept_cons hp]
    constructor
    · intro h
      exact ⟨k, rest, rfl, h⟩
    · rintro ⟨k', rest', he, h⟩
      obtain ⟨rfl, rfl⟩ := List.cons.inj he
      exact h

/-- `#` takes some words from the front. -/
theorem wordsAccept_hash_iff : wordsAccept (['#'] :: ps) ks = true ↔
    ∃ front back, ks = front ++ back ∧ wordsAccept ps back = true := by
  induction ks with
  | nil =>
    have hnil : wordsAccept (['#'] :: ps) [] = wordsAccept ps [] := by simp [wordsAccept]
    rw [hnil]
    constructor
    · intro h
      exact ⟨[], [], rfl, h⟩
    · rintro ⟨front, back, he, h⟩
      rwa [← (List.append_eq_nil_iff.mp he.symm).2]
  | cons k ks ih =>
    rw [wordsAccept, if_pos rfl, Bool.or_eq_true, ih]
    constructor
    · rintro (h | ⟨front, back, rfl, h⟩)
      · exact ⟨[], k :: ks, rfl, h⟩
      · exact ⟨k :: front, back, rfl, h⟩
    · rintro ⟨front, back, he, h⟩
      cases front with
      | nil => exact .inl (by rwa [he])
      | cons k' front =>
        obtain ⟨rfl, rfl⟩ := List.cons.inj he
        exact .inr ⟨front, back, rfl, h⟩

end Wildcards

section Languages

variable {p t : List Char} {ps : List (List Char)}

theorem matches_star_one_iff {set : CharClass} : (star (one set)).Matches t ↔ ∀ c ∈ t, set.has c = true := by
  rw [matches_star_iff fun s => matches_one_iff]
  constructor
  · rintro ⟨cs, hcs, rfl⟩
    simpa using hcs
  · intro h
    exact ⟨t, h, by simp⟩

theorem has_allBut_iff {x c : Char} : (CharClass.allBut x).has c = true ↔ c ≠ x := decide_eq_true_iff

theorem matches_anyWord_iff : anyWord.Matches t ↔ Plain t := by
  rw [anyWord, notDot, matches_cat_iff]
  constructor
  · rintro ⟨u, v, rfl, hu, hv⟩
    obtain ⟨c, hc, rfl⟩ := matches_one_iff.mp hu
    refine ⟨List.cons_ne_nil c v, fun hmem => ?_⟩
    rcases List.mem_cons.mp hmem with hdot | hdot
    · exact has_allBut_iff.mp hc hdot.symm
    · exact has_allBut_iff.mp (matches_star_one_iff.mp hv '.' hdot) rfl
  · rintro ⟨hne, hdot⟩
    obtain ⟨c, v, rfl⟩ := List.exists_cons_of_ne_nil hne
    have hall : ∀ c' ∈ c :: v, (CharClass.allBut '.').has c' = true := by
      intro c' hc'
      exact has_allBut_iff.mpr fun he => hdot (he ▸ hc')
    obtain ⟨hc, hv⟩ := List.forall_mem_cons.mp hall
    exact ⟨[c], v, rfl, .one hc, matches_star_one_iff.mpr hv⟩

theorem matches_exactly_iff {c : Char} : (one (.exactly c)).Matches t ↔ t = [c] := by
  rw [matches_one_iff]
  constructor
  · rintro ⟨c', hc, rfl⟩
    rw [of_decide_eq_true hc]
  · rintro rfl
    exact ⟨c, decide_eq_true rfl, rfl⟩

theorem matches_exactly_cat_iff {c : Char} {a : Regex} :
    (cat (one (.exactly c)) a).Matches t ↔ ∃ w, a.Matches w ∧ t = c :: w := by
  rw [matches_cat_iff]
  constructor
  · rintro ⟨u, w, rfl, hu, hw⟩
    rw [matches_exactly_iff.mp hu]
    exact ⟨w, hw, rfl⟩
  · rintro ⟨w, hw, rfl⟩
    exact ⟨[c], w, rfl, matches_exactly_iff.mpr rfl, hw⟩

theorem matches_literal_iff {w : List Char} : (literal w).Matches t ↔ t = w := by
  induction w generalizing t with
  | nil => exact matches_empty_iff
  | cons c w ih =>
    have hcons : literal (c :: w) = .cat (.one (.exactly c)) (literal w) := rfl
    rw [hcons, matches_exactly_cat_iff]
    constructor
    · rintro ⟨v, hv, rfl⟩
      rw [ih.mp hv]
    · rintro rfl
      exact ⟨w, ih.mpr rfl, rfl⟩

/-- The expression of a word that is no `#` takes one word. -/
theorem matches_wordRegex_iff (hp : Plain p) :
    (wordRegex p).Matches t ↔ Plain t ∧ (p = ['*'] ∨ p = t) := by
  unfold wordRegex
  split
  · rename_i hstar
    simp [matches_anyWord_iff, hstar]
  · rename_i hstar
    rw [matches_literal_iff]
    constructor
    · rintro rfl
      exact ⟨hp, .inr rfl⟩
    · rintro ⟨_, hs | rfl⟩
      · exact absurd hs hstar
      · rfl

/-- A `#` that takes the dots before its words. -/
theorem matches_laterHash_iff :
    (star (cat dot anyWord)).Matches t ↔ ∃ ks, (∀ k ∈ ks, Plain k) ∧ t = dotted ks :=
  matches_star_iff fun s => by simp only [dot, matches_exactly_cat_iff, matches_anyWord_iff]

/-- A `#` that takes the dots after its words. -/
theorem matches_leadingHash_iff : (star (cat anyWord dot)).Matches t ↔
    ∃ ks : List (List Char), (∀ k ∈ ks, Plain k) ∧ t = ks.flatMap (· ++ ['.']) := by
  refine matches_star_iff fun s => ?_
  rw [matches_cat_iff]
  constructor
  · rintro ⟨w, v, rfl, hw, hv⟩
    exact ⟨w, matches_anyWord_iff.mp hw, by rw [matches_exactly_iff.mp hv]⟩
  · rintro ⟨w, hw, rfl⟩
    exact ⟨w, ['.'], rfl, matches_anyWord_iff.mpr hw, matches_exactly_iff.mpr rfl⟩

/-- The words after the first take words with dots before them. -/
theorem matches_later_iff (hps : ∀ p ∈ ps, Plain p) : (sequence (ps.map laterWord)).Matches t ↔
    ∃ ks, (∀ k ∈ ks, Plain k) ∧ t = dotted ks ∧ wordsAccept ps ks = true := by
  induction ps generalizing t with
  | nil =>
    rw [List.map_nil]
    constructor
    · intro h
      exact ⟨[], by simp, matches_empty_iff.mp h, by simp [wordsAccept]⟩
    · rintro ⟨ks, _, rfl, hks⟩
      have hnone : ks = [] := by simpa [wordsAccept] using hks
      rw [hnone]
      exact .empty
  | cons p ps ih =>
    obtain ⟨hp, hlater⟩ := List.forall_mem_cons.mp hps
    -- what `p` takes ends before a dot or at the end, so the rest is again words with dots before them
    have hcons : sequence ((p :: ps).map laterWord) = .cat (laterWord p) (sequence (ps.map laterWord)) := rfl
    rw [hcons, matches_cat_iff]
    by_cases hhash : p = ['#']
    · rw [hhash, laterWord, if_pos rfl]
      constructor
      · rintro ⟨u, v, rfl, hu, hv⟩
        obtain ⟨front, hfront, rfl⟩ := matches_laterHash_iff.mp hu
        obtain ⟨back, hback, rfl, haccept⟩ := (ih hlater).mp hv
        exact ⟨front ++ back, List.forall_mem_append.mpr ⟨hfront, hback⟩, List.flatMap_append.symm,
          wordsAccept_hash_iff.mpr ⟨front, back, rfl, haccept⟩⟩
      · rintro ⟨ks, hks, rfl, h⟩
        obtain ⟨front, back, rfl, haccept⟩ := wordsAccept_hash_iff.mp h
        obtain ⟨hfront, hback⟩ := List.forall_mem_append.mp hks
        exact ⟨dotted front, dotted back, List.flatMap_append, matches_laterHash_iff.mpr ⟨front, hfront, rfl⟩,
          (ih hlater).mpr ⟨back, hback, rfl, haccept⟩⟩
    · rw [laterWord, if_neg hhash]
      constructor
      · rintro ⟨u, v, rfl, hu, hv⟩
        obtain ⟨k, hk, rfl⟩ := matches_exactly_cat_iff.mp hu
        obtain ⟨hplain, hpk⟩ := (matches_wordRegex_iff hp).mp hk
        obtain ⟨ks, hks, rfl, haccept⟩ := (ih hlater).mp hv
        exact ⟨k :: ks, List.forall_mem_cons.mpr ⟨hplain, hks⟩, rfl,
          (wordsAccept_cons hhash).mpr ⟨hpk, haccept⟩⟩
      · rintro ⟨ks, hks, rfl, h⟩
        obtain ⟨k, rest, rfl, hpk, haccept⟩ := (wordsAccept_cons_iff hhash).mp h
        obtain ⟨hplain, hrest⟩ := List.forall_mem_cons.mp hks
        have hk : (cat dot (wordRegex p)).Matches ('.' :: k) :=
          matches_exactly_cat_iff.mpr ⟨k, (matches_wordRegex_iff hp).mpr ⟨hplain, hpk⟩, rfl⟩
        exact ⟨'.' :: k, dotted rest, rfl, hk, (ih hlater).mpr ⟨rest, hrest, rfl, haccept⟩⟩

/-- A first word that is no `#`, and the words after it. -/
theorem matches_words_iff (hp : Plain p) (hhash : p ≠ ['#']) (hps : ∀ p ∈ ps, Plain p) :
    (cat (wordRegex p) (sequence (ps.map laterWord))).Matches t ↔
      ∃ ws, Spells t ws ∧ wordsAccept (p :: ps) ws = true := by
  rw [matches_cat_iff]
  constructor
  · rintro ⟨k, v, rfl, hk, hv⟩
    obtain ⟨hplain, hpk⟩ := (matches_wordRegex_iff hp).mp hk
    obtain ⟨ks, hks, rfl, haccept⟩ := (matches_later_iff hps).mp hv
    exact ⟨k :: ks, ⟨List.cons_ne_nil k ks, List.forall_mem_cons.mpr ⟨hplain, hks⟩, (intercalate_cons k ks).symm⟩,
      (wordsAccept_cons hhash).mpr ⟨hpk, haccept⟩⟩
  · rintro ⟨ws, hws, h⟩
    obtain ⟨k, ks, rfl, hpk, haccept⟩ := (wordsAccept_cons_iff hhash).mp h
    obtain ⟨hplain, hks⟩ := List.forall_mem_cons.mp hws.plain
    exact ⟨k, dotted ks, by rw [hws.text, intercalate_cons], (matches_wordRegex_iff hp).mpr ⟨hplain, hpk⟩,
      (matches_later_iff hps).mpr ⟨ks, hks, rfl, haccept⟩⟩

/-- A `#` at the beginning, and a word after it that is none. -/
theorem matches_hashWords_iff (hp : Plain p) (hhash : p ≠ ['#']) (hps : ∀ p ∈ ps, Plain p) :
    (cat (star (cat anyWord dot)) (cat (wordRegex p) (sequence (ps.map laterWord)))).Matches t ↔
      ∃ ws, Spells t ws ∧ wordsAccept (['#'] :: p :: ps) ws = true := by
  rw [matches_cat_iff]
  constructor
  · rintro ⟨u, v, rfl, hu, hv⟩
    obtain ⟨front, hfront, rfl⟩ := matches_leadingHash_iff.mp hu
    obtain ⟨back, hback, haccept⟩ := (matches_words_iff hp hhash hps).mp hv
    refine ⟨front ++ back, ⟨?_, List.forall_mem_append.mpr ⟨hfront, hback.plain⟩, ?_⟩,
      wordsAccept_hash_iff.mpr ⟨front, back, rfl, haccept⟩⟩
    · exact List.append_ne_nil_of_right_ne_nil front hback.some
    · rw [intercalate_append front hback.some, ← hback.text]
  · rintro ⟨ws, hws, h⟩
    obtain ⟨front, back, rfl, haccept⟩ := wordsAccept_hash_iff.mp h
    obtain ⟨hfront, hback⟩ := List.forall_mem_append.mp hws.plain
    have hsome : back ≠ [] := by
      obtain ⟨k, rest, rfl, _⟩ := (wordsAccept_cons_iff hhash).mp haccept
      exact List.cons_ne_nil k rest
    exact ⟨front.flatMap (· ++ ['.']), ['.'].intercalate back, by rw [hws.text, intercalate_append front hsome],
      matches_leadingHash_iff.mpr ⟨front, hfront, rfl⟩,
      (matches_words_iff hp hhash hps).mpr ⟨back, ⟨hsome, hback, rfl⟩, haccept⟩⟩

/-- A lone `#` takes every text of one line. -/
theorem matches_loneHash_iff : (patternRegex [['#']]).Matches t ↔ '\n' ∉ t := by
  rw [patternRegex, if_pos rfl, matches_star_one_iff]
  constructor
  · intro h hline
    exact has_allBut_iff.mp (h '\n' hline) rfl
  · intro hline c hc
    exact has_allBut_iff.mpr fun he => hline (he ▸ hc)

theorem matches_pattern_iff (hsome : ps ≠ []) (hps : ∀ p ∈ ps, Plain p) (hlone : ps ≠ [['#']])
    (hstart : ¬ [['#'], ['#']] <+: ps) :
    (patternRegex ps).Matches t ↔ ∃ ws, Spells t ws ∧ wordsAccept ps ws = true := by
  match ps, hsome with
  | [p], _ =>
    have hp := hps p List.mem_cons_self
    have hhash : p ≠ ['#'] := fun he => hlone (by rw [he])
    rw [patternRegex, if_neg hhash, ← matches_cat_empty_iff]
    exact matches_words_iff hp hhash (List.forall_mem_nil _)
  | p :: q :: rest, _ =>
    obtain ⟨hp, hlater⟩ := List.forall_mem_cons.mp hps
    by_cases hhash : p = ['#']
    · subst hhash
      obtain ⟨hq, hrest⟩ := List.forall_mem_cons.mp hlater
      have hne : q ≠ ['#'] := fun he => hstart ⟨rest, by rw [he]; rfl⟩
      rw [patternRegex, if_pos rfl, wordAfterHash, if_neg hne]
      exact matches_hashWords_iff hq hne hrest
    · rw [patternRegex, if_neg hhash]
      exact matches_words_iff hp hhash hlater

end Languages

/-- For a binding key without empty words that does not begin with two `#`, and a
routing key without empty words, of one line if the binding key is a lone `#`: the
expression of the binding key matches the routing key if and only if the words accept
the words, and that is what the broker finds. -/
theorem topicAccepts_iff_wordsAccept (pattern key : String) (hpattern : ∀ w ∈ words pattern.toList, w ≠ [])
    (hstart : ¬ [['#'], ['#']] <+: words pattern.toList) (hkey : ∀ w ∈ words key.toList, w ≠ [])
    (hline : words pattern.toList = [['#']] → '\n' ∉ key.toList) :
    ((patternRegex (words pattern.toList)).Matches key.toList ↔
      wordsAccept (words pattern.toList) (words key.toList) = true) ∧
    topicAccepts pattern key = wordsAccept (words pattern.toList) (words key.toList) := by
  have hspells := spells_words hkey
  have hps := spells_words hpattern
  have hmatches : (patternRegex (words pattern.toList)).Matches key.toList ↔
      wordsAccept (words pattern.toList) (words key.toList) = true := by
    by_cases hlone : words pattern.toList = [['#']]
    · have haccepts : wordsAccept [['#']] (words key.toList) = true :=
        wordsAccept_hash_iff.mpr ⟨words key.toList, [], (List.append_nil _).symm, by simp [wordsAccept]⟩
      rw [hlone]
      exact iff_of_true (matches_loneHash_iff.mpr (hline hlone)) haccepts
    · rw [matches_pattern_iff hps.some hps.plain hlone hstart]
      constructor
      · rintro ⟨ws, hws, h⟩
        rwa [hws.words]
      · intro h
        exact ⟨words key.toList, hspells, h⟩
  refine ⟨hmatches, ?_⟩
  rw [Bool.eq_iff_iff, topicAccepts, accepts_iff]
  exact hmatches

/-- Three wildcards, and a word with a character that expressions use themselves. -/
theorem topicAccepts_iff_wordsAccept_wildcards :
    let pattern := "#.a+.*.#"
    (∀ w ∈ words pattern.toList, w ≠ []) ∧ ¬ [['#'], ['#']] <+: words pattern.toList ∧
      topicAccepts pattern "x.y.a+.z" = true ∧ topicAccepts pattern "aa.z" = false := by
  intro pattern
  have hwords : words pattern.toList = [['#'], ['a', '+'], ['*'], ['#']] := by decide
  have hpattern : ∀ w ∈ words pattern.toList, w ≠ [] := by decide
  have hstart : ¬ [['#'], ['#']] <+: words pattern.toList := by decide
  have hline : ∀ key : List Char, words pattern.toList = [['#']] → '\n' ∉ key := by
    intro key he
    rw [hwords] at he
    cases he
  have hyes := (topicAccepts_iff_wordsAccept pattern "x.y.a+.z" hpattern hstart (by decide) (hline _)).2
  have hno := (topicAccepts_iff_wordsAccept pattern "aa.z" hpattern hstart (by decide) (hline _)).2
  have hx : words "x.y.a+.z".toList = [['x'], ['y'], ['a', '+'], ['z']] := by decide
  have haa : words "aa.z".toList = [['a', 'a'], ['z']] := by decide
  rw [hyes, hno, hwords, hx, haa]
  rw [hwords] at hpattern hstart
  exact ⟨hpattern, hstart, by simp [wordsAccept], by simp [wordsAccept]⟩

end AlertRelay
