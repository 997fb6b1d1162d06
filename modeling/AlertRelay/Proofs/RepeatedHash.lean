import AlertRelay.Proofs.TopicWords

/-! Writing a `#` twice. Each of the two may take any number of words, so nothing
changes where they stand after another word. At the beginning of a binding key the
first takes the dots after its words and the second those before: a routing key
would need two dots in a row, or one at its end. -/

namespace AlertRelay

open Regex

section Expressions

variable {a b b' : Regex} {s t : List Char}

theorem Regex.Matches.star_append (hs : (star a).Matches s) (ht : (star a).Matches t) :
    (star a).Matches (s ++ t) := by
  generalize hr : star a = r at hs
  induction hs with
  | stop =>
    cases hr
    exact ht
  | again ha _ _ ih =>
    cases hr
    rw [List.append_assoc]
    exact .again ha (ih rfl)
  | _ => cases hr

theorem matches_cat_congr (h : ∀ v, b.Matches v ↔ b'.Matches v) : (cat a b).Matches t ↔ (cat a b').Matches t := by
  simp only [matches_cat_iff, h]

theorem matches_star_star_iff : (cat (star a) (cat (star a) b)).Matches t ↔ (cat (star a) b).Matches t := by
  constructor
  · intro h
    obtain ⟨u, v, rfl, hu, hv⟩ := matches_cat_iff.mp h
    obtain ⟨u', w, rfl, hu', hw⟩ := matches_cat_iff.mp hv
    rw [← List.append_assoc]
    exact .cat (hu.star_append hu') hw
  · intro h
    exact .cat (s := []) .stop h

end Expressions

section Repeating

variable {t : List Char}

theorem matches_later_repeated (front back : List (List Char)) :
    (sequence ((front ++ ['#'] :: ['#'] :: back).map laterWord)).Matches t ↔
      (sequence ((front ++ ['#'] :: back).map laterWord)).Matches t := by
  induction front generalizing t with
  | nil => exact matches_star_star_iff
  | cons p front ih => exact matches_cat_congr fun v => ih

theorem patternRegex_words {p : List Char} {rest : List (List Char)} (hp : p ≠ ['#']) (hrest : rest ≠ []) :
    patternRegex (p :: rest) = .cat (wordRegex p) (sequence (rest.map laterWord)) := by
  obtain ⟨q, rest, rfl⟩ := List.exists_cons_of_ne_nil hrest
  rw [patternRegex, if_neg hp]

/-- After a first word the expression goes on with words that have dots before them. -/
theorem matches_pattern_repeated {front : List (List Char)} (back : List (List Char)) (hfront : front ≠ []) :
    (patternRegex (front ++ ['#'] :: ['#'] :: back)).Matches t ↔
      (patternRegex (front ++ ['#'] :: back)).Matches t := by
  obtain ⟨p, front, rfl⟩ := List.exists_cons_of_ne_nil hfront
  by_cases hp : p = ['#']
  · subst hp
    cases front with
    | nil => exact matches_cat_congr fun v => matches_later_repeated [] back
    | cons q front => exact matches_cat_congr fun v => matches_cat_congr fun w => matches_later_repeated front back
  · rw [List.cons_append, List.cons_append, patternRegex_words hp (by simp), patternRegex_words hp (by simp)]
    exact matches_cat_congr fun v => matches_later_repeated front back

/-- Between what the two take there is an empty word. -/
theorem empty_mem_words {back : List (List Char)} (hback : ∀ p ∈ back, Plain p)
    (h : (patternRegex (['#'] :: ['#'] :: back)).Matches t) : [] ∈ words t := by
  obtain ⟨u, v, rfl, hu, hv⟩ := matches_cat_iff.mp h
  obtain ⟨v, w, rfl, hv, hw⟩ := matches_cat_iff.mp hv
  obtain ⟨ks, hks, rfl⟩ := matches_leadingHash_iff.mp hu
  obtain ⟨ms, hms, rfl⟩ := matches_laterHash_iff.mp hv
  obtain ⟨ns, hns, rfl, -⟩ := (matches_later_iff hback).mp hw
  have htext : ks.flatMap (· ++ ['.']) ++ (dotted ms ++ dotted ns) =
      ['.'].intercalate (ks ++ [] :: (ms ++ ns)) := by
    rw [intercalate_append ks (List.cons_ne_nil _ _), intercalate_cons, List.nil_append, dotted, dotted, dotted,
      List.flatMap_append]
  have hdotless : ∀ w ∈ ks ++ [] :: (ms ++ ns), '.' ∉ w := by
    intro w hw
    rcases List.mem_append.mp hw with hw | hw
    · exact (hks w hw).2
    · rcases List.mem_cons.mp hw with rfl | hw
      · exact List.not_mem_nil
      · exact (List.forall_mem_append.mpr ⟨hms, hns⟩ w hw).2
  rw [htext, words_eq_splitOn, List.splitOn_intercalate '.' hdotless (by simp)]
  exact List.mem_append_right ks List.mem_cons_self

end Repeating

theorem topicAccepts_iff_matches (pattern key : String) :
    topicAccepts pattern key = true ↔ (patternRegex (words pattern.toList)).Matches key.toList :=
  accepts_iff _ _

section Keys

variable {pattern doubled key : String} {front back : List (List Char)}

theorem accepts_repeated (hpattern : words pattern.toList = front ++ ['#'] :: back)
    (hdoubled : words doubled.toList = front ++ ['#'] :: ['#'] :: back) (h : front ≠ [] ∨ [['#']] <+: back)
    (key : String) : topicAccepts doubled key = topicAccepts pattern key := by
  rw [Bool.eq_iff_iff, topicAccepts_iff_matches, topicAccepts_iff_matches, hpattern, hdoubled]
  cases front with
  | nil =>
    -- the second `#` of the beginning is the one that is repeated
    obtain ⟨rest, rfl⟩ := h.resolve_left (fun hnil => hnil rfl)
    exact @matches_pattern_repeated key.toList [['#']] rest (List.cons_ne_nil _ _)
  | cons p front => exact matches_pattern_repeated back (List.cons_ne_nil p front)

theorem accepts_two_leading (hdoubled : words doubled.toList = ['#'] :: ['#'] :: back)
    (hback : ∀ p ∈ back, Plain p) (hkey : ∀ w ∈ words key.toList, w ≠ []) : topicAccepts doubled key = false := by
  rw [Bool.eq_false_iff]
  intro h
  rw [topicAccepts_iff_matches, hdoubled] at h
  exact hkey [] (empty_mem_words hback h) rfl

theorem accepts_one_leading (hpattern : words pattern.toList = ['#'] :: back) (hback : ∀ p ∈ back, Plain p)
    (hnext : ¬ [['#']] <+: back) (hkey : ∀ w ∈ words key.toList, w ≠ []) : topicAccepts pattern key = true ↔
      wordsAccept (words pattern.toList) (words key.toList) = true ∧ (back = [] → '\n' ∉ key.toList) := by
  rw [topicAccepts_iff_matches, hpattern]
  by_cases hlone : back = []
  · have haccept : wordsAccept [['#']] (words key.toList) = true :=
      wordsAccept_hash_iff.mpr ⟨words key.toList, [], (List.append_nil _).symm, by simp [wordsAccept]⟩
    rw [hlone, matches_loneHash_iff]
    simp [haccept]
  · have hplain : ∀ p ∈ ['#'] :: back, Plain p := List.forall_mem_cons.mpr ⟨⟨by decide, by decide⟩, hback⟩
    have hstart : ¬ [['#'], ['#']] <+: ['#'] :: back := by simpa [List.cons_prefix_cons] using hnext
    rw [matches_pattern_iff (List.cons_ne_nil _ _) hplain (by simpa using hlone) hstart]
    constructor
    · rintro ⟨ws, hws, h⟩
      exact ⟨by rwa [hws.words], fun he => absurd he hlone⟩
    · rintro ⟨h, -⟩
      exact ⟨_, spells_words hkey, h⟩

end Keys

/-- In a binding key without empty words a `#` may be written twice, unless it is the
first word and no other `#` follows. Repeated there it leaves a binding key that
accepts no routing key without empty words, whatever it accepted before. -/
theorem hash_repeats_unless_leading (pattern doubled key : String) {front back : List (List Char)}
    (hpattern : words pattern.toList = front ++ ['#'] :: back)
    (hdoubled : words doubled.toList = front ++ ['#'] :: ['#'] :: back)
    (hsome : ∀ w ∈ words pattern.toList, w ≠ []) (hkey : ∀ w ∈ words key.toList, w ≠ []) :
    (topicAccepts doubled key = topicAccepts pattern key ↔
      front ≠ [] ∨ [['#']] <+: back ∨ topicAccepts pattern key = false) ∧
    (front = [] → ¬ [['#']] <+: back → topicAccepts doubled key = false ∧
      (topicAccepts pattern key = true ↔
        wordsAccept (words pattern.toList) (words key.toList) = true ∧ (back = [] → '\n' ∉ key.toList))) := by
  have hplain : ∀ p ∈ back, Plain p := by
    intro p hp
    exact (spells_words hsome).plain p (hpattern ▸ List.mem_append_right front (List.mem_cons_of_mem _ hp))
  by_cases hinner : front ≠ [] ∨ [['#']] <+: back
  · have heq := accepts_repeated hpattern hdoubled hinner key
    refine ⟨iff_of_true heq (or_assoc.mp (.inl hinner)), fun hfront hback => ?_⟩
    exact absurd hinner (not_or.mpr ⟨fun hne => hne hfront, hback⟩)
  · obtain ⟨hfront, hback⟩ := not_or.mp hinner
    obtain rfl := Classical.not_not.mp hfront
    have hnone := accepts_two_leading hdoubled hplain hkey
    refine ⟨?_, fun _ _ => ⟨hnone, accepts_one_leading hpattern hplain hback hkey⟩⟩
    rw [hnone, ← or_assoc, or_iff_right hinner]
    exact eq_comm

/-- Repeating the `#` of `a.#.b` changes nothing, and repeating that of `#.a` does. -/
theorem hash_repeats_unless_leading_each :
    (∀ w ∈ words "a.#.b".toList, w ≠ []) ∧ (∀ w ∈ words "#.a".toList, w ≠ []) ∧
      words "a.#.#.b".toList = [['a']] ++ ['#'] :: ['#'] :: [['b']] ∧
      words "#.#.a".toList = [] ++ ['#'] :: ['#'] :: [['a']] ∧ ¬ [['#']] <+: [['a']] ∧
      (∀ w ∈ words "a.x.b".toList, w ≠ []) ∧ (∀ w ∈ words "x.a".toList, w ≠ []) ∧
      topicAccepts "a.#.#.b" "a.x.b" = topicAccepts "a.#.b" "a.x.b" ∧
      topicAccepts "#.a" "x.a" = true ∧ topicAccepts "#.#.a" "x.a" = false := by
  have hinner : words "a.#.#.b".toList = [['a']] ++ ['#'] :: ['#'] :: [['b']] := by decide
  have hleading : words "#.#.a".toList = [] ++ ['#'] :: ['#'] :: [['a']] := by decide
  have hab : ∀ w ∈ words "a.#.b".toList, w ≠ [] := by decide
  have ha : ∀ w ∈ words "#.a".toList, w ≠ [] := by decide
  have haxb : ∀ w ∈ words "a.x.b".toList, w ≠ [] := by decide
  have hxa : ∀ w ∈ words "x.a".toList, w ≠ [] := by decide
  have hnext : ¬ [['#']] <+: [['a']] := by decide
  have hsame := (hash_repeats_unless_leading "a.#.b" "a.#.#.b" "a.x.b" (by decide) hinner hab haxb).1.mpr
    (.inl (List.cons_ne_nil _ _))
  obtain ⟨hnone, haccepts⟩ :=
    (hash_repeats_unless_leading "#.a" "#.#.a" "x.a" (by decide) hleading ha hxa).2 rfl hnext
  have hpattern : words "#.a".toList = [['#'], ['a']] := by decide
  have hkey : words "x.a".toList = [['x'], ['a']] := by decide
  have hwords : wordsAccept (words "#.a".toList) (words "x.a".toList) = true := by
    rw [hpattern, hkey]
    simp [wordsAccept]
  have haccept := haccepts.mpr ⟨hwords, fun hnil => absurd hnil (List.cons_ne_nil _ _)⟩
  exact ⟨hab, ha, hinner, hleading, hnext, haxb, hxa, hsame, haccept, hnone⟩

/-- A lone `#` accepts every routing key of one line, and two of them do not. -/
theorem two_hashes_accept_less : (∀ w ∈ words "#".toList, w ≠ []) ∧ (∀ w ∈ words "a".toList, w ≠ []) ∧
    words "#".toList = [['#']] ∧ words "#.#".toList = [['#'], ['#']] ∧
    topicAccepts "#" "a" = true ∧ topicAccepts "#.#" "a" = false := by
  decide

end AlertRelay
