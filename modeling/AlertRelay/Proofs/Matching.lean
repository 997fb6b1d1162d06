import AlertRelay.Topic.Regex

/-! The matcher of regular expressions accepts the texts of an expression and no
others: what may be left after a character is what the rest of the text has to match. -/

namespace AlertRelay.Regex

variable {a b r : Regex} {c : Char} {t : List Char}

theorem matches_empty_iff : empty.Matches t ↔ t = [] := by
  constructor
  · intro h
    cases h
    rfl
  · rintro rfl
    exact .empty

theorem matches_one_iff {set : CharClass} : (one set).Matches t ↔ ∃ c, set.has c = true ∧ t = [c] := by
  constructor
  · intro h
    cases h with
    | one hc => exact ⟨_, hc, rfl⟩
  · rintro ⟨c, hc, rfl⟩
    exact .one hc

theorem matches_cat_iff : (cat a b).Matches t ↔ ∃ u v, t = u ++ v ∧ a.Matches u ∧ b.Matches v := by
  constructor
  · intro h
    cases h with
    | cat ha hb => exact ⟨_, _, rfl, ha, hb⟩
  · rintro ⟨u, v, rfl, ha, hb⟩
    exact .cat ha hb

theorem matches_cat_empty_iff : (cat a .empty).Matches t ↔ a.Matches t := by
  rw [matches_cat_iff]
  constructor
  · rintro ⟨u, v, rfl, ha, hv⟩
    rwa [matches_empty_iff.mp hv, List.append_nil]
  · intro h
    exact ⟨t, [], (List.append_nil t).symm, h, .empty⟩

/-- If the texts of an expression stand for things, those of its star stand for lists. -/
theorem matches_star_iff {α : Type} {P : α → Prop} {f : α → List Char}
    (ha : ∀ s, a.Matches s ↔ ∃ x, P x ∧ s = f x) :
    (star a).Matches t ↔ ∃ xs : List α, (∀ x ∈ xs, P x) ∧ t = xs.flatMap f := by
  constructor
  · intro h
    generalize hr : star a = r at h
    induction h with
    | stop => exact ⟨[], by simp⟩
    | again hs _ _ ih =>
      cases hr
      obtain ⟨x, hx, rfl⟩ := (ha _).mp hs
      obtain ⟨xs, hxs, rfl⟩ := ih rfl
      exact ⟨x :: xs, List.forall_mem_cons.mpr ⟨hx, hxs⟩, rfl⟩
    | _ => cases hr
  · rintro ⟨xs, hxs, rfl⟩
    induction xs with
    | nil => exact .stop
    | cons x xs ih =>
      obtain ⟨hx, hxs⟩ := List.forall_mem_cons.mp hxs
      exact .again ((ha _).mpr ⟨x, hx, rfl⟩) (ih hxs)

/-- The first round that takes anything takes the first character. -/
theorem matches_star_cons_iff : (star a).Matches (c :: t) ↔
    ∃ u v, t = u ++ v ∧ a.Matches (c :: u) ∧ (star a).Matches v := by
  constructor
  · intro h
    generalize hr : star a = r at h
    generalize hs : c :: t = s at h
    induction h with
    | stop => cases hs
    | @again a' s' t' ha hrest _ ih =>
      cases hr
      cases s' with
      | nil => exact ih rfl hs -- a round that takes nothing is passed over
      | cons c' u =>
        obtain ⟨rfl, rfl⟩ := List.cons.inj hs
        exact ⟨u, t', rfl, ha, hrest⟩
    | _ => cases hr
  · rintro ⟨u, v, rfl, ha, hrest⟩
    exact .again ha hrest

theorem nullable_iff : r.nullable = true ↔ r.Matches [] := by
  induction r with
  | empty => exact iff_of_true rfl .empty
  | one set => simp [nullable, matches_one_iff]
  | cat a b iha ihb =>
    rw [nullable, Bool.and_eq_true, iha, ihb, matches_cat_iff]
    constructor
    · rintro ⟨ha, hb⟩
      exact ⟨[], [], rfl, ha, hb⟩
    · rintro ⟨u, v, he, ha, hb⟩
      obtain ⟨rfl, rfl⟩ := List.append_eq_nil_iff.mp he.symm
      exact ⟨ha, hb⟩
  | star a => exact iff_of_true rfl .stop

theorem matches_cat_cons_iff : (cat a b).Matches (c :: t) ↔
    (∃ u v, t = u ++ v ∧ a.Matches (c :: u) ∧ b.Matches v) ∨ a.Matches [] ∧ b.Matches (c :: t) := by
  rw [matches_cat_iff]
  constructor
  · rintro ⟨u, v, he, ha, hb⟩
    cases u with
    | nil =>
      rw [List.nil_append] at he
      exact .inr ⟨ha, by rwa [he]⟩
    | cons c' u =>
      obtain ⟨rfl, rfl⟩ := List.cons.inj he
      exact .inl ⟨u, v, rfl, ha, hb⟩
  · rintro (⟨u, v, rfl, ha, hb⟩ | ⟨ha, hb⟩)
    · exact ⟨c :: u, v, rfl, ha, hb⟩
    · exact ⟨[], c :: t, rfl, ha, hb⟩

theorem matches_then_iff : (if r = .empty then b else .cat r b).Matches t ↔ (cat r b).Matches t := by
  split
  · rename_i he
    rw [he, matches_cat_iff]
    constructor
    · intro h
      exact ⟨[], t, rfl, .empty, h⟩
    · rintro ⟨u, v, rfl, hu, hv⟩
      rwa [matches_empty_iff.mp hu]
  · rfl

/-- What is left after a character is matched by the rest of the text. -/
theorem after_iff : r.Matches (c :: t) ↔ ∃ r' ∈ r.after c, r'.Matches t := by
  induction r generalizing t with
  | empty => simp [after, matches_empty_iff]
  | one set =>
    have hone : (∃ c', set.has c' = true ∧ c :: t = [c']) ↔ set.has c = true ∧ t = [] := by
      constructor
      · rintro ⟨c', hc', he⟩
        obtain ⟨rfl, rfl⟩ := List.cons.inj he
        exact ⟨hc', rfl⟩
      · rintro ⟨hc, rfl⟩
        exact ⟨c, hc, rfl⟩
    rw [matches_one_iff, hone, after]
    by_cases hc : set.has c = true <;> simp [matches_empty_iff, hc]
  | cat a b iha ihb =>
    have hleft : (∃ r' ∈ (a.after c).map fun r => if r = .empty then b else .cat r b, r'.Matches t) ↔
        ∃ u v, t = u ++ v ∧ a.Matches (c :: u) ∧ b.Matches v := by
      constructor
      · rintro ⟨r', hr', ht⟩
        obtain ⟨r, hr, rfl⟩ := List.mem_map.mp hr'
        obtain ⟨u, v, he, hu, hv⟩ := matches_cat_iff.mp (matches_then_iff.mp ht)
        exact ⟨u, v, he, iha.mpr ⟨r, hr, hu⟩, hv⟩
      · rintro ⟨u, v, he, hu, hv⟩
        obtain ⟨r, hr, hru⟩ := iha.mp hu
        exact ⟨_, List.mem_map_of_mem hr, matches_then_iff.mpr (matches_cat_iff.mpr ⟨u, v, he, hru, hv⟩)⟩
    rw [matches_cat_cons_iff, ← hleft, after, ← nullable_iff, ihb]
    cases a.nullable with
    | true => simp [or_and_right, exists_or]
    | false => simp
  | star a ih =>
    rw [matches_star_cons_iff, after]
    constructor
    · rintro ⟨u, v, he, hu, hv⟩
      obtain ⟨r, hr, hru⟩ := ih.mp hu
      exact ⟨_, List.mem_map_of_mem hr, matches_cat_iff.mpr ⟨u, v, he, hru, hv⟩⟩
    · rintro ⟨r', hr', ht⟩
      obtain ⟨r, hr, rfl⟩ := List.mem_map.mp hr'
      obtain ⟨u, v, he, hu, hv⟩ := matches_cat_iff.mp ht
      exact ⟨u, v, he, ih.mpr ⟨r, hr, hu⟩, hv⟩

theorem advance_iff {states : List Regex} :
    (∃ r ∈ advance states c, r.Matches t) ↔ ∃ r ∈ states, r.Matches (c :: t) := by
  simp only [advance, List.mem_eraseDups, List.mem_flatMap, after_iff]
  constructor
  · rintro ⟨r', ⟨r, hr, hr'⟩, ht⟩
    exact ⟨r, hr, r', hr', ht⟩
  · rintro ⟨r, hr, r', hr', ht⟩
    exact ⟨r', ⟨r, hr, hr'⟩, ht⟩

theorem foldl_advance_iff {states : List Regex} :
    (t.foldl advance states).any nullable = true ↔ ∃ r ∈ states, r.Matches t := by
  induction t generalizing states with
  | nil => simp [nullable_iff]
  | cons c t ih => rw [List.foldl_cons, ih, advance_iff]

theorem accepts_iff (r : Regex) (text : List Char) : r.accepts text = true ↔ r.Matches text := by
  rw [accepts, foldl_advance_iff]
  simp

end AlertRelay.Regex
