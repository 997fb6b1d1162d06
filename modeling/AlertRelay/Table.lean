/-! Tables from names to values, in the order in which the names came up. A
name that is entered through `insertNew` occurs once. -/

namespace AlertRelay

abbrev Table (α : Type) := List (String × α)

namespace Table

variable {α : Type}

def get? (t : Table α) (name : String) : Option α := t.lookup name

def has (t : Table α) (name : String) : Bool := (t.get? name).isSome

/-- Enters a name, unless it is there already. -/
def insertNew (t : Table α) (name : String) (value : α) : Table α :=
  if t.has name then t else t ++ [(name, value)]

/-- Changes the value of a name; without the name nothing changes. -/
def update (t : Table α) (name : String) (f : α → α) : Table α :=
  t.map fun e => if e.1 = name then (e.1, f e.2) else e

theorem get?_cons (n : String) (a : α) (t : Table α) (name : String) :
    Table.get? ((n, a) :: t) name = if name = n then some a else t.get? name := by
  by_cases h : name = n
  · simp [get?, h]
  · have hb : (name == n) = false := by simpa using h
    simp [get?, List.lookup_cons, h, hb]

@[simp] theorem get?_update (t : Table α) (name other : String) (f : α → α) :
    (t.update name f).get? other = if other = name then (t.get? other).map f else t.get? other := by
  induction t with
  | nil => simp [update, get?]
  | cons e t ih =>
    obtain ⟨n, a⟩ := e
    have hcons : Table.update ((n, a) :: t) name f =
        (n, if n = name then f a else a) :: Table.update t name f := by
      by_cases hn : n = name <;> simp [update, hn]
    rw [hcons, get?_cons, get?_cons, ih]
    by_cases ho : other = n
    · subst ho
      by_cases hn : other = name <;> simp [hn]
    · simp [ho]

@[simp] theorem has_update (t : Table α) (name other : String) (f : α → α) :
    (t.update name f).has other = t.has other := by
  by_cases h : other = name <;> simp [has, h]

theorem get?_append (t u : Table α) (name : String) :
    Table.get? (t ++ u) name = (t.get? name).or (u.get? name) := by
  simp only [get?, List.lookup_append]

@[simp] theorem get?_insertNew (t : Table α) (name other : String) (value : α) :
    (t.insertNew name value).get? other =
      (t.get? other).or (if other = name then some value else none) := by
  unfold insertNew
  by_cases h : t.has name = true
  · obtain ⟨v, hv⟩ := Option.isSome_iff_exists.mp h
    by_cases ho : other = name <;> simp [h, ho, hv]
  · rw [if_neg h, get?_append, get?_cons]
    simp [get?]

theorem has_insertNew_of_has {t : Table α} {other : String} (name : String) (value : α)
    (h : t.has other = true) : (t.insertNew name value).has other = true := by
  obtain ⟨v, hv⟩ := Option.isSome_iff_exists.mp h
  simp [has, hv]

theorem insertNew_of_has {t : Table α} {name : String} (h : t.has name = true) (value : α) :
    t.insertNew name value = t := if_pos h

theorem has_insertNew (t : Table α) (name : String) (value : α) : (t.insertNew name value).has name = true := by
  simp [has]

theorem getD_insertNew (t : Table α) (name other : String) (value : α) :
    ((t.insertNew name value).get? other).getD value = (t.get? other).getD value := by
  rw [get?_insertNew]
  cases t.get? other with
  | some v => rfl
  | none => rw [Option.none_or]; split <;> rfl

theorem get?_foldl_update (names : List String) (hn : names.Nodup) (f : α → α) (t : Table α)
    (other : String) :
    (names.foldl (fun t n => t.update n f) t).get? other =
      if other ∈ names then (t.get? other).map f else t.get? other := by
  induction names generalizing t with
  | nil => simp
  | cons n names ih =>
    obtain ⟨hnot, hn⟩ := List.nodup_cons.mp hn
    rw [List.foldl_cons, ih hn]
    by_cases ho : other = n
    · subst ho
      simp [hnot]
    · simp [ho]

theorem has_foldl_update (names : List String) (f : α → α) (t : Table α) (other : String) :
    (names.foldl (fun t n => t.update n f) t).has other = t.has other := by
  induction names generalizing t with
  | nil => rfl
  | cons n names ih => rw [List.foldl_cons, ih, has_update]

end Table

end AlertRelay
