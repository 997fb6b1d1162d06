import AlertRelay.Relay.Intake

/-! An outbox without room for all its entries keeps the newest ones. -/

namespace AlertRelay

section Newest

variable {α β : Type}

/-- The last members of a list, no more than `n`. -/
def newest (n : Nat) (xs : List α) : List α := xs.drop (xs.length - n)

theorem newest_of_le {n : Nat} {xs : List α} (h : xs.length ≤ n) : newest n xs = xs := by
  rw [newest, Nat.sub_eq_zero_of_le h, List.drop_zero]

theorem length_newest (n : Nat) (xs : List α) : (newest n xs).length = min n xs.length := by
  rw [newest, List.length_drop]
  omega

theorem map_newest (f : α → β) (n : Nat) (xs : List α) : (newest n xs).map f = newest n (xs.map f) := by
  rw [newest, newest, List.map_drop, List.length_map]

/-- What is lost early would be lost later as well. -/
theorem newest_newest_append (n : Nat) (xs ys : List α) : newest n (newest n xs ++ ys) = newest n (xs ++ ys) := by
  have hlen : (newest n xs ++ ys).length = min n xs.length + ys.length := by
    rw [List.length_append, length_newest]
  have hall : newest n xs ++ ys = (xs ++ ys).drop (xs.length - n) :=
    (List.drop_append_of_le_length (Nat.sub_le _ _)).symm
  rw [newest, hlen, hall, List.drop_drop, newest, List.length_append]
  congr 1
  omega

end Newest

theorem Outbox.put_newest {o : Outbox} (hc : 0 < o.capacity) (ho : o.length ≤ o.capacity) (e : Entry) :
    (o.put e).2 = { o with entries := newest o.capacity (o.entries ++ [e]) } := by
  unfold length at ho
  by_cases hf : o.capacity ≤ o.entries.length
  · have heq : o.entries.length = o.capacity := Nat.le_antisymm ho hf
    have hne : o.entries ≠ [] := by
      intro hnil
      rw [hnil, List.length_nil] at heq
      omega
    have hone : (o.entries ++ [e]).length - o.capacity = 1 := by
      rw [List.length_append, List.length_singleton]
      omega
    simp only [put, isFull, hf, decide_true, if_true]
    rw [newest, hone, List.drop_one, List.tail_append_of_ne_nil hne]
  · have hfits : (o.entries ++ [e]).length ≤ o.capacity := by
      rw [List.length_append, List.length_singleton]
      omega
    simp only [put, isFull, hf, decide_false, Bool.false_eq_true, if_false]
    rw [newest_of_le hfits]

/-- Entries that come one after the other leave the newest of all. -/
theorem Outbox.foldl_put {o : Outbox} (hc : 0 < o.capacity) (ho : o.length ≤ o.capacity) (es : List Entry) :
    es.foldl (fun o e => (o.put e).2) o = { o with entries := newest o.capacity (o.entries ++ es) } := by
  induction es generalizing o with
  | nil => rw [List.append_nil, newest_of_le ho, List.foldl_nil]
  | cons e es ih =>
    have hput := put_newest hc ho e
    have hlen : (o.put e).2.length ≤ (o.put e).2.capacity := by
      rw [hput, length, length_newest]
      exact Nat.min_le_left _ _
    rw [List.foldl_cons, ih (by rw [hput]; exact hc) hlen, hput]
    simp only [newest_newest_append, List.append_assoc, List.singleton_append]

theorem Backlog.put_outbox (b : Backlog) (e : Entry) : (b.put e).outbox = (b.outbox.put e).2 := by
  unfold put
  split <;> rename_i h <;> rw [h]

theorem Backlog.foldl_put_outbox {b : Backlog} (hc : 0 < b.outbox.capacity)
    (ho : b.outbox.length ≤ b.outbox.capacity) (es : List Entry) :
    (es.foldl put b).outbox =
      { b.outbox with entries := newest b.outbox.capacity (b.outbox.entries ++ es) } := by
  rw [← Outbox.foldl_put hc ho es]
  exact (List.foldl_hom Backlog.outbox fun b e => (b.put_outbox e).symm).symm

end AlertRelay
