import AlertRelay.Proofs.Draining

/-! What comes into an outbox and what leaves it. An entry leaves when it is popped,
or for a new one if there is no room, and always the oldest goes first. -/

namespace AlertRelay

inductive OutboxOperation
  | put (e : Entry)
  | pop

/-- The entry that an operation brings. -/
def OutboxOperation.entry? : OutboxOperation → Option Entry
  | put e => some e
  | pop => none

namespace Outbox

def perform : OutboxOperation → Outbox → Option Entry × Outbox
  | .put e, o => o.put e
  | .pop, o => o.pop

def performAll (ops : List OutboxOperation) (o : Outbox) : Outbox :=
  ops.foldl (fun o op => (o.perform op).2) o

/-- The entries that operations hand back, in the order in which they leave. -/
def handedBack : List OutboxOperation → Outbox → List Entry
  | [], _ => []
  | op :: ops, o => (o.perform op).1.toList ++ handedBack ops (o.perform op).2

variable {o : Outbox}

theorem Bounded.isFull_iff (ho : o.Bounded) : o.isFull = true ↔ o.length = o.capacity := by
  have hfits := ho.fits
  rw [isFull, decide_eq_true_iff]
  unfold length at *
  omega

/-- Only a full outbox gives an entry away for a new one, and that is its oldest. -/
theorem Bounded.put_fst (ho : o.Bounded) (e : Entry) :
    (o.put e).1 = if o.length = o.capacity then o.entries.head? else none := by
  unfold Outbox.put
  split
  · rename_i hfull
    rw [if_pos (ho.isFull_iff.mp hfull)]
  · rename_i hfull
    rw [if_neg fun h => hfull (ho.isFull_iff.mpr h)]

theorem Bounded.isSome_put (ho : o.Bounded) (e : Entry) : (o.put e).1.isSome = true ↔ o.length = o.capacity := by
  rw [ho.put_fst]
  split
  · rename_i hfull
    have hne : o.entries ≠ [] := List.length_pos_iff.mp (hfull ▸ ho.room : 0 < o.length)
    simp [hfull, hne]
  · rename_i hfull
    simp [hfull]

theorem Bounded.perform (ho : o.Bounded) (op : OutboxOperation) : (o.perform op).2.Bounded := by
  cases op with
  | put e => exact ho.put e
  | pop => exact ⟨ho.room, (List.tail_sublist _).length_le.trans ho.fits⟩

theorem perform_capacity (o : Outbox) (op : OutboxOperation) : (o.perform op).2.capacity = o.capacity := by
  cases op with
  | put e => simp only [perform, put]; split <;> rfl
  | pop => rfl

/-- An operation takes from the front and adds at the end. -/
theorem perform_kept (o : Outbox) (op : OutboxOperation) :
    (o.perform op).1.toList ++ (o.perform op).2.entries = o.entries ++ op.entry?.toList := by
  have hfront : o.entries.head?.toList ++ o.entries.tail = o.entries := by cases o.entries <;> rfl
  cases op with
  | put e =>
    simp only [perform, put, OutboxOperation.entry?]
    split
    · rw [← List.append_assoc, hfront]
      rfl
    · rfl
  | pop => exact hfront.trans (List.append_nil _).symm

theorem Bounded.performAll (ho : o.Bounded) (ops : List OutboxOperation) : (o.performAll ops).Bounded :=
  List.foldlRecOn (motive := Bounded) ops _ ho fun _ h op _ => h.perform op

theorem performAll_capacity (o : Outbox) (ops : List OutboxOperation) :
    (o.performAll ops).capacity = o.capacity := by
  refine List.foldlRecOn (motive := fun p : Outbox => p.capacity = o.capacity) ops _ rfl ?_
  exact fun p hp op _ => (p.perform_capacity op).trans hp

/-- What was there and what came, in this order, are what left and what is there. -/
theorem performAll_kept (o : Outbox) (ops : List OutboxOperation) :
    o.handedBack ops ++ (o.performAll ops).entries = o.entries ++ ops.filterMap OutboxOperation.entry? := by
  induction ops generalizing o with
  | nil => exact (List.append_nil _).symm
  | cons op ops ih =>
    have hstep := o.perform_kept op
    have hrest := ih (o.perform op).2
    calc o.handedBack (op :: ops) ++ (o.performAll (op :: ops)).entries
      _ = (o.perform op).1.toList ++ ((o.perform op).2.entries ++ ops.filterMap OutboxOperation.entry?) := by
        rw [← hrest, ← List.append_assoc]
        rfl
      _ = o.entries ++ (op.entry?.toList ++ ops.filterMap OutboxOperation.entry?) := by
        rw [← List.append_assoc, hstep, List.append_assoc]
      _ = o.entries ++ (op :: ops).filterMap OutboxOperation.entry? := by
        rw [List.filterMap_cons]
        cases op.entry? <;> rfl

/-- Whatever is put into a new outbox and popped from it: it never holds more than its
capacity, of which there is always one; a put drives out an entry if and only if the
outbox is full, and then the oldest; and what left it, in the order in which it left,
is followed by what it holds to make what was put in. Without pops it holds the newest. -/
theorem turns_over_in_order (capacity : Nat) (ops : List OutboxOperation) :
    let room := max capacity 1
    let o := (new capacity).performAll ops
    o.length ≤ room ∧
    (∀ e, ((o.put e).1.isSome = true ↔ o.length = room) ∧
      (o.put e).1 = if o.length = room then o.entries.head? else none) ∧
    (new capacity).handedBack ops ++ o.entries = ops.filterMap OutboxOperation.entry? ∧
    ∀ es, ((new capacity).performAll (es.map .put)).entries = newest room es := by
  intro room o
  have hnew := bounded_new capacity
  have ho : o.Bounded := hnew.performAll ops
  have hroom : o.capacity = room := performAll_capacity _ ops
  refine ⟨hroom ▸ ho.fits, fun e => ?_, performAll_kept _ ops, fun es => ?_⟩
  · rw [← hroom]
    exact ⟨ho.isSome_put e, ho.put_fst e⟩
  · have hputs : (new capacity).performAll (es.map .put) = es.foldl (fun o e => (o.put e).2) (new capacity) :=
      List.foldl_map
    rw [hputs, foldl_put hnew.room hnew.fits]
    rfl

end Outbox

end AlertRelay
