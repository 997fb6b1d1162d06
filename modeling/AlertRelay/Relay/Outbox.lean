import AlertRelay.Alert

/-! The alerts that wait to be published, oldest first. A full outbox drops its
oldest entry for a new one. The memory for all its entries is taken when it is made. -/

namespace AlertRelay

/-- An alert with the exchange and key it is published to. -/
structure Entry where
  exchange : String
  key : String
  alert : Alert

/-- The bytes that an entry takes in memory. -/
def Entry.size : Nat := 184

/-- The most bytes that can be asked for at once. -/
def allocationLimit : Nat := 0x7ffffffffffffff8

/-- Why there is no memory. -/
inductive AllocationFault
  | tooLarge
  | refused
deriving DecidableEq, Repr

structure Outbox where
  capacity : Nat
  entries : List Entry

namespace Outbox

/-- An empty outbox; there is always room for one entry. -/
def new (capacity : Nat) : Outbox := ⟨max capacity 1, []⟩

/-- Makes an outbox, if there is memory for it. `grants` is whether the allocator gives
as many bytes. -/
def allot (grants : Nat → Bool) (capacity : Nat) : Except AllocationFault Outbox :=
  let bytes := Entry.size * max capacity 1
  if allocationLimit < bytes then .error .tooLarge
  else if grants bytes then .ok (new capacity)
  else .error .refused

def length (o : Outbox) : Nat := o.entries.length

def isEmpty (o : Outbox) : Bool := o.entries.isEmpty

def isFull (o : Outbox) : Bool := o.capacity ≤ o.entries.length

def front? (o : Outbox) : Option Entry := o.entries.head?

/-- Appends an entry; the entry that had to go for it, if any. -/
def put (o : Outbox) (e : Entry) : Option Entry × Outbox :=
  if o.isFull then (o.entries.head?, { o with entries := o.entries.tail ++ [e] })
  else (none, { o with entries := o.entries ++ [e] })

def pop (o : Outbox) : Option Entry × Outbox :=
  (o.entries.head?, { o with entries := o.entries.tail })

end Outbox

end AlertRelay
