import AlertRelay.Proofs.Recording

/-! The account of a relay's alerts. From the calls that a relay made follows
what its outbox holds, what left it and how, and what its counters show. -/

namespace AlertRelay

/-- The alerts of a message; a message that is rejected has none. -/
def Rule.alertsOf (r : Rule) (body : ByteArray) : List Alert := (r.classify body).toOption.getD []

def Rule.rejects (r : Rule) (body : ByteArray) : Bool := !(r.classify body).toOption.isSome

def Intake.entries (i : Intake) (body : ByteArray) : List Entry := (i.rule.alertsOf body).map i.entry

/-- An entry leaves the outbox when its publish is confirmed, or for a new one. -/
inductive Departure
  | confirmed (e : Entry)
  | evicted (e : Entry)

namespace Departure

def entry : Departure → Entry
  | confirmed e => e
  | evicted e => e

def confirmed? : Departure → Option Entry
  | confirmed e => some e
  | evicted _ => none

def evicted? : Departure → Option Entry
  | confirmed _ => none
  | evicted e => some e

end Departure

/-- The deliveries that came in, those of them whose acknowledgement succeeded and
those whose failed; the entries that left the outbox; and the outbox. -/
structure Account where
  received : List Delivery := []
  acknowledged : List Delivery := []
  unacknowledged : List Delivery := []
  departed : List Departure := []
  outbox : Outbox

namespace Account

def enter (a : Account) (e : Entry) : Account :=
  match a.outbox.put e with
  | (none, o) => { a with outbox := o }
  | (some old, o) => { a with outbox := o, departed := a.departed ++ [.evicted old] }

/-- An acknowledgement is of the last delivery that came in; if it succeeds, the
alerts go into the outbox. A publish that succeeds is of the oldest entry. -/
def note (i : Intake) (a : Account) : Call → Account
  | .received d => { a with received := a.received ++ [d] }
  | .acknowledged _ outcome =>
    match a.received.getLast?, outcome with
    | none, _ => a
    | some d, .ok () => (i.entries d.body).foldl enter { a with acknowledged := a.acknowledged ++ [d] }
    | some d, .error _ => { a with unacknowledged := a.unacknowledged ++ [d] }
  | .published _ _ _ (.ok ()) =>
    match a.outbox.pop with
    | (none, _) => a
    | (some e, o) => { a with outbox := o, departed := a.departed ++ [.confirmed e] }
  | .published _ _ _ (.error _) => a

def of (i : Intake) (capacity : Nat) (calls : List Call) : Account :=
  calls.foldl (note i) { outbox := .new capacity }

def confirmed (a : Account) : List Entry := a.departed.filterMap Departure.confirmed?

def evicted (a : Account) : List Entry := a.departed.filterMap Departure.evicted?

theorem of_append (i : Intake) (capacity : Nat) (calls : List Call) (c : Call) :
    of i capacity (calls ++ [c]) = (of i capacity calls).note i c := by
  simp [of]

theorem departed_length (a : Account) : a.departed.length = a.confirmed.length + a.evicted.length := by
  unfold confirmed evicted
  induction a.departed with
  | nil => rfl
  | cons d ds ih =>
    cases d <;> simp only [List.filterMap_cons, Departure.confirmed?, Departure.evicted?,
      List.length_cons, ih] <;> omega

theorem confirmed_sublist (a : Account) : a.confirmed.Sublist (a.departed.map (·.entry)) := by
  unfold confirmed
  induction a.departed with
  | nil => exact List.Sublist.slnil
  | cons d ds ih =>
    cases d with
    | confirmed e => exact ih.cons_cons e
    | evicted e => exact ih.cons e

theorem enter_cases (a : Account) (e : Entry) :
    ((a.outbox.isFull = true → a.outbox.entries = []) ∧
      a.outbox.put e = (none, { a.outbox with entries := a.outbox.entries ++ [e] }) ∧
      a.enter e = { a with outbox := { a.outbox with entries := a.outbox.entries ++ [e] } }) ∨
    ∃ old rest, a.outbox.entries = old :: rest ∧
      a.outbox.put e = (some old, { a.outbox with entries := rest ++ [e] }) ∧
      a.enter e = { a with
        outbox := { a.outbox with entries := rest ++ [e] }
        departed := a.departed ++ [.evicted old] } := by
  by_cases hf : a.outbox.isFull = true
  · cases ho : a.outbox.entries with
    | nil =>
      have hp : a.outbox.put e = (none, { a.outbox with entries := [e] }) := by simp [Outbox.put, hf, ho]
      exact .inl ⟨fun _ => rfl, hp, by simp [enter, hp]⟩
    | cons old rest =>
      have hp : a.outbox.put e = (some old, { a.outbox with entries := rest ++ [e] }) := by
        simp [Outbox.put, hf, ho]
      exact .inr ⟨old, rest, rfl, hp, by simp [enter, hp]⟩
  · have hp : a.outbox.put e = (none, { a.outbox with entries := a.outbox.entries ++ [e] }) := by
      simp [Outbox.put, hf]
    exact .inl ⟨fun h => absurd h hf, hp, by simp [enter, hp]⟩

/-- A new entry comes last; the entry that has to go for it was the first. -/
theorem enter_kept (a : Account) (e : Entry) :
    (a.enter e).departed.map (·.entry) ++ (a.enter e).outbox.entries =
      a.departed.map (·.entry) ++ a.outbox.entries ++ [e] := by
  rcases a.enter_cases e with ⟨_, _, he⟩ | ⟨old, rest, ho, _, he⟩ <;> rw [he]
  · exact (List.append_assoc ..).symm
  · simp [ho, Departure.entry]

theorem foldl_enter_kept (es : List Entry) (a : Account) :
    (es.foldl enter a).departed.map (·.entry) ++ (es.foldl enter a).outbox.entries =
      a.departed.map (·.entry) ++ a.outbox.entries ++ es := by
  induction es generalizing a with
  | nil => simp
  | cons e es ih => simp [ih, enter_kept]

theorem enter_frame (a : Account) (e : Entry) :
    (a.enter e).received = a.received ∧ (a.enter e).acknowledged = a.acknowledged ∧
      (a.enter e).unacknowledged = a.unacknowledged ∧ (a.enter e).confirmed = a.confirmed := by
  rcases a.enter_cases e with ⟨_, _, he⟩ | ⟨old, rest, _, _, he⟩ <;> rw [he]
  · exact ⟨rfl, rfl, rfl, rfl⟩
  · exact ⟨rfl, rfl, rfl, by simp [confirmed, Departure.confirmed?]⟩

theorem foldl_enter_frame (es : List Entry) (a : Account) :
    (es.foldl enter a).received = a.received ∧ (es.foldl enter a).acknowledged = a.acknowledged ∧
      (es.foldl enter a).unacknowledged = a.unacknowledged ∧
      (es.foldl enter a).confirmed = a.confirmed := by
  induction es generalizing a with
  | nil => exact ⟨rfl, rfl, rfl, rfl⟩
  | cons e es ih =>
    obtain ⟨hr, ha, hu, hc⟩ := ih (a.enter e)
    obtain ⟨hr', ha', hu', hc'⟩ := a.enter_frame e
    exact ⟨hr.trans hr', ha.trans ha', hu.trans hu', hc.trans hc'⟩

theorem note_received (i : Intake) (a : Account) (c : Call) :
    (a.note i c).received = a.received ++ match c with | .received d => [d] | _ => [] := by
  cases c with
  | received d => rfl
  | acknowledged tag outcome =>
    cases hd : a.received.getLast? with
    | none => simp only [note, hd, List.append_nil]
    | some d => cases outcome <;> simp only [note, hd, List.append_nil, (foldl_enter_frame _ _).1]
  | published exchange key body outcome =>
    cases outcome with
    | ok u => cases ho : a.outbox.entries <;> simp [note, Outbox.pop, ho]
    | error f => exact (List.append_nil _).symm

theorem of_settled (i : Intake) (capacity : Nat) (calls : List Call) (d : Delivery) (tag : Nat)
    (outcome : Outcome Unit) :
    (of i capacity (calls ++ [.received d] ++ [.acknowledged tag outcome])).acknowledged =
      (of i capacity calls).acknowledged ++ match outcome with | .ok () => [d] | .error _ => [] := by
  rw [of_append, of_append]
  cases outcome with
  | ok u => simp only [note, List.getLast?_concat, (foldl_enter_frame _ _).2.1]
  | error f => simp only [note, List.getLast?_concat, List.append_nil]

theorem of_published (i : Intake) (capacity : Nat) (calls : List Call) (exchange key : String)
    (body : ByteArray) (outcome : Outcome Unit) :
    (of i capacity (calls ++ [.published exchange key body outcome])).acknowledged =
      (of i capacity calls).acknowledged := by
  rw [of_append]
  cases outcome with
  | ok u => cases ho : (of i capacity calls).outbox.entries <;> simp [note, Outbox.pop, ho]
  | error f => rfl

/-- The alerts of the messages that were acknowledged are those that left the
outbox, in the order in which they left, and then those in it. -/
structure Kept (i : Intake) (capacity : Nat) (a : Account) : Prop where
  entries : a.departed.map (·.entry) ++ a.outbox.entries =
    a.acknowledged.flatMap fun d => i.entries d.body
  size : a.outbox.capacity = max capacity 1
  fits : a.outbox.length ≤ max capacity 1

theorem enter_fits {capacity : Nat} {a : Account} (hc : a.outbox.capacity = max capacity 1)
    (hf : a.outbox.length ≤ max capacity 1) (e : Entry) :
    (a.enter e).outbox.capacity = max capacity 1 ∧ (a.enter e).outbox.length ≤ max capacity 1 := by
  rcases a.enter_cases e with ⟨hfull, _, he⟩ | ⟨old, rest, ho, _, he⟩ <;> rw [he]
  · refine ⟨hc, ?_⟩
    -- a full outbox that gives nothing away is empty, and there is room for one entry
    have hlt : a.outbox.entries.length < max capacity 1 := by
      by_contra h
      have hnil := hfull (by simp only [Outbox.isFull, hc]; exact decide_eq_true (Nat.le_of_not_lt h))
      rw [hnil, List.length_nil] at h
      omega
    simp only [Outbox.length, List.length_append, List.length_singleton]
    omega
  · refine ⟨hc, ?_⟩
    simpa [Outbox.length, ho] using hf

theorem foldl_enter_fits {capacity : Nat} (es : List Entry) {a : Account}
    (hc : a.outbox.capacity = max capacity 1) (hf : a.outbox.length ≤ max capacity 1) :
    (es.foldl enter a).outbox.capacity = max capacity 1 ∧
      (es.foldl enter a).outbox.length ≤ max capacity 1 := by
  induction es generalizing a with
  | nil => exact ⟨hc, hf⟩
  | cons e es ih =>
    obtain ⟨hc', hf'⟩ := enter_fits hc hf e
    exact ih hc' hf'

theorem Kept.note {i : Intake} {capacity : Nat} {a : Account} (h : a.Kept i capacity) (c : Call) :
    (a.note i c).Kept i capacity := by
  cases c with
  | received d => exact ⟨h.entries, h.size, h.fits⟩
  | acknowledged tag outcome =>
    cases hd : a.received.getLast? with
    | none => simpa only [Account.note, hd] using h
    | some d =>
      cases outcome with
      | error f => simpa only [Account.note, hd] using ⟨h.entries, h.size, h.fits⟩
      | ok u =>
        simp only [Account.note, hd]
        have hfits := foldl_enter_fits (i.entries d.body)
          (a := { a with acknowledged := a.acknowledged ++ [d] }) h.size h.fits
        refine ⟨?_, hfits.1, hfits.2⟩
        rw [foldl_enter_kept, (foldl_enter_frame _ _).2.1, List.flatMap_append, ← h.entries]
        simp
  | published exchange key body outcome =>
    cases outcome with
    | error f => exact h
    | ok u =>
      cases ho : a.outbox.entries with
      | nil => simpa [Account.note, Outbox.pop, ho] using h
      | cons e rest =>
        have hk := h.entries
        have hf := h.fits
        rw [ho] at hk
        simp only [Outbox.length, ho, List.length_cons] at hf
        simp only [Account.note, Outbox.pop, ho, List.head?_cons, List.tail_cons]
        exact ⟨by simpa [Departure.entry] using hk, h.size, Nat.le_of_succ_le hf⟩

theorem of_kept (i : Intake) (capacity : Nat) (calls : List Call) : (of i capacity calls).Kept i capacity := by
  refine List.foldlRecOn calls (note i) ⟨rfl, rfl, Nat.zero_le _⟩ ?_
  exact fun a ha c _ => ha.note c

end Account

end AlertRelay
