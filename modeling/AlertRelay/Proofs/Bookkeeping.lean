import AlertRelay.Proofs.Account
import AlertRelay.Proofs.Invariance
import Mathlib.Data.List.Induction

/-! The counters and the outbox of a relay follow from the calls that it made,
whatever the broker answered. -/

namespace AlertRelay

def Call.received? : Call → Option Delivery
  | .received d => some d
  | _ => none

def Call.isRefusal : Call → Bool
  | .acknowledged _ (.error _) => true
  | _ => false

def Call.acknowledgedTag? : Call → Option Nat
  | .acknowledged tag (.ok ()) => some tag
  | _ => none

def Call.confirmed? : Call → Option (String × String × ByteArray)
  | .published exchange key body (.ok ()) => some (exchange, key, body)
  | _ => none

def Entry.parcel (e : Entry) : String × String × ByteArray := (e.exchange, e.key, e.alert.wire.toUTF8)

def Rule.countMessage (rule : Rule) (body : ByteArray) (s : Stats) : Stats :=
  if (rule.classify body).toOption.isSome then s.receive else s.receive.reject

theorem Account.of_received (i : Intake) (capacity : Nat) (calls : List Call) :
    (Account.of i capacity calls).received = calls.filterMap Call.received? := by
  induction calls using List.reverseRecOn with
  | nil => rfl
  | append_singleton calls c ih =>
    rw [of_append, List.filterMap_append, ← ih, note_received]
    cases c <;> rfl

/-- An account explains the outbox and the counters of a relay that is between
two messages. -/
structure Account.Explains (a : Account) (rule : Rule) (b : Backlog) : Prop where
  outbox : b.outbox = a.outbox
  received : b.stats.received = a.received.length
  acknowledged : b.stats.acknowledged = a.acknowledged.length
  settled : a.received.length = a.acknowledged.length + a.unacknowledged.length
  rejected : b.stats.rejected = a.received.countP fun d => rule.rejects d.body
  buffered : b.stats.buffered = a.departed.length + a.outbox.length
  published : b.stats.published = a.confirmed.length
  dropped : b.stats.dropped = a.evicted.length
  hasPublished : b.stats.hasPublished = true ↔ 0 < b.stats.published

/-- The calls explain the outbox and the counters, and the account that they lead
to lists the tags that they acknowledged and what they sent. -/
structure Explained (i : Intake) (capacity : Nat) (calls : List Call) (b : Backlog) : Prop where
  account : (Account.of i capacity calls).Explains i.rule b
  refusals : calls.countP Call.isRefusal = (Account.of i capacity calls).unacknowledged.length
  tags : calls.filterMap Call.acknowledgedTag? = (Account.of i capacity calls).acknowledged.map (·.tag)
  sent : calls.filterMap Call.confirmed? = (Account.of i capacity calls).confirmed.map (·.parcel)

theorem explained_nil (i : Intake) (capacity : Nat) :
    Explained i capacity [] { outbox := .new capacity } :=
  ⟨⟨rfl, rfl, rfl, rfl, rfl, rfl, rfl, rfl, by simp⟩, rfl, rfl, rfl⟩

namespace Account.Explains

variable {rule : Rule} {a : Account} {b : Backlog}

/-- The counters of failures follow no calls. -/
theorem failures {o : Outbox} {s : Stats} (h : a.Explains rule ⟨o, s⟩) (notDelivered channelErrors : Nat) :
    a.Explains rule ⟨o, { s with notDelivered := notDelivered, channelErrors := channelErrors }⟩ :=
  ⟨h.1, h.2, h.3, h.4, h.5, h.6, h.7, h.8, h.9⟩

theorem countMessage (h : a.Explains rule b) (d : Delivery) :
    rule.countMessage d.body b.stats = { b.stats with
      received := (a.received ++ [d]).length
      rejected := (a.received ++ [d]).countP fun d => rule.rejects d.body } := by
  have hr := h.received
  have hj := h.rejected
  cases hc : (rule.classify d.body).toOption <;>
    simp [Rule.countMessage, Stats.receive, Stats.reject, Rule.rejects, hc, hr, hj]

theorem accept (h : a.Explains rule b) (d : Delivery) :
    Explains { a with received := a.received ++ [d], acknowledged := a.acknowledged ++ [d] } rule
      ⟨b.outbox, (rule.countMessage d.body b.stats).acknowledge⟩ := by
  have ha := h.acknowledged
  have hd := h.settled
  rw [h.countMessage]
  refine ⟨h.outbox, rfl, ?_, ?_, rfl, h.buffered, h.published, h.dropped, h.hasPublished⟩
  · simp only [Stats.acknowledge, List.length_append, List.length_singleton, ha]
  · simp only [List.length_append, List.length_singleton, hd]
    omega

theorem decline (h : a.Explains rule b) (d : Delivery) :
    Explains { a with received := a.received ++ [d], unacknowledged := a.unacknowledged ++ [d] } rule
      ⟨b.outbox, rule.countMessage d.body b.stats⟩ := by
  have hd := h.settled
  rw [h.countMessage]
  refine ⟨h.outbox, rfl, h.acknowledged, ?_, rfl, h.buffered, h.published, h.dropped, h.hasPublished⟩
  simp only [List.length_append, List.length_singleton, hd]
  omega

theorem confirm {capacity : Nat} {e : Entry} {rest : List Entry} {s : Stats}
    (h : a.Explains rule ⟨⟨capacity, e :: rest⟩, s⟩) :
    Explains { a with outbox := ⟨capacity, rest⟩, departed := a.departed ++ [.confirmed e] } rule
      ⟨⟨capacity, rest⟩, s.publish⟩ where
  outbox := rfl
  received := h.received
  acknowledged := h.acknowledged
  settled := h.settled
  rejected := h.rejected
  buffered := by
    have hb := h.buffered
    rw [← h.outbox] at hb
    simp only [Outbox.length, List.length_cons] at hb
    simp only [Stats.publish, Outbox.length, List.length_append, List.length_singleton, hb]
    omega
  published := by
    have hp := h.published
    simpa [Stats.publish, confirmed, Departure.confirmed?, List.filterMap_cons] using hp
  dropped := by
    have hd := h.dropped
    simpa [Stats.publish, evicted, Departure.evicted?, List.filterMap_cons] using hd
  hasPublished := by simp [Stats.publish]

theorem enter (h : a.Explains rule b) (e : Entry) : (a.enter e).Explains rule (b.put e) := by
  obtain ⟨o, s⟩ := b
  have ho : o = a.outbox := h.outbox
  subst ho
  have hb := h.buffered
  have hd := h.dropped
  have hc := h.published
  rcases a.enter_cases e with ⟨_, hp, he⟩ | ⟨old, rest, hold, hp, he⟩
  · simp only [Backlog.put, hp, he]
    refine ⟨rfl, h.2, h.3, h.4, h.5, ?_, h.7, h.8, h.9⟩
    simp only [Outbox.length] at hb
    simp only [Stats.buffer, Outbox.length, List.length_append, List.length_singleton, hb]
    omega
  · simp only [Backlog.put, hp, he]
    refine ⟨rfl, h.2, h.3, h.4, h.5, ?_, ?_, ?_, h.9⟩
    · simp only [Outbox.length, hold, List.length_cons] at hb
      simp only [Stats.buffer, Stats.drop, Outbox.length, List.length_append, List.length_singleton, hb]
      omega
    · simpa [Stats.buffer, Stats.drop, confirmed, Departure.confirmed?, List.filterMap_cons] using hc
    · simpa [Stats.buffer, Stats.drop, evicted, Departure.evicted?, List.filterMap_cons] using hd

theorem foldl_enter (es : List Entry) (h : a.Explains rule b) :
    (es.foldl Account.enter a).Explains rule (es.foldl Backlog.put b) := by
  induction es generalizing a b with
  | nil => exact h
  | cons e es ih => exact ih (h.enter e)

end Account.Explains

namespace Explained

variable {σ : Type} {i : Intake} {capacity : Nat} {calls : List Call} {b : Backlog}

/-- More calls explain what they lead to, if the account lists what they did. -/
theorem extend (h : Explained i capacity calls b) {calls' new : List Call} (hc : calls' = calls ++ new)
    {a : Account} (ha : Account.of i capacity calls' = a) {b' : Backlog} (he : a.Explains i.rule b')
    (hrefusals : a.unacknowledged.length =
      (Account.of i capacity calls).unacknowledged.length + new.countP Call.isRefusal)
    (htags : a.acknowledged.map (·.tag) =
      (Account.of i capacity calls).acknowledged.map (·.tag) ++ new.filterMap Call.acknowledgedTag?)
    (hsent : a.confirmed.map (·.parcel) =
      (Account.of i capacity calls).confirmed.map (·.parcel) ++ new.filterMap Call.confirmed?) :
    Explained i capacity calls' b' := by
  subst hc ha
  refine ⟨he, ?_, ?_, ?_⟩
  · rw [List.countP_append, h.refusals, hrefusals]
  · rw [List.filterMap_append, h.tags, htags]
  · rw [List.filterMap_append, h.sent, hsent]

theorem publishFailed (h : Explained i capacity calls b) (exchange key : String) (body : ByteArray)
    (f : BrokerFailure) : Explained i capacity (calls ++ [.published exchange key body (.error f)]) b :=
  h.extend rfl (Account.of_append ..) h.account rfl (List.append_nil _).symm (List.append_nil _).symm

theorem publishConfirmed {size : Nat} {e : Entry} {rest : List Entry} {s : Stats}
    (h : Explained i capacity calls ⟨⟨size, e :: rest⟩, s⟩) :
    Explained i capacity (calls ++ [.published e.exchange e.key e.alert.wire.toUTF8 (.ok ())])
      ⟨⟨size, rest⟩, s.publish⟩ := by
  have ha : Account.of i capacity
      (calls ++ [.published e.exchange e.key e.alert.wire.toUTF8 (.ok ())]) =
      { Account.of i capacity calls with
        outbox := ⟨size, rest⟩
        departed := (Account.of i capacity calls).departed ++ [.confirmed e] } := by
    simp only [Account.of_append, Account.note, Outbox.pop, ← h.account.outbox, List.head?_cons,
      List.tail_cons]
  refine h.extend rfl ha h.account.confirm rfl (List.append_nil _).symm ?_
  simp [Call.confirmed?, Account.confirmed, Departure.confirmed?, Entry.parcel]

theorem accepted (h : Explained i capacity calls b) (d : Delivery) :
    Explained i capacity (calls ++ [.received d] ++ [.acknowledged d.tag (.ok ())])
      ((i.entries d.body).foldl Backlog.put
        ⟨b.outbox, (i.rule.countMessage d.body b.stats).acknowledge⟩) := by
  have ha : Account.of i capacity (calls ++ [.received d] ++ [.acknowledged d.tag (.ok ())]) =
      (i.entries d.body).foldl Account.enter { Account.of i capacity calls with
        received := (Account.of i capacity calls).received ++ [d]
        acknowledged := (Account.of i capacity calls).acknowledged ++ [d] } := by
    simp only [Account.of_append, Account.note, List.getLast?_concat]
  obtain ⟨_, hacknowledged, hunacknowledged, hconfirmed⟩ := Account.foldl_enter_frame (i.entries d.body)
    { Account.of i capacity calls with
      received := (Account.of i capacity calls).received ++ [d]
      acknowledged := (Account.of i capacity calls).acknowledged ++ [d] }
  refine h.extend (List.append_assoc ..) ha ((h.account.accept d).foldl_enter _) ?_ ?_ ?_
  · rw [hunacknowledged]
    rfl
  · rw [hacknowledged, List.map_append]
    rfl
  · rw [hconfirmed]
    exact (List.append_nil _).symm

theorem declined (h : Explained i capacity calls b) (d : Delivery) (f : BrokerFailure) :
    Explained i capacity (calls ++ [.received d] ++ [.acknowledged d.tag (.error f)])
      ⟨b.outbox, i.rule.countMessage d.body b.stats⟩ := by
  have ha : Account.of i capacity (calls ++ [.received d] ++ [.acknowledged d.tag (.error f)]) =
      { Account.of i capacity calls with
        received := (Account.of i capacity calls).received ++ [d]
        unacknowledged := (Account.of i capacity calls).unacknowledged ++ [d] } := by
    simp only [Account.of_append, Account.note, List.getLast?_concat]
  exact h.extend (List.append_assoc ..) ha (h.account.decline d) (List.length_append ..)
    (List.append_nil _).symm (List.append_nil _).symm

theorem drainEntries (l : Link σ) {size : Nat} {es : List Entry} {s : Stats} {r : Recorded σ}
    (h : Explained i capacity r.calls ⟨⟨size, es⟩, s⟩) :
    Explained i capacity (drainEntries l.recorded s r es).broker.calls
      ⟨⟨size, (drainEntries l.recorded s r es).entries⟩, (drainEntries l.recorded s r es).stats⟩ := by
  induction es generalizing s r with
  | nil => exact h
  | cons e es ih =>
    simp only [AlertRelay.drainEntries, Link.recorded_publish]
    obtain ⟨outcome, inner⟩ := l.publish e.exchange e.key e.alert.wire.toUTF8 r.inner
    cases outcome with
    | ok u => exact ih h.publishConfirmed
    | error f =>
      have hh := h.publishFailed e.exchange e.key e.alert.wire.toUTF8 f
      dsimp only
      split
      · exact { hh with account := hh.account.failures _ _ }
      · exact hh

theorem drain (l : Link σ) {r : Recorded σ} (h : Explained i capacity r.calls b) :
    Explained i capacity (b.drain l.recorded r).2.2.calls (b.drain l.recorded r).2.1 :=
  h.drainEntries l

theorem take (l : Link σ) {r : Recorded σ} (h : Explained i capacity r.calls b) (d : Delivery) :
    Explained i capacity (i.take l.recorded d b (r.note (.received d))).2.2.calls
      (i.take l.recorded d b (r.note (.received d))).2.1 := by
  have ha := h.accepted d
  have hd := h.declined d
  simp only [Intake.take, Link.recorded_ack, Recorded.note]
  obtain ⟨outcome, inner⟩ := l.ack d.tag r.inner
  cases outcome with
  | ok u => exact drain l (r := ⟨inner, _⟩) ha
  | error f => exact hd f

end Explained

/-- Between two deliveries the acknowledged ones stay the same. -/
theorem Tracked.account_keeps (i : Intake) (capacity : Nat) (ds : List Delivery) {P : Tracked → Prop}
    (hp : ∀ {t} op, (∀ queue, op ≠ .nextDelivery queue) → P t → P (t.perform op).2) :
    Tracked.link.recorded.Keeps fun r =>
      P r.inner ∧ (Account.of i capacity r.calls).acknowledged = ds :=
  Tracked.link_keeps (Q := fun calls => (Account.of i capacity calls).acknowledged = ds) hp
    fun _ _ _ _ hc => (Account.of_published ..).trans hc

end AlertRelay
