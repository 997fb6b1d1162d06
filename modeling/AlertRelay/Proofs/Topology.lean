import AlertRelay.Proofs.Refusal
import AlertRelay.Relay.Pipeline

/-! What a pipeline declares when it begins. All of it may exist already, and then it
stays as it is, with the messages that are ready or outstanding. -/

namespace AlertRelay

/-- The binding under which messages come to a pipeline. -/
def Pipeline.binding (p : Pipeline) : Binding := ⟨p.queue, p.exchange, p.inboundKey⟩

namespace Broker

/-- The broker with the exchange and the queue of a pipeline. -/
def hosting (b : Broker) (p : Pipeline) : Broker :=
  { b with
    connected := true
    exchanges := b.exchanges.insertNew p.exchange .topic
    queues := b.queues.insertNew p.queue [] }

/-- The broker with all that a pipeline declares. -/
def serving (b : Broker) (p : Pipeline) : Broker :=
  { b.hosting p with
    bindings := if p.binding ∈ b.bindings then b.bindings else b.bindings ++ [p.binding]
    prefetch := some p.prefetch
    confirms := true }

variable {b t : Broker} {p : Pipeline}

theorem declareExchange_topic {name : String} (hc : b.connected = true)
    (he : b.exchanges.get? name ≠ some .direct) :
    b.declareExchange name .topic = (.ok (), { b with exchanges := b.exchanges.insertNew name .topic }) := by
  rcases b.declareExchange_cases name .topic with ⟨f, h⟩ | ⟨hk, h⟩ | ⟨_, h⟩
  · cases (declareExchange_error h).1 with
    | notConnected _ hd => rw [hc] at hd; cases hd
    | @otherKind _ _ k _ hk hne => cases k <;> contradiction
  · rw [h, Table.insertNew_of_has (by simp [Table.has, hk])]
  · exact h

theorem bindQueue_bound {queue exchange key : String} (hc : b.connected = true) (hq : b.queues.has queue = true)
    (he : b.exchanges.has exchange = true)
    (hk : ⟨queue, exchange, key⟩ ∈ b.bindings ∨ b.keyFault key = none) :
    b.bindQueue queue exchange key = (.ok (), { b with
      bindings := if ⟨queue, exchange, key⟩ ∈ b.bindings then b.bindings
        else b.bindings ++ [⟨queue, exchange, key⟩] }) := by
  rw [bindQueue, whenConnected, if_pos hc]
  by_cases hn : ⟨queue, exchange, key⟩ ∈ b.bindings
  · simp [hq, he, hn]
  · simp [hq, he, hn, hk.resolve_left hn]

/-- Unless its exchange is of the other kind, a pipeline comes to its binding. -/
theorem declare_hosting (he : b.exchanges.get? p.exchange ≠ some .direct) : p.declare link b =
    andThen confirmDelivery (andThen (setPrefetch p.prefetch)
      ((b.hosting p).bindQueue p.queue p.exchange p.inboundKey)) := by
  have hexchange := declareExchange_topic (b := { b with connected := true }) rfl he
  simp only [Pipeline.declare, link, connect, andThen, hexchange]
  rfl

theorem declare_conflict (he : b.exchanges.get? p.exchange = some .direct) :
    p.declare link b = (.error (.kindConflict p.exchange), { b with connected := true }) := by
  simp [Pipeline.declare, link, connect, andThen, declareExchange, whenConnected, he]

theorem declare_serving (he : b.exchanges.get? p.exchange ≠ some .direct)
    (hk : p.binding ∈ b.bindings ∨ b.keyFault p.inboundKey = none) :
    p.declare link b = (.ok (), b.serving p) := by
  have hbound := bindQueue_bound (b := b.hosting p) rfl (Table.has_insertNew _ _ _) (Table.has_insertNew _ _ _) hk
  rw [declare_hosting he, hbound]
  rfl

theorem declare_unusable {text : String} (he : b.exchanges.get? p.exchange ≠ some .direct)
    (hn : p.binding ∉ b.bindings) (hk : b.keyFault p.inboundKey = some text) :
    p.declare link b = (.error (.unusableKey text), b.hosting p) := by
  have hrefused : (b.hosting p).Refuses (.bindQueue p.queue p.exchange p.inboundKey) (.unusableKey text) :=
    .unusableKey rfl (Table.has_insertNew _ _ _) (Table.has_insertNew _ _ _) hn hk
  have hbind : (b.hosting p).bindQueue p.queue p.exchange p.inboundKey = (.error (.unusableKey text), b.hosting p) :=
    Prod.ext (BrokerReply.failure?_done.mp hrefused.fails.1) hrefused.fails.2
  rw [declare_hosting he, hbind]
  rfl

/-- If it succeeds, it has declared everything. -/
theorem serving_of_declare (h : p.declare link b = (.ok (), t)) : t = b.serving p := by
  by_cases he : b.exchanges.get? p.exchange = some .direct
  · rw [declare_conflict he] at h
    cases h
  · by_cases hn : p.binding ∈ b.bindings
    · rw [declare_serving he (.inl hn)] at h
      cases h
      rfl
    · cases hk : b.keyFault p.inboundKey with
      | none =>
        rw [declare_serving he (.inr hk)] at h
        cases h
        rfl
      | some text =>
        rw [declare_unusable he hn hk] at h
        cases h

end Broker

end AlertRelay
