import AlertRelay.Broker.Operation
import AlertRelay.Table
import Mathlib.Data.List.Nodup

/-! The outcomes of the operations of a broker, and the broker after each. -/

namespace AlertRelay

/-- The queues that a routing key reaches through an exchange. -/
def Broker.reached (b : Broker) (exchange key : String) : List String :=
  match b.exchanges.get? exchange with
  | none => []
  | some kind => b.targets exchange kind key

theorem nodup_eraseDups {α : Type} [BEq α] [LawfulBEq α] (l : List α) : l.eraseDups.Nodup := by
  match l with
  | [] => simp
  | a :: l =>
    rw [List.eraseDups_cons, List.nodup_cons]
    exact ⟨by simp [List.mem_eraseDups], nodup_eraseDups _⟩
termination_by l.length
decreasing_by exact Nat.lt_succ_of_le (List.length_filter_le _ _)

namespace Broker

theorem reached_nodup (b : Broker) (exchange key : String) : (b.reached exchange key).Nodup := by
  unfold reached
  split
  · exact List.nodup_nil
  · exact nodup_eraseDups _

theorem declareExchange_cases (name : String) (kind : ExchangeKind) (b : Broker) :
    (∃ f, b.declareExchange name kind = (.error f, b)) ∨
    (b.exchanges.get? name = some kind ∧ b.declareExchange name kind = (.ok (), b)) ∨
    (b.exchanges.get? name = none ∧ b.declareExchange name kind =
      (.ok (), { b with exchanges := b.exchanges.insertNew name kind })) := by
  unfold declareExchange whenConnected
  split
  · split
    · rename_i h
      exact .inr (.inr ⟨h, rfl⟩)
    · rename_i k h
      split
      · rename_i hk
        exact .inr (.inl ⟨hk ▸ h, rfl⟩)
      · exact .inl ⟨_, rfl⟩
  · exact .inl ⟨_, rfl⟩

theorem bindQueue_cases (queue exchange key : String) (b : Broker) :
    (∃ outcome, b.bindQueue queue exchange key = (outcome, b)) ∨
    b.queues.has queue = true ∧ b.exchanges.has exchange = true ∧
      ⟨queue, exchange, key⟩ ∉ b.bindings ∧ b.bindQueue queue exchange key =
        (.ok (), { b with bindings := b.bindings ++ [⟨queue, exchange, key⟩] }) := by
  unfold bindQueue whenConnected
  split
  · split
    · exact .inl ⟨_, rfl⟩
    · rename_i hq
      split
      · exact .inl ⟨_, rfl⟩
      · rename_i he
        dsimp only
        split
        · exact .inl ⟨_, rfl⟩
        · rename_i hn
          split
          · exact .inl ⟨_, rfl⟩
          · exact .inr ⟨by simpa using hq, by simpa using he, hn, rfl⟩
  · exact .inl ⟨_, rfl⟩

theorem nextDelivery_cases (queue : String) (b : Broker) :
    (∃ f faults, b.nextDelivery queue = (.error f, { b with deliveryFaults := faults })) ∨
    b.nextDelivery queue = (.ok none, b) ∨
    ∃ m rest, b.connected = true ∧ b.queues.get? queue = some (m :: rest) ∧
      b.nextDelivery queue =
        (.ok (some ⟨b.lastTag + 1, m.key, m.body⟩), b.handOut queue m rest) := by
  unfold nextDelivery whenConnected
  split
  · rename_i hc
    split
    · exact .inl ⟨_, _, rfl⟩
    · split
      · exact .inl ⟨_, _, rfl⟩
      · exact .inr (.inl rfl)
      · rename_i m rest hq
        split
        · exact .inr (.inr ⟨m, rest, hc, hq, rfl⟩)
        · exact .inr (.inl rfl)
  · exact .inl ⟨_, _, rfl⟩

theorem ack_cases (tag : Nat) (b : Broker) :
    (∃ f, b.ack tag = (.error f, b)) ∨
    b.connected = true ∧ (∃ o ∈ b.outstanding, o.tag = tag) ∧
      b.ack tag = (.ok (), { b with
        outstanding := b.outstanding.filter (·.tag ≠ tag)
        acked := b.acked + 1 }.wake) := by
  unfold ack whenConnected
  split
  · rename_i hc
    split
    · rename_i ho
      exact .inr ⟨hc, by simpa using ho, rfl⟩
    · exact .inl ⟨_, rfl⟩
  · exact .inl ⟨_, rfl⟩

theorem ack_ok {tag : Nat} {b : Broker} (hc : b.connected = true) (ho : ∃ o ∈ b.outstanding, o.tag = tag) :
    (b.ack tag).1 = .ok () := by
  have ha : b.outstanding.any (·.tag = tag) = true := by simpa using ho
  simp [ack, whenConnected, hc, ha]

theorem route_cases (exchange key : String) (body : ByteArray) (b : Broker) :
    (b.exchanges.get? exchange = none ∧ b.route exchange key body = (.error (.noExchange exchange), b)) ∨
    b.route exchange key body = (.ok (b.reached exchange key).length, { b with
      queues := (b.reached exchange key).foldl (fun qs q => qs.update q (· ++ [⟨key, body⟩])) b.queues }) := by
  cases h : b.exchanges.get? exchange with
  | none => exact .inl ⟨rfl, by simp [route, h]⟩
  | some kind => exact .inr (by simp [route, h, reached])

theorem route_ok {b : Broker} {exchange : String} {kind : ExchangeKind}
    (he : b.exchanges.get? exchange = some kind) (key : String) (body : ByteArray) :
    b.route exchange key body = (.ok (b.reached exchange key).length, { b with
      queues := (b.reached exchange key).foldl (fun qs q => qs.update q (· ++ [⟨key, body⟩])) b.queues }) := by
  rcases route_cases exchange key body b with ⟨hnone, _⟩ | hr
  · rw [he] at hnone
    cases hnone
  · exact hr

/-- A publish fails and moves nothing, or it routes the message as a producer does. -/
theorem publish_cases (exchange key : String) (body : ByteArray) (b : Broker) :
    (∃ f faults, b.publish exchange key body = (.error f, { b with publishFaults := faults })) ∨
    b.connected = true ∧ b.publishFaults = [] ∧ b.reached exchange key ≠ [] ∧
      b.publish exchange key body = (.ok (), (b.route exchange key body).2.wake) := by
  unfold publish whenConnected
  split
  · rename_i hc
    split
    · exact .inl ⟨_, _, rfl⟩
    · rename_i hf
      rcases route_cases exchange key body b with ⟨_, hr⟩ | hr
      · rw [hr]
        exact .inl ⟨_, _, rfl⟩
      · cases ht : b.reached exchange key with
        | nil =>
          rw [hr, ht]
          exact .inl ⟨_, _, rfl⟩
        | cons q qs =>
          rw [hr, ht]
          exact .inr ⟨hc, hf, by simp, rfl⟩
  · exact .inl ⟨_, _, rfl⟩

theorem publish_routed {b : Broker} {exchange : String} {kind : ExchangeKind} (hc : b.connected = true)
    (hf : b.publishFaults = []) (he : b.exchanges.get? exchange = some kind) (key : String) (body : ByteArray) :
    b.publish exchange key body =
      if (b.reached exchange key).length = 0 then
        (.error (.unroutable exchange key), (b.route exchange key body).2)
      else (.ok (), (b.route exchange key body).2.wake) := by
  simp only [publish, whenConnected, hc, hf, if_true, route_ok he]
  cases hq : (b.reached exchange key).length with
  | zero => rfl
  | succ k => rfl

theorem inject_cases (exchange key : String) (body : ByteArray) (b : Broker) :
    (∃ f, b.inject exchange key body = (.error f, b)) ∨
    b.inject exchange key body =
      (.ok (b.reached exchange key).length, (b.route exchange key body).2.wake) := by
  unfold inject
  rcases route_cases exchange key body b with ⟨_, hr⟩ | hr
  · rw [hr]
    exact .inl ⟨_, rfl⟩
  · rw [hr]
    exact .inr rfl

theorem inject_ok {b : Broker} {exchange : String} {kind : ExchangeKind}
    (he : b.exchanges.get? exchange = some kind) (key : String) (body : ByteArray) :
    b.inject exchange key body =
      (.ok (b.reached exchange key).length, (b.route exchange key body).2.wake) := by
  simp only [inject, route_ok he]

end Broker

end AlertRelay
