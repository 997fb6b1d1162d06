import AlertRelay.Proofs.Soundness
import Mathlib.Logic.Function.Basic

/-! What an operation does to the messages of a broker. Whatever else it does,
it moves them in one of a few ways, which its outcome tells. -/

namespace AlertRelay

/-- The ready messages of a queue, oldest first. -/
def Broker.messages (b : Broker) (queue : String) : List Message := (b.queues.get? queue).getD []

inductive Movement
  | still
  /-- Each of the queues gets a copy of a message. -/
  | routed (queues : List String) (message : Message)
  /-- The oldest message of a queue is handed out under a tag. -/
  | handedOut (tag : Nat) (queue : String)
  | acknowledged (tag : Nat)
  /-- All outstanding deliveries go back. -/
  | requeued
  /-- All ready messages of a queue are taken away. -/
  | taken (queue : String)

/-- The movement that belongs to the outcome of an operation. -/
def Broker.movement (b : Broker) : BrokerOperation → Movement
  | .nextDelivery queue =>
    match (b.nextDelivery queue).1 with
    | .ok (some d) => .handedOut d.tag queue
    | _ => .still
  | .ack tag =>
    match (b.ack tag).1 with
    | .ok () => .acknowledged tag
    | .error _ => .still
  | .publish exchange key body =>
    match (b.publish exchange key body).1 with
    | .ok () => .routed (b.reached exchange key) ⟨key, body⟩
    | .error _ => .still
  | .inject exchange key body =>
    match (b.inject exchange key body).1 with
    | .ok _ => .routed (b.reached exchange key) ⟨key, body⟩
    | .error _ => .still
  | .close | .disconnect => .requeued
  | .takeMessages queue => .taken queue
  | _ => .still

structure Stock where
  ready : String → List Message
  outstanding : List Outstanding

def Broker.stock (b : Broker) : Stock := ⟨b.messages, b.outstanding⟩

def Movement.apply (s : Stock) : Movement → Stock
  | .still => s
  | .routed queues m => { s with ready := fun q => s.ready q ++ if q ∈ queues then [m] else [] }
  | .handedOut tag queue =>
    match s.ready queue with
    | [] => s
    | m :: rest =>
      ⟨Function.update s.ready queue rest, s.outstanding ++ [⟨tag, queue, m⟩]⟩
  | .acknowledged tag => { s with outstanding := s.outstanding.filter (·.tag ≠ tag) }
  | .requeued =>
    ⟨fun q => (s.outstanding.filter (·.queue = q)).map (·.message) ++ s.ready q, []⟩
  | .taken queue => { s with ready := Function.update s.ready queue [] }

theorem Movement.apply_handedOut {s : Stock} {queue : String} {m : Message} {rest : List Message}
    (h : s.ready queue = m :: rest) (tag : Nat) :
    Movement.apply s (.handedOut tag queue) =
      ⟨Function.update s.ready queue rest, s.outstanding ++ [⟨tag, queue, m⟩]⟩ := by
  simp [Movement.apply, h]

namespace Broker

@[simp] theorem stock_wake (b : Broker) : b.wake.stock = b.stock := rfl

theorem messages_of_get? {b : Broker} {queue : String} {ms : List Message}
    (h : b.queues.get? queue = some ms) : b.messages queue = ms := by
  simp [messages, h]

theorem route_stock {b : Broker} (hb : b.Sound) (exchange key : String) (body : ByteArray) :
    (b.route exchange key body).2.stock =
      Movement.apply b.stock (.routed (b.reached exchange key) ⟨key, body⟩) := by
  rcases route_cases exchange key body b with ⟨hn, hr⟩ | hr
  · simp [hr, reached, hn, Movement.apply]
  · rw [hr]
    simp only [stock, Movement.apply, Stock.mk.injEq, and_true]
    funext q
    simp only [messages, Table.get?_foldl_update _ (b.reached_nodup exchange key)]
    by_cases hq : q ∈ b.reached exchange key
    · obtain ⟨ms, hms⟩ := Option.isSome_iff_exists.mp (hb.has_of_reached hq)
      simp [hq, hms]
    · simp [hq]

theorem handOut_stock {b : Broker} {queue : String} {m : Message} {rest : List Message}
    (h : b.queues.get? queue = some (m :: rest)) :
    (b.handOut queue m rest).stock = Movement.apply b.stock (.handedOut (b.lastTag + 1) queue) := by
  rw [Movement.apply_handedOut (messages_of_get? h)]
  simp only [handOut, stock, Stock.mk.injEq, and_true]
  funext q
  by_cases hq : q = queue
  · subst hq
    simp [messages, h]
  · simp [messages, hq]

theorem disconnect_stock {b : Broker} (hb : b.Sound) :
    b.disconnect.stock = Movement.apply b.stock .requeued := by
  simp only [disconnect, stock_wake]
  simp only [stock, Movement.apply, Stock.mk.injEq, and_true]
  funext q
  simp only [messages, get?_putBack]
  cases hq : b.queues.get? q with
  | some ms => simp
  | none =>
    have hno : b.outstanding.filter (·.queue = q) = [] := by
      apply List.filter_eq_nil_iff.mpr
      intro o ho he
      have hs := hb.queueOfOutstanding o ho
      simp only [decide_eq_true_eq] at he
      simp [Table.has, he, hq] at hs
    simp [hno]

theorem takeMessages_stock (b : Broker) (queue : String) :
    (b.takeMessages queue).2.stock = Movement.apply b.stock (.taken queue) := by
  simp only [takeMessages, stock, Movement.apply, Stock.mk.injEq, and_true]
  funext q
  by_cases hq : q = queue
  · subst hq
    cases h : b.queues.get? q <;> simp [messages, h]
  · simp [messages, hq]

theorem declareQueue_stock (b : Broker) (name : String) :
    (b.declareQueue name).2.stock = b.stock := by
  unfold declareQueue whenConnected
  split
  · simp only [stock, Stock.mk.injEq, and_true]
    exact funext fun q => Table.getD_insertNew _ _ _ _
  · rfl

/-- The messages move as the outcome of the operation tells. -/
theorem perform_stock {b : Broker} (hb : b.Sound) (op : BrokerOperation) :
    (b.perform op).2.stock = (b.movement op).apply b.stock := by
  cases op with
  | connect => rfl
  | declareExchange name kind =>
    rcases b.declareExchange_cases name kind with ⟨f, h⟩ | ⟨_, h⟩ | ⟨_, h⟩ <;>
      simp only [perform, Prod.map, h] <;> rfl
  | declareQueue name => exact b.declareQueue_stock name
  | bindQueue queue exchange key =>
    rcases b.bindQueue_cases queue exchange key with ⟨r, h⟩ | ⟨_, _, _, h⟩ <;>
      simp only [perform, Prod.map, h] <;> rfl
  | setPrefetch count => simp only [perform, setPrefetch, whenConnected]; split <;> rfl
  | confirmDelivery => simp only [perform, confirmDelivery, whenConnected]; split <;> rfl
  | nextDelivery queue =>
    rcases b.nextDelivery_cases queue with ⟨f, faults, h⟩ | h | ⟨m, rest, _, hq, h⟩
    · simp only [perform, movement, Prod.map, h]
      rfl
    · simp only [perform, movement, Prod.map, h]
      rfl
    · simp only [perform, movement, Prod.map, h]
      exact handOut_stock hq
  | ack tag =>
    rcases b.ack_cases tag with ⟨f, h⟩ | ⟨_, _, h⟩ <;>
      simp only [perform, movement, Prod.map, h] <;> rfl
  | publish exchange key body =>
    rcases b.publish_cases exchange key body with ⟨f, faults, h⟩ | ⟨_, _, _, h⟩
    · simp only [perform, movement, Prod.map, h]
      rfl
    · simp only [perform, movement, Prod.map, h]
      exact route_stock hb exchange key body
  | close => exact disconnect_stock hb
  | inject exchange key body =>
    rcases b.inject_cases exchange key body with ⟨f, h⟩ | h
    · simp only [perform, movement, Prod.map, h]
      rfl
    · simp only [perform, movement, Prod.map, h]
      exact route_stock hb exchange key body
  | failPublish fault => rfl
  | failDelivery fault => rfl
  | disconnect => exact disconnect_stock hb
  | takeMessages queue => exact b.takeMessages_stock queue

theorem movement_cases (b : Broker) (op : BrokerOperation) :
    b.movement op = .still ∨
    (∃ queues m, b.movement op = .routed queues m ∧ queues.Nodup) ∨
    (∃ queue m rest, op = .nextDelivery queue ∧
      b.movement op = .handedOut (b.lastTag + 1) queue ∧ b.messages queue = m :: rest ∧
      (b.nextDelivery queue).1 = .ok (some ⟨b.lastTag + 1, m.key, m.body⟩)) ∨
    (∃ tag, op = .ack tag ∧ b.movement op = .acknowledged tag ∧ ∃ o ∈ b.outstanding, o.tag = tag) ∨
    b.movement op = .requeued ∨ ∃ queue, b.movement op = .taken queue := by
  cases op with
  | nextDelivery queue =>
    rcases b.nextDelivery_cases queue with ⟨f, faults, h⟩ | h | ⟨m, rest, _, hq, h⟩
    · exact .inl (by simp [movement, h])
    · exact .inl (by simp [movement, h])
    · exact .inr (.inr (.inl ⟨queue, m, rest, rfl, by simp [movement, h], messages_of_get? hq, by rw [h]⟩))
  | ack tag =>
    rcases b.ack_cases tag with ⟨f, h⟩ | ⟨_, ho, h⟩
    · exact .inl (by simp [movement, h])
    · exact .inr (.inr (.inr (.inl ⟨tag, rfl, by simp [movement, h], ho⟩)))
  | publish exchange key body =>
    simp only [movement]
    split
    · exact .inr (.inl ⟨_, _, rfl, b.reached_nodup exchange key⟩)
    · exact .inl rfl
  | inject exchange key body =>
    simp only [movement]
    split
    · exact .inr (.inl ⟨_, _, rfl, b.reached_nodup exchange key⟩)
    · exact .inl rfl
  | close => exact .inr (.inr (.inr (.inr (.inl rfl))))
  | disconnect => exact .inr (.inr (.inr (.inr (.inl rfl))))
  | takeMessages queue => exact .inr (.inr (.inr (.inr (.inr ⟨queue, rfl⟩))))
  | _ => exact .inl rfl

theorem perform_counters (b : Broker) (op : BrokerOperation) :
    (b.perform op).2.lastTag =
      (match b.movement op with | .handedOut tag _ => tag | _ => b.lastTag) ∧
    (b.perform op).2.acked =
      b.acked + (match b.movement op with | .acknowledged _ => 1 | _ => 0) := by
  cases op with
  | declareExchange name kind =>
    rcases b.declareExchange_cases name kind with ⟨f, h⟩ | ⟨_, h⟩ | ⟨_, h⟩ <;>
      simp only [perform, Prod.map, h] <;> exact ⟨rfl, rfl⟩
  | bindQueue queue exchange key =>
    rcases b.bindQueue_cases queue exchange key with ⟨r, h⟩ | ⟨_, _, _, h⟩ <;>
      simp only [perform, Prod.map, h] <;> exact ⟨rfl, rfl⟩
  | declareQueue name => simp only [perform, declareQueue, whenConnected]; split <;> exact ⟨rfl, rfl⟩
  | setPrefetch count => simp only [perform, setPrefetch, whenConnected]; split <;> exact ⟨rfl, rfl⟩
  | confirmDelivery => simp only [perform, confirmDelivery, whenConnected]; split <;> exact ⟨rfl, rfl⟩
  | nextDelivery queue =>
    rcases b.nextDelivery_cases queue with ⟨f, faults, h⟩ | h | ⟨m, rest, _, _, h⟩ <;>
      simp only [perform, movement, Prod.map, h] <;> exact ⟨rfl, rfl⟩
  | ack tag =>
    rcases b.ack_cases tag with ⟨f, h⟩ | ⟨_, _, h⟩ <;>
      simp only [perform, movement, Prod.map, h] <;> exact ⟨rfl, rfl⟩
  | publish exchange key body =>
    rcases b.publish_cases exchange key body with ⟨f, faults, h⟩ | ⟨_, _, _, h⟩
    · simp only [perform, movement, Prod.map, h]
      exact ⟨rfl, rfl⟩
    · rcases b.route_cases exchange key body with ⟨_, hr⟩ | hr <;>
        simp only [perform, movement, Prod.map, h, hr] <;> exact ⟨rfl, rfl⟩
  | inject exchange key body =>
    rcases b.inject_cases exchange key body with ⟨f, h⟩ | h
    · simp only [perform, movement, Prod.map, h]
      exact ⟨rfl, rfl⟩
    · rcases b.route_cases exchange key body with ⟨_, hr⟩ | hr <;>
        simp only [perform, movement, Prod.map, h, hr] <;> exact ⟨rfl, rfl⟩
  | _ => exact ⟨rfl, rfl⟩

end Broker

end AlertRelay
