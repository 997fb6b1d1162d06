import AlertRelay.Broker.Basic

/-! Operations of the broker as data, and consumers that wait for a message. -/

namespace AlertRelay

inductive BrokerOperation
  | connect
  | declareExchange (name : String) (kind : ExchangeKind)
  | declareQueue (name : String)
  | bindQueue (queue exchange key : String)
  | setPrefetch (count : Nat)
  | confirmDelivery
  | nextDelivery (queue : String)
  | ack (tag : Nat)
  | publish (exchange key : String) (body : ByteArray)
  | close
  | inject (exchange key : String) (body : ByteArray)
  | failPublish (fault : BrokerFailure)
  | failDelivery (fault : BrokerFailure)
  | disconnect
  | takeMessages (queue : String)

/-- What an operation answers. -/
inductive BrokerReply
  | done (outcome : Outcome Unit)
  | looked (outcome : Outcome (Option Delivery))
  | routed (outcome : Outcome Nat)
  | taken (bodies : List ByteArray)

namespace Broker

def perform : BrokerOperation → Broker → BrokerReply × Broker
  | .connect, b => b.connect.map .done id
  | .declareExchange name kind, b => (b.declareExchange name kind).map .done id
  | .declareQueue name, b => (b.declareQueue name).map .done id
  | .bindQueue queue exchange key, b => (b.bindQueue queue exchange key).map .done id
  | .setPrefetch count, b => (b.setPrefetch count).map .done id
  | .confirmDelivery, b => b.confirmDelivery.map .done id
  | .nextDelivery queue, b => (b.nextDelivery queue).map .looked id
  | .ack tag, b => (b.ack tag).map .done id
  | .publish exchange key body, b => (b.publish exchange key body).map .done id
  | .close, b => b.close.map .done id
  | .inject exchange key body, b => (b.inject exchange key body).map .routed id
  | .failPublish fault, b => (.done (.ok ()), b.failPublish fault)
  | .failDelivery fault, b => (.done (.ok ()), b.failDelivery fault)
  | .disconnect, b => (.done (.ok ()), b.disconnect)
  | .takeMessages queue, b => (b.takeMessages queue).map .taken id

end Broker

/-- A consumer that waits for a message of a queue; `seen` is the number of
wake-ups at its last look. -/
structure Waiter where
  queue : String
  seen : Nat
deriving DecidableEq, Repr

/-- Looks at the broker: an answer, or a consumer that waits from now on. -/
def Broker.await (queue : String) (b : Broker) : (Outcome Delivery ⊕ Waiter) × Broker :=
  match b.nextDelivery queue with
  | (.ok none, b) => (.inr ⟨queue, b.wakeUps⟩, b)
  | (.ok (some d), b) => (.inl (.ok d), b)
  | (.error e, b) => (.inl (.error e), b)

/-- Looks again if there was a wake-up since the last look. -/
def Waiter.poll (w : Waiter) (b : Broker) : (Outcome Delivery ⊕ Waiter) × Broker :=
  if b.wakeUps = w.seen then (.inr w, b) else b.await w.queue

end AlertRelay
