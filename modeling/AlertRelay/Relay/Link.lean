import AlertRelay.Broker.Basic

/-! What a relay needs of a broker whose state is of type `σ`. `wakeUps` counts
the events for which a waiting relay looks for a message again. -/

namespace AlertRelay

structure Link (σ : Type) where
  connect : σ → Outcome Unit × σ
  declareExchange : String → ExchangeKind → σ → Outcome Unit × σ
  declareQueue : String → σ → Outcome Unit × σ
  bindQueue : String → String → String → σ → Outcome Unit × σ
  setPrefetch : Nat → σ → Outcome Unit × σ
  confirmDelivery : σ → Outcome Unit × σ
  nextDelivery : String → σ → Outcome (Option Delivery) × σ
  ack : Nat → σ → Outcome Unit × σ
  publish : String → String → ByteArray → σ → Outcome Unit × σ
  close : σ → Outcome Unit × σ
  wakeUps : σ → Nat

/-- The broker in memory. -/
def Broker.link : Link Broker where
  connect := Broker.connect
  declareExchange := Broker.declareExchange
  declareQueue := Broker.declareQueue
  bindQueue := Broker.bindQueue
  setPrefetch := Broker.setPrefetch
  confirmDelivery := Broker.confirmDelivery
  nextDelivery := Broker.nextDelivery
  ack := Broker.ack
  publish := Broker.publish
  close := Broker.close
  wakeUps := Broker.wakeUps

end AlertRelay
