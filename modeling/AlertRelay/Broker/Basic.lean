import AlertRelay.Broker.Failure
import AlertRelay.Table
import AlertRelay.Topic.Pattern

/-! A message broker in memory: exchanges, queues, the bindings between them,
and the deliveries that wait for an acknowledgement. An operation returns its
outcome and the broker afterwards. -/

namespace AlertRelay

inductive ExchangeKind
  | direct
  | topic
deriving DecidableEq, Repr

/-- Whether a binding key accepts a routing key. -/
def ExchangeKind.accepts : ExchangeKind → String → String → Bool
  | .direct, bindingKey, routingKey => bindingKey = routingKey
  | .topic, bindingKey, routingKey => topicAccepts bindingKey routingKey

structure Message where
  key : String
  body : ByteArray

structure Binding where
  queue : String
  exchange : String
  key : String
deriving DecidableEq, Repr

/-- A message that was handed out and is not acknowledged. -/
structure Outstanding where
  tag : Nat
  queue : String
  message : Message

structure Delivery where
  tag : Nat
  key : String
  body : ByteArray

/-- Outstanding deliveries are in ascending order of their tags. `prefetch`
limits how many there may be, unless it is 0. `wakeUps` counts the events for
which a waiting consumer looks at the broker again. `keyFault` is what the
pattern library has against a binding key; it refuses none but enormous ones. -/
structure Broker where
  connected : Bool := false
  exchanges : Table ExchangeKind := []
  queues : Table (List Message) := []
  bindings : List Binding := []
  prefetch : Option Nat := none
  confirms : Bool := false
  lastTag : Nat := 0
  outstanding : List Outstanding := []
  acked : Nat := 0
  publishFaults : List BrokerFailure := []
  deliveryFaults : List BrokerFailure := []
  wakeUps : Nat := 0
  keyFault : String → Option String := fun _ => none

abbrev Outcome (α : Type) := Except BrokerFailure α

namespace Broker

/-- How many messages of a queue are ready. -/
def ready (b : Broker) (queue : String) : Nat := ((b.queues.get? queue).getD []).length

def wake (b : Broker) : Broker := { b with wakeUps := b.wakeUps + 1 }

/-- Runs an operation that needs a connection. -/
def whenConnected {α : Type} (b : Broker) (run : Outcome α × Broker) : Outcome α × Broker :=
  if b.connected then run else (.error .notConnected, b)

def connect (b : Broker) : Outcome Unit × Broker := (.ok (), { b with connected := true })

/-- Declaring an exchange again is no change, but it has to be of the same kind. -/
def declareExchange (name : String) (kind : ExchangeKind) (b : Broker) : Outcome Unit × Broker :=
  b.whenConnected <|
    match b.exchanges.get? name with
    | none => (.ok (), { b with exchanges := b.exchanges.insertNew name kind })
    | some k => if k = kind then (.ok (), b) else (.error (.kindConflict name), b)

def declareQueue (name : String) (b : Broker) : Outcome Unit × Broker :=
  b.whenConnected (.ok (), { b with queues := b.queues.insertNew name [] })

/-- Binds a queue to an exchange; a binding that exists is not added again, and
its key is not looked at. -/
def bindQueue (queue exchange key : String) (b : Broker) : Outcome Unit × Broker :=
  b.whenConnected <|
    if !b.queues.has queue then (.error (.noQueue queue), b)
    else if !b.exchanges.has exchange then (.error (.noExchange exchange), b)
    else
      let new : Binding := ⟨queue, exchange, key⟩
      if new ∈ b.bindings then (.ok (), b)
      else
        match b.keyFault key with
        | some text => (.error (.unusableKey text), b)
        | none => (.ok (), { b with bindings := b.bindings ++ [new] })

def setPrefetch (count : Nat) (b : Broker) : Outcome Unit × Broker :=
  b.whenConnected (.ok (), { b with prefetch := some count })

def confirmDelivery (b : Broker) : Outcome Unit × Broker :=
  b.whenConnected (.ok (), { b with confirms := true })

/-- Whether another message may be handed out. -/
def hasRoom (b : Broker) : Bool :=
  match b.prefetch with
  | none | some 0 => true
  | some limit => b.outstanding.length < limit

/-- Hands out a message under the next tag. -/
def handOut (b : Broker) (queue : String) (m : Message) (rest : List Message) : Broker :=
  { b with
    queues := b.queues.update queue fun _ => rest
    lastTag := b.lastTag + 1
    outstanding := b.outstanding ++ [⟨b.lastTag + 1, queue, m⟩] }

/-- Looks for a message of a queue; none if a consumer would have to wait. -/
def nextDelivery (queue : String) (b : Broker) : Outcome (Option Delivery) × Broker :=
  b.whenConnected <|
    match b.deliveryFaults with
    | fault :: rest => (.error fault, { b with deliveryFaults := rest })
    | [] =>
      match b.queues.get? queue with
      | none => (.error (.noQueue queue), b)
      | some [] => (.ok none, b)
      | some (m :: rest) =>
        if b.hasRoom then
          (.ok (some ⟨b.lastTag + 1, m.key, m.body⟩), b.handOut queue m rest)
        else (.ok none, b)

def ack (tag : Nat) (b : Broker) : Outcome Unit × Broker :=
  b.whenConnected <|
    if b.outstanding.any (·.tag = tag) then
      (.ok (), { b with
        outstanding := b.outstanding.filter (·.tag ≠ tag)
        acked := b.acked + 1 }.wake)
    else (.error (.unknownTag tag), b)

/-- The queues that a message reaches, each once. -/
def targets (b : Broker) (exchange : String) (kind : ExchangeKind) (key : String) : List String :=
  ((b.bindings.filter fun x => x.exchange = exchange && kind.accepts x.key key).map
    (·.queue)).eraseDups

/-- Puts a message at the end of every queue it reaches; how many these are. -/
def route (exchange key : String) (body : ByteArray) (b : Broker) : Outcome Nat × Broker :=
  match b.exchanges.get? exchange with
  | none => (.error (.noExchange exchange), b)
  | some kind =>
    let targets := b.targets exchange kind key
    (.ok targets.length, { b with
      queues := targets.foldl (fun qs q => qs.update q (· ++ [⟨key, body⟩])) b.queues })

/-- Publishes a message that has to reach a queue. -/
def publish (exchange key : String) (body : ByteArray) (b : Broker) : Outcome Unit × Broker :=
  b.whenConnected <|
    match b.publishFaults with
    | fault :: rest => (.error fault, { b with publishFaults := rest })
    | [] =>
      match b.route exchange key body with
      | (.error e, b) => (.error e, b)
      | (.ok 0, b) => (.error (.unroutable exchange key), b)
      | (.ok _, b) => (.ok (), b.wake)

/-- Puts a message back to the front of its queue. -/
def putBack (o : Outstanding) (queues : Table (List Message)) : Table (List Message) :=
  queues.update o.queue (o.message :: ·)

/-- Drops the connection. Outstanding deliveries go back, the newest first, so
that each queue has its messages in their old order. -/
def disconnect (b : Broker) : Broker :=
  { b with
    connected := false
    queues := b.outstanding.foldr putBack b.queues
    outstanding := [] }.wake

def close (b : Broker) : Outcome Unit × Broker := (.ok (), b.disconnect)

/-- Routes a message as a producer from outside does, connected or not. -/
def inject (exchange key : String) (body : ByteArray) (b : Broker) : Outcome Nat × Broker :=
  match b.route exchange key body with
  | (.error e, b) => (.error e, b)
  | (.ok n, b) => (.ok n, b.wake)

/-- Lets a publish to come fail. -/
def failPublish (fault : BrokerFailure) (b : Broker) : Broker :=
  { b with publishFaults := b.publishFaults ++ [fault] }

/-- Lets a look for a delivery to come fail. -/
def failDelivery (fault : BrokerFailure) (b : Broker) : Broker :=
  { b with deliveryFaults := b.deliveryFaults ++ [fault] }.wake

/-- Takes all ready messages of a queue. -/
def takeMessages (queue : String) (b : Broker) : List ByteArray × Broker :=
  (((b.queues.get? queue).getD []).map (·.body),
    { b with queues := b.queues.update queue fun _ => [] })

end Broker

end AlertRelay
