import AlertRelay.Alert.Wire
import AlertRelay.Payload.GitHub
import AlertRelay.Relay.Link
import AlertRelay.Relay.Outbox
import AlertRelay.Relay.Stats

/-! Taking in one message: it is classified and acknowledged, its alerts are put
into the outbox, and the outbox is drained. Nothing is put in if the
acknowledgement fails, so a message that comes again yields its alerts once. An
alert leaves the outbox when its publish is confirmed, and one that is refused
blocks those behind it. -/

namespace AlertRelay

inductive RelayFailure
  | broker (failure : BrokerFailure)
  | encoding (text : String)
deriving DecidableEq, Repr

namespace RelayFailure

/-- The class of the broker's failure. -/
def kind? : RelayFailure → Option FailureClass
  | broker f => some f.kind
  | encoding _ => none

def message : RelayFailure → String
  | broker f => f.message
  | encoding text => "alert serialization error: " ++ text

/-- The failure behind this one. -/
def source? : RelayFailure → Option BrokerFailure
  | broker f => some f
  | encoding _ => none

end RelayFailure

/-- What is left to publish, with the counters and the broker. -/
structure Drained (σ : Type) where
  outcome : Except RelayFailure Unit
  entries : List Entry
  stats : Stats
  broker : σ

/-- Publishes entries in order until one is not confirmed. -/
def drainEntries {σ : Type} (link : Link σ) (stats : Stats) (broker : σ) :
    List Entry → Drained σ
  | [] => ⟨.ok (), [], stats, broker⟩
  | e :: rest =>
    match link.publish e.exchange e.key e.alert.wire.toUTF8 broker with
    | (.ok (), broker) => drainEntries link stats.publish broker rest
    | (.error f, broker) =>
      if f.kind = .notDelivered then ⟨.ok (), e :: rest, stats.refuse, broker⟩
      else ⟨.error (.broker f), e :: rest, stats, broker⟩

/-- Where the alerts of a rule go. -/
structure Intake where
  rule : Rule
  exchange : String
  key : String

/-- The alerts that wait and the counters. -/
structure Backlog where
  outbox : Outbox
  stats : Stats := {}

namespace Backlog

/-- Puts an alert in and counts it, and the one it drives out. -/
def put (b : Backlog) (e : Entry) : Backlog :=
  match b.outbox.put e with
  | (none, o) => ⟨o, b.stats.buffer⟩
  | (some _, o) => ⟨o, b.stats.drop.buffer⟩

/-- Drains the outbox. -/
def drain {σ : Type} (link : Link σ) (b : Backlog) (broker : σ) :
    Except RelayFailure Unit × Backlog × σ :=
  let d := drainEntries link b.stats broker b.outbox.entries
  (d.outcome, ⟨{ b.outbox with entries := d.entries }, d.stats⟩, d.broker)

def report (b : Backlog) : StatsReport := ⟨b.stats, b.outbox.length⟩

end Backlog

def Intake.entry (i : Intake) (a : Alert) : Entry := ⟨i.exchange, i.key, a⟩

/-- Takes in a delivery. -/
def Intake.take {σ : Type} (i : Intake) (link : Link σ) (d : Delivery) (b : Backlog) (broker : σ) :
    Except RelayFailure Unit × Backlog × σ :=
  let alerts? := (i.rule.classify d.body).toOption
  let stats := if alerts?.isSome then b.stats.receive else b.stats.receive.reject
  match link.ack d.tag broker with
  | (.error f, broker) => (.error (.broker f), { b with stats := stats }, broker)
  | (.ok (), broker) =>
    let filled := ((alerts?.getD []).map i.entry).foldl Backlog.put ⟨b.outbox, stats.acknowledge⟩
    filled.drain link broker

end AlertRelay
