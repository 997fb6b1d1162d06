import AlertRelay.Proofs.Account
import AlertRelay.Proofs.Overflow
import AlertRelay.Proofs.Topology
import AlertRelay.Replay.Run

/-! The broker of a replay: a line is routed to the inbound queue alone, and its
alerts to the sink alone, and every operation of the relay succeeds. -/

namespace AlertRelay

namespace Settings

variable {s : Settings}

theorem keys_gitHub (h : s.source = "github") :
    s.inboundKey = "alerter.github" ∧ s.outboundKey = "alert_router.github" := by
  rw [inboundKey, outboundKey, h]
  exact ⟨rfl, rfl⟩

theorem sinkKey_accepts (h : s.source = "github") :
    topicAccepts sinkKey s.outboundKey = true ∧ topicAccepts sinkKey s.inboundKey = false := by
  rw [(keys_gitHub h).1, (keys_gitHub h).2]
  decide +kernel

theorem inboundKey_accepts (h : s.source = "github") :
    topicAccepts s.inboundKey s.inboundKey = true ∧ topicAccepts s.inboundKey s.outboundKey = false := by
  rw [(keys_gitHub h).1, (keys_gitHub h).2]
  decide +kernel

/-- What the relay makes of a line: an outbox that is too small loses the older
alerts of the line. -/
def relayed (s : Settings) (line : String) : List ByteArray :=
  (newest s.bufferCapacity (Rule.gitHub.alertsOf line.toUTF8)).map (·.wire.toUTF8)

/-- A line on its way to the relay. -/
def recorded (s : Settings) (line : String) : Message := ⟨s.inboundKey, line.toUTF8⟩

end Settings

/-- The broker of a replay, with what is in its two queues and what is outstanding. -/
structure Broker.Replays (b : Broker) (s : Settings) (sink waiting : List Message) (held : List Outstanding) :
    Prop where
  connected : b.connected = true
  exchange : b.exchanges.get? s.exchange = some .topic
  sink : b.queues.get? sinkQueue = some sink
  inbound : b.queues.get? s.inboundQueue = some waiting
  bindings : b.bindings = [⟨sinkQueue, s.exchange, sinkKey⟩, ⟨s.inboundQueue, s.exchange, s.inboundKey⟩]
  outstanding : b.outstanding = held
  publishFaults : b.publishFaults = []
  deliveryFaults : b.deliveryFaults = []

/-- An operation that succeeds, whatever is in the queues, and adds to the sink. -/
def Broker.Performs (op : Broker → Outcome Unit × Broker) (s : Settings) (held held' : List Outstanding)
    (more : List Message) : Prop :=
  ∀ {b : Broker} {sink waiting : List Message}, b.Replays s sink waiting held →
    ∃ b', op b = (.ok (), b') ∧ b'.Replays s (sink ++ more) waiting held'

namespace Broker.Replays

variable {b : Broker} {s : Settings} {sink waiting : List Message} {held : List Outstanding}

theorem reached_outbound (h : b.Replays s sink waiting held) (hs : s.source = "github") :
    b.reached s.exchange s.outboundKey = [sinkQueue] := by
  have hsink := (Settings.sinkKey_accepts hs).1
  have hinbound := (Settings.inboundKey_accepts hs).2
  simp [reached, h.exchange, targets, h.bindings, ExchangeKind.accepts, hsink, hinbound,
    List.eraseDups_cons]

theorem reached_inbound (h : b.Replays s sink waiting held) (hs : s.source = "github") :
    b.reached s.exchange s.inboundKey = [s.inboundQueue] := by
  have hsink := (Settings.sinkKey_accepts hs).2
  have hinbound := (Settings.inboundKey_accepts hs).1
  simp [reached, h.exchange, targets, h.bindings, ExchangeKind.accepts, hsink, hinbound,
    List.eraseDups_cons]

theorem route_eq (h : b.Replays s sink waiting held) {key queue : String} (hr : b.reached s.exchange key = [queue])
    (body : ByteArray) : b.route s.exchange key body =
      (.ok 1, { b with queues := b.queues.update queue (· ++ [⟨key, body⟩]) }) := by
  rcases route_cases s.exchange key body b with ⟨hnone, _⟩ | hroute
  · rw [h.exchange] at hnone
    cases hnone
  · rw [hroute, hr]
    rfl

theorem requeued (h : b.Replays s sink waiting held) {queues : Table (List Message)} {sink' waiting' : List Message}
    (hsink : queues.get? sinkQueue = some sink') (hinbound : queues.get? s.inboundQueue = some waiting') :
    ({ b with queues := queues } : Broker).Replays s sink' waiting' held :=
  ⟨h.connected, h.exchange, hsink, hinbound, h.bindings, h.outstanding, h.publishFaults, h.deliveryFaults⟩

theorem wake (h : b.Replays s sink waiting held) : b.wake.Replays s sink waiting held := { h with }

theorem ready_eq (h : b.Replays s sink waiting held) : b.ready s.inboundQueue = waiting.length := by
  rw [ready, h.inbound, Option.getD_some]

theorem close (h : b.Replays s sink waiting []) :
    ∃ b', b.close = (.ok (), b') ∧ b'.queues.get? sinkQueue = some sink := by
  refine ⟨_, rfl, ?_⟩
  rw [disconnect, h.outstanding]
  exact h.sink

section Queues

variable (hq : s.inboundQueue ≠ sinkQueue)
include hq

theorem inject (h : b.Replays s sink waiting held) (hs : s.source = "github") (line : String) :
    ∃ b', b.inject s.exchange s.inboundKey line.toUTF8 = (.ok 1, b') ∧
      b'.Replays s sink (waiting ++ [s.recorded line]) held ∧ b'.wakeUps = b.wakeUps + 1 := by
  have hroute := h.route_eq (h.reached_inbound hs) line.toUTF8
  have hinject : b.inject s.exchange s.inboundKey line.toUTF8 = (.ok 1, Broker.wake { b with
      queues := b.queues.update s.inboundQueue (· ++ [s.recorded line]) }) := by
    rw [Broker.inject, hroute]
    rfl
  refine ⟨_, hinject, (h.requeued ?_ ?_).wake, rfl⟩
  · simp [h.sink, hq.symm]
  · simp [h.inbound]

theorem takeMessages (h : b.Replays s sink waiting held) :
    ∃ b', b.takeMessages sinkQueue = (sink.map (·.body), b') ∧ b'.Replays s [] waiting held ∧
      b'.wakeUps = b.wakeUps := by
  have htake : b.takeMessages sinkQueue =
      (sink.map (·.body), { b with queues := b.queues.update sinkQueue fun _ => [] }) := by
    rw [Broker.takeMessages, h.sink, Option.getD_some]
  refine ⟨_, htake, h.requeued ?_ ?_, rfl⟩
  · simp [h.sink]
  · simp [h.inbound, hq]

omit hq in
theorem nextDelivery_none (h : b.Replays s sink [] held) : b.nextDelivery s.inboundQueue = (.ok none, b) := by
  simp [nextDelivery, whenConnected, h.connected, h.deliveryFaults, h.inbound]

/-- With nothing outstanding, a message that waits is handed out. -/
theorem nextDelivery_line {m : Message} (h : b.Replays s sink (m :: waiting) []) :
    ∃ tag b', b.nextDelivery s.inboundQueue = (.ok (some ⟨tag, m.key, m.body⟩), b') ∧
      b'.Replays s sink waiting [⟨tag, s.inboundQueue, m⟩] := by
  have hroom : b.hasRoom = true := by
    unfold hasRoom
    split <;> simp_all [h.outstanding]
    omega
  have hnext : b.nextDelivery s.inboundQueue =
      (.ok (some ⟨b.lastTag + 1, m.key, m.body⟩), b.handOut s.inboundQueue m waiting) := by
    simp [nextDelivery, whenConnected, h.connected, h.deliveryFaults, h.inbound, hroom]
  refine ⟨_, _, hnext, ⟨h.connected, h.exchange, ?_, ?_, h.bindings, ?_, h.publishFaults, h.deliveryFaults⟩⟩
  · simp [handOut, h.sink, hq.symm]
  · simp [handOut, h.inbound]
  · simp [handOut, h.outstanding]

theorem publish (hs : s.source = "github") (body : ByteArray) :
    Performs (Broker.publish s.exchange s.outboundKey body) s held held [⟨s.outboundKey, body⟩] := by
  intro b sink waiting h
  have hroute := h.route_eq (h.reached_outbound hs) body
  have hpublish : b.publish s.exchange s.outboundKey body = (.ok (), Broker.wake { b with
      queues := b.queues.update sinkQueue (· ++ [⟨s.outboundKey, body⟩]) }) := by
    have hfaults := h.publishFaults
    rw [Broker.publish, whenConnected, if_pos h.connected]
    split
    · rename_i hcons
      rw [hfaults] at hcons
      cases hcons
    · rw [hroute]
      rfl
  refine ⟨_, hpublish, (h.requeued ?_ ?_).wake⟩
  · simp [h.sink]
  · simp [h.inbound, hq]

end Queues

/-- The delivery that is outstanding can be acknowledged. -/
theorem ack (o : Outstanding) : Performs (Broker.ack o.tag) s [o] [] [] := by
  intro b sink waiting h
  have hack : b.ack o.tag = (.ok (), Broker.wake { b with outstanding := [], acked := b.acked + 1 }) := by
    rw [Broker.ack, whenConnected, if_pos h.connected, h.outstanding]
    simp
  refine ⟨_, hack, wake ⟨h.connected, h.exchange, ?_, h.inbound, h.bindings, rfl, h.publishFaults, h.deliveryFaults⟩⟩
  rw [List.append_nil]
  exact h.sink

section Declaring

/-- What is declared already stays as it is. -/
theorem unchanged {op : Broker → Outcome Unit × Broker}
    (hop : ∀ {b sink waiting}, b.Replays s sink waiting held → op b = (.ok (), b)) : Performs op s held held [] := by
  intro b sink waiting h
  refine ⟨b, hop h, ?_⟩
  rw [List.append_nil]
  exact h

theorem connect : Performs Broker.connect s held held [] := by
  intro b sink waiting h
  refine ⟨_, rfl, ?_⟩
  rw [List.append_nil]
  exact { h with connected := rfl }

theorem declareExchange : Performs (Broker.declareExchange s.exchange .topic) s held held [] :=
  unchanged fun h => by simp [Broker.declareExchange, whenConnected, h.connected, h.exchange]

theorem declareQueue : Performs (Broker.declareQueue s.inboundQueue) s held held [] :=
  unchanged fun h => by
    rw [Broker.declareQueue, whenConnected, if_pos h.connected,
      Table.insertNew_of_has (by simp [Table.has, h.inbound])]

theorem bindQueue : Performs (Broker.bindQueue s.inboundQueue s.exchange s.inboundKey) s held held [] :=
  unchanged fun {b _ _} h => by
    have hbound : ⟨s.inboundQueue, s.exchange, s.inboundKey⟩ ∈ b.bindings := by simp [h.bindings]
    rw [bindQueue_bound h.connected (by simp [Table.has, h.inbound]) (by simp [Table.has, h.exchange]) (.inl hbound),
      if_pos hbound]

theorem setPrefetch (count : Nat) : Performs (Broker.setPrefetch count) s held held [] := by
  intro b sink waiting h
  refine ⟨{ b with prefetch := some count }, if_pos h.connected, ?_⟩
  rw [List.append_nil]
  exact { h with }

theorem confirmDelivery : Performs Broker.confirmDelivery s held held [] := by
  intro b sink waiting h
  refine ⟨{ b with confirms := true }, if_pos h.connected, ?_⟩
  rw [List.append_nil]
  exact { h with }

end Declaring

end Broker.Replays

end AlertRelay
