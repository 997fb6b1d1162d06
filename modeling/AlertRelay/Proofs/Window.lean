import AlertRelay.Proofs.Effects

/-! The window of a relay. A relay settles a delivery in the turn in which it gets
it, so it never waits for room, whatever limit its settings put on the deliveries
that may be outstanding. -/

namespace AlertRelay

namespace Broker

variable {b t : Broker} {queue : String}

theorem hasRoom_of_settled (h : b.outstanding = []) : b.hasRoom = true := by
  unfold hasRoom
  split
  · rfl
  · rfl
  · rename_i limit hne _
    have hpos : 0 < limit := Nat.pos_of_ne_zero fun he => hne (by rw [he])
    rw [h]
    exact decide_eq_true hpos

/-- With nothing outstanding the oldest message is handed out. -/
theorem nextDelivery_oldest (ho : b.outstanding = []) (hc : b.connected = true) (hf : b.deliveryFaults = [])
    {m : Message} {rest : List Message} (hm : b.messages queue = m :: rest) :
    b.nextDelivery queue = (.ok (some ⟨b.lastTag + 1, m.key, m.body⟩), b.handOut queue m rest) := by
  have hq : b.queues.get? queue = some (m :: rest) := by
    unfold messages at hm
    cases hg : b.queues.get? queue with
    | none => rw [hg] at hm; cases hm
    | some ms => rw [hg] at hm; exact congrArg some hm
  simp only [nextDelivery, whenConnected, hc, hf, hq, hasRoom_of_settled ho, if_true]

theorem nextDelivery_waits (ho : b.outstanding = []) (h : b.nextDelivery queue = (.ok none, t)) :
    t = b ∧ b.messages queue = [] := by
  unfold nextDelivery whenConnected at h
  split at h
  · split at h
    · cases h
    · split at h
      · cases h
      · rename_i hg
        cases h
        exact ⟨rfl, messages_of_get? hg⟩
      · rw [hasRoom_of_settled ho] at h
        cases h
  · cases h

theorem settled_keeps : link.Keeps fun b => b.outstanding = [] :=
  link_keeps fun op hop hb => (perform_effect _ op).outstanding (fun queue he => by rw [he] at hop; exact hop) hb

end Broker

theorem RelayState.consume_settles {s : RelayState Broker} (hs : s.broker.outstanding = []) :
    (s.consume Broker.link).2.broker.outstanding = [] := by
  rcases s.consume_cases Broker.link with ⟨_, _, _, hno, hc⟩ | ⟨d, _, _, _, hd, hc⟩ <;> rw [hc]
  · change (s.broker.nextDelivery s.pipeline.queue).2.outstanding = []
    rcases s.broker.nextDelivery_cases s.pipeline.queue with ⟨f, faults, hn⟩ | hn | ⟨m, rest, _, _, hn⟩
    · rw [hn]
      exact hs
    · rw [hn]
      exact hs
    · exact absurd (congrArg Prod.fst hn) (hno _)
  · exact Broker.settled_keeps.take s.pipeline.intake d s.pipeline.backlog (Broker.ack_delivery_settles hs (Prod.ext hd rfl))

/-- A turn that gets a message acknowledges it. -/
theorem RelayState.consume_acknowledges {s : RelayState Broker} {d : Delivery}
    (hd : (s.broker.nextDelivery s.pipeline.queue).1 = .ok (some d)) :
    (s.consume Broker.link).2.broker.acked = s.broker.acked + 1 := by
  rcases s.consume_cases Broker.link with ⟨_, _, _, hno, hc⟩ | ⟨d', _, _, _, hd', hc⟩
  · exact absurd hd (hno d)
  · have hack := (Broker.ack_delivery_acked (Prod.ext hd' rfl)).2
    rw [hc]
    exact (Broker.acked_keeps _).take s.pipeline.intake d' s.pipeline.backlog hack

/-- Others who get no messages; they may use the broker as they like otherwise. -/
abbrev Bystander := {op : BrokerOperation // ∀ queue, op ≠ .nextDelivery queue}

namespace Supervised

def bystanderActs (o : Bystander) (b : Broker) : Broker := (b.perform o.1).2

/-- Nothing is outstanding, and a relay that waits has seen all messages of its queue. -/
structure Attentive (queue : String) (s : Supervised Broker) : Prop where
  settled : s.state.broker.outstanding = []
  names : s.state.pipeline.queue = queue
  waits : ∀ n, s.task = .running (.consuming (some n)) → n < s.state.broker.wakeUps ∨
    n = s.state.broker.wakeUps ∧ s.state.broker.messages queue = []

/-- What others do who get no messages does not distract it. -/
theorem attentive_stays_under {ω : Type} (op : ω → BrokerOperation) (hop : ∀ o queue, op o ≠ .nextDelivery queue)
    (delay : Nat) (queue : String) :
    Stays Broker.link (fun o b => (b.perform (op o)).2) delay (Attentive queue) where
  step {s t now} hs hstep := by
    have hsettled : t.state.broker.outstanding = [] :=
      hstep.keeps Broker.settled_keeps RelayState.consume_settles hs.settled
    have hkept := names_stay Broker.link (fun o b => (b.perform (op o)).2) s.state.pipeline.exchange queue
    have hnames := (Stays.of_relay hkept delay).step ⟨rfl, hs.names⟩ hstep
    refine ⟨hsettled, hnames.2, ?_⟩
    obtain ⟨task, state⟩ := s
    obtain ⟨task', state'⟩ := t
    rintro n rfl
    -- of all steps only a look that finds nothing lets the relay wait
    cases hstep with
    | waited _ _ hc =>
      obtain ⟨broker, hn, rfl, rfl⟩ := RelayState.consume_waits hc
      obtain ⟨rfl, hempty⟩ := Broker.nextDelivery_waits hs.settled hn
      have hq : state.pipeline.queue = queue := hs.names
      exact .inr ⟨rfl, by rw [← hq]; exact hempty⟩
  mailbox _ hs := ⟨hs.settled, hs.names, hs.waits⟩
  meanwhile {s} o hs := by
    have heffect := s.state.broker.perform_effect (op o)
    refine ⟨heffect.outstanding (hop o) hs.settled, hs.names, fun n hn => ?_⟩
    rcases heffect.wakes with hwoken | ⟨hsame, hempty⟩
    · rcases hs.waits n hn with hlt | ⟨rfl, _⟩
      · exact .inl (Nat.lt_trans hlt hwoken)
      · exact .inl hwoken
    · rcases hs.waits n hn with hlt | ⟨rfl, hmessages⟩
      · exact .inl (Nat.lt_of_lt_of_eq hlt hsame)
      · exact .inr ⟨hsame, hempty queue hmessages⟩

theorem attentive_stays (delay : Nat) (queue : String) :
    Stays Broker.link bystanderActs delay (Attentive queue) :=
  attentive_stays_under Subtype.val (fun o => o.2) delay queue

/-- Whatever the settings, and whatever others do who get no messages: between the
steps of the relay nothing is outstanding. So as long as the broker is connected and
no failure waits to be met, the oldest message of the queue is there to be had, and a
relay that is in its loop and has no command gets it and acknowledges it at its next
step. -/
theorem window_stays_open (keyFault : String → Option String) (delay : Nat) (settings : Settings) (rule : Rule)
    (schedule : List (Occurrence Bystander)) :
    let x := (start settings rule ({ keyFault := keyFault } : Broker)).run Broker.link bystanderActs delay schedule
    let b := x.state.broker
    b.outstanding = [] ∧
    ∀ m rest, b.connected = true → b.deliveryFaults = [] → b.messages settings.inboundQueue = m :: rest →
      b.nextDelivery settings.inboundQueue =
        (.ok (some ⟨b.lastTag + 1, m.key, m.body⟩), b.handOut settings.inboundQueue m rest) ∧
      (x.task.InLoop → x.state.mailbox.isQuiet = true → ∀ now,
        (x.next Broker.link bystanderActs delay (.work now)).state.broker.acked = b.acked + 1) := by
  intro x b
  have hstart : Attentive settings.inboundQueue (start settings rule ({ keyFault := keyFault } : Broker)) :=
    ⟨rfl, rfl, fun n hn => nomatch hn⟩
  have hx : x.Attentive settings.inboundQueue := (attentive_stays delay settings.inboundQueue).run hstart schedule
  refine ⟨hx.settled, fun m rest hc hf hm => ?_⟩
  have hnext := Broker.nextDelivery_oldest hx.settled hc hf hm
  refine ⟨hnext, ?_⟩
  rintro ⟨seen, htask⟩ hquiet now
  have hseen : seen ≠ some (Broker.link.wakeUps x.state.broker) := by
    rintro rfl
    rcases hx.waits _ htask with hlt | ⟨_, hempty⟩
    · exact Nat.lt_irrefl _ hlt
    · have hnone : b.messages settings.inboundQueue = [] := hempty
      rw [hm] at hnone
      cases hnone
  have hdelivered : (x.state.broker.nextDelivery x.state.pipeline.queue).1 =
      .ok (some ⟨b.lastTag + 1, m.key, m.body⟩) := by
    rw [hx.names]
    exact congrArg Prod.fst hnext
  rw [next_consume htask hquiet hseen now]
  exact RelayState.consume_acknowledges hdelivered

/-- A relay with a window of one gets two messages, though it rejects them both. -/
example :
    let junk : Bystander := ⟨.inject "alert" "alerter.github" ⟨#[]⟩, fun _ h => nomatch h⟩
    let schedule : List (Occurrence Bystander) := [.work 0, .meanwhile junk, .meanwhile junk, .work 0, .work 0]
    let settings : Settings := { bufferCapacity := 1 }
    let x := (start settings .gitHub {}).run Broker.link bystanderActs 20 schedule
    settings.prefetch = 1 ∧ x.state.broker.acked = 2 := by
  decide +kernel

end Supervised

end AlertRelay
