import AlertRelay.Proofs.Failures

/-! What the operations of the broker in memory do to it, with a constructor for
each thing that one can do, and what they keep. A relay that uses the broker keeps
what its operations keep. -/

namespace AlertRelay

variable {σ : Type}

/-- What a relay asks of its broker besides messages and acknowledgements. -/
def BrokerOperation.Routine : BrokerOperation → Prop
  | .nextDelivery _ | .ack _ | .inject _ _ _ | .failPublish _ | .failDelivery _ | .disconnect
  | .takeMessages _ => False
  | _ => True

/-- How many looks for a message an operation lets fail. -/
def BrokerOperation.faults : BrokerOperation → Nat
  | .failDelivery _ => 1
  | _ => 0

theorem BrokerOperation.Routine.faults {op : BrokerOperation} (h : op.Routine) : op.faults = 0 := by
  cases op with
  | failDelivery f => exact h.elim
  | _ => rfl

namespace Broker

/-- An operation that fails, or has nothing to do, may leave the broker as it is. -/
inductive Effect (b : Broker) : BrokerOperation → Broker → Prop
  | still (op : BrokerOperation) : Effect b op b
  | connected : Effect b .connect { b with connected := true }
  | exchange (name : String) (kind : ExchangeKind) :
      Effect b (.declareExchange name kind) { b with exchanges := b.exchanges.insertNew name kind }
  | queue (name : String) : Effect b (.declareQueue name) { b with queues := b.queues.insertNew name [] }
  | bound (new : Binding) :
      Effect b (.bindQueue new.queue new.exchange new.key) { b with bindings := b.bindings ++ [new] }
  | prefetch (count : Nat) : Effect b (.setPrefetch count) { b with prefetch := some count }
  | confirming : Effect b .confirmDelivery { b with confirms := true }
  | lookFailed {f : BrokerFailure} {rest : List BrokerFailure} (queue : String)
      (h : b.deliveryFaults = f :: rest) : Effect b (.nextDelivery queue) { b with deliveryFaults := rest }
  | handedOut {queue : String} {m : Message} {rest : List Message}
      (h : b.queues.get? queue = some (m :: rest)) : Effect b (.nextDelivery queue) (b.handOut queue m rest)
  | acknowledged (tag : Nat) : Effect b (.ack tag) ({ b with
      outstanding := b.outstanding.filter (·.tag ≠ tag)
      acked := b.acked + 1 } : Broker).wake
  | publishFailed {f : BrokerFailure} {rest : List BrokerFailure} (exchange key : String) (body : ByteArray)
      (h : b.publishFaults = f :: rest) :
      Effect b (.publish exchange key body) { b with publishFaults := rest }
  | routed {op : BrokerOperation} (queues : List String) (hn : queues.Nodup) (m : Message)
      (h : op = .publish exchange m.key m.body ∨ op = .inject exchange m.key m.body) :
      Effect b op ({ b with queues := queues.foldl (fun qs q => qs.update q (· ++ [m])) b.queues } : Broker).wake
  | dropped {op : BrokerOperation} (h : op = .close ∨ op = .disconnect) : Effect b op b.disconnect
  | publishToFail (f : BrokerFailure) : Effect b (.failPublish f) (b.failPublish f)
  | lookToFail (f : BrokerFailure) : Effect b (.failDelivery f) (b.failDelivery f)
  | taken (queue : String) :
      Effect b (.takeMessages queue) { b with queues := b.queues.update queue fun _ => [] }

theorem nextDelivery_effect (queue : String) (b : Broker) :
    b.Effect (.nextDelivery queue) (b.nextDelivery queue).2 := by
  unfold nextDelivery whenConnected
  split
  · split
    · exact .lookFailed queue ‹_›
    · split
      · exact .still _
      · exact .still _
      · split
        · exact .handedOut ‹_›
        · exact .still _
  · exact .still _

theorem route_effect (exchange : String) (m : Message) {op : BrokerOperation} (b : Broker)
    (h : op = .publish exchange m.key m.body ∨ op = .inject exchange m.key m.body) :
    b.Effect op (b.route exchange m.key m.body).2.wake := by
  rcases route_cases exchange m.key m.body b with ⟨_, hr⟩ | hr <;> rw [hr]
  · exact .routed [] List.nodup_nil m h
  · exact .routed _ (b.reached_nodup exchange m.key) m h

theorem publish_effect (exchange key : String) (body : ByteArray) (b : Broker) :
    b.Effect (.publish exchange key body) (b.publish exchange key body).2 := by
  have hrouted := b.route_effect exchange ⟨key, body⟩ (.inl rfl)
  unfold publish whenConnected
  split
  · split
    · exact .publishFailed exchange key body ‹_›
    · rcases b.route_cases exchange key body with ⟨_, hr⟩ | hr
      · rw [hr]
        exact .still _
      · cases ht : b.reached exchange key with
        | nil =>
          rw [hr, ht]
          exact .still _
        | cons q qs =>
          rw [hr, ht] at hrouted ⊢
          exact hrouted
  · exact .still _

theorem perform_effect (b : Broker) (op : BrokerOperation) : b.Effect op (b.perform op).2 := by
  cases op with
  | connect => exact .connected
  | declareExchange name kind =>
    rcases b.declareExchange_cases name kind with ⟨f, h⟩ | ⟨_, h⟩ | ⟨_, h⟩ <;> simp only [perform, Prod.map, h]
    · exact .still _
    · exact .still _
    · exact .exchange name kind
  | declareQueue name =>
    simp only [perform, declareQueue, whenConnected]
    split
    · exact .queue name
    · exact .still _
  | bindQueue queue exchange key =>
    rcases b.bindQueue_cases queue exchange key with ⟨r, h⟩ | ⟨_, _, _, h⟩ <;> simp only [perform, Prod.map, h]
    · exact .still _
    · exact .bound ⟨queue, exchange, key⟩
  | setPrefetch count =>
    simp only [perform, setPrefetch, whenConnected]
    split
    · exact .prefetch count
    · exact .still _
  | confirmDelivery =>
    simp only [perform, confirmDelivery, whenConnected]
    split
    · exact .confirming
    · exact .still _
  | nextDelivery queue => exact b.nextDelivery_effect queue
  | ack tag =>
    rcases b.ack_cases tag with ⟨f, h⟩ | ⟨_, _, h⟩ <;> simp only [perform, Prod.map, h]
    · exact .still _
    · exact .acknowledged tag
  | publish exchange key body => exact b.publish_effect exchange key body
  | close => exact .dropped (.inl rfl)
  | inject exchange key body =>
    rcases b.inject_cases exchange key body with ⟨f, h⟩ | h <;> simp only [perform, Prod.map, h]
    · exact .still _
    · exact b.route_effect exchange ⟨key, body⟩ (.inr rfl)
  | failPublish fault => exact .publishToFail fault
  | failDelivery fault => exact .lookToFail fault
  | disconnect => exact .dropped (.inr rfl)
  | takeMessages queue => exact .taken queue

theorem Effect.has_exchange {b c : Broker} {op : BrokerOperation} (h : b.Effect op c) {exchange : String}
    (hb : b.exchanges.has exchange = true) : c.exchanges.has exchange = true := by
  cases h with
  | exchange name kind => exact Table.has_insertNew_of_has name kind hb
  | _ => exact hb

theorem Effect.has_queue {b c : Broker} {op : BrokerOperation} (h : b.Effect op c) {queue : String}
    (hb : b.queues.has queue = true) : c.queues.has queue = true := by
  cases h with
  | queue name => exact Table.has_insertNew_of_has name [] hb
  | handedOut => rwa [handOut, Table.has_update]
  | routed => rwa [wake, Table.has_foldl_update]
  | dropped => rwa [disconnect, wake, has_putBack]
  | taken => rwa [Table.has_update]
  | _ => exact hb

/-- The broker has the exchange and the queue. -/
structure Hosts (b : Broker) (exchange queue : String) : Prop where
  exchange : b.exchanges.has exchange = true
  queue : b.queues.has queue = true

theorem Effect.hosts {b c : Broker} {op : BrokerOperation} (h : b.Effect op c) {exchange queue : String}
    (hb : b.Hosts exchange queue) : c.Hosts exchange queue :=
  ⟨h.has_exchange hb.exchange, h.has_queue hb.queue⟩

theorem Hosts.performAll {b : Broker} {exchange queue : String} (hb : b.Hosts exchange queue)
    (ops : List BrokerOperation) : (b.performAll ops).Hosts exchange queue := by
  induction ops generalizing b with
  | nil => exact hb
  | cons op ops ih => exact ih ((b.perform_effect op).hosts hb)

theorem Effect.faults_le {b c : Broker} {op : BrokerOperation} (h : b.Effect op c) :
    c.deliveryFaults.length ≤ b.deliveryFaults.length + op.faults := by
  cases h with
  | lookFailed queue hf =>
    rw [hf, List.length_cons]
    exact Nat.le_succ _
  | lookToFail f => exact Nat.le_of_eq List.length_append
  | _ => exact Nat.le_add_right _ _

theorem Effect.acked {b c : Broker} {op : BrokerOperation} (h : b.Effect op c) (hop : op.Routine) :
    c.acked = b.acked := by
  cases h with
  | acknowledged => exact hop.elim
  | _ => rfl

theorem Effect.outstanding {b c : Broker} {op : BrokerOperation} (h : b.Effect op c)
    (hop : ∀ queue, op ≠ .nextDelivery queue) (hb : b.outstanding = []) : c.outstanding = [] := by
  cases h with
  | handedOut => exact absurd rfl (hop _)
  | acknowledged tag => simp only [wake, hb, List.filter_nil]
  | dropped => rfl
  | _ => exact hb

/-- No queue gets a message without a wake-up. -/
theorem Effect.wakes {b c : Broker} {op : BrokerOperation} (h : b.Effect op c) :
    b.wakeUps < c.wakeUps ∨
    b.wakeUps = c.wakeUps ∧ ∀ queue, b.messages queue = [] → c.messages queue = [] := by
  cases h with
  | acknowledged => exact .inl (Nat.lt_succ_self _)
  | routed => exact .inl (Nat.lt_succ_self _)
  | dropped => exact .inl (Nat.lt_succ_self _)
  | lookToFail => exact .inl (Nat.lt_succ_self _)
  | queue name =>
    refine .inr ⟨rfl, fun q hq => ?_⟩
    exact (Table.getD_insertNew b.queues name q []).trans hq
  | handedOut hg =>
    refine .inr ⟨rfl, fun q hq => ?_⟩
    rename_i queue m rest
    have hne : q ≠ queue := by
      rintro rfl
      rw [messages_of_get? hg] at hq
      cases hq
    rw [messages, handOut, Table.get?_update, if_neg hne]
    exact hq
  | taken queue =>
    refine .inr ⟨rfl, fun q hq => ?_⟩
    rw [messages, Table.get?_update]
    split
    · cases b.queues.get? q <;> rfl
    · exact hq
  | _ => exact .inr ⟨rfl, fun _ hq => hq⟩

theorem link_keeps {P : Broker → Prop} (hp : ∀ {b : Broker} op, op.Routine → P b → P (b.perform op).2) :
    link.Keeps P where
  connect h := hp .connect trivial h
  declareExchange name kind h := hp (.declareExchange name kind) trivial h
  declareQueue name h := hp (.declareQueue name) trivial h
  bindQueue queue exchange key h := hp (.bindQueue queue exchange key) trivial h
  setPrefetch count h := hp (.setPrefetch count) trivial h
  confirmDelivery h := hp .confirmDelivery trivial h
  publish exchange key body h := hp (.publish exchange key body) trivial h
  close h := hp .close trivial h

theorem hosts_keeps (exchange queue : String) : link.Keeps fun b => b.Hosts exchange queue :=
  link_keeps fun op _ hb => (perform_effect _ op).hosts hb

theorem acked_keeps (n : Nat) : link.Keeps fun b => b.acked = n :=
  link_keeps fun op hop hb => ((perform_effect _ op).acked hop).trans hb

section Acknowledging

variable {b t : Broker} {queue : String} {d : Delivery}

/-- The delivery that was just handed out can be acknowledged. -/
theorem ack_delivery (h : b.nextDelivery queue = (.ok (some d), t)) :
    ∃ m rest, t = b.handOut queue m rest ∧ d.tag = b.lastTag + 1 ∧ t.ack d.tag = (.ok (), { t with
      outstanding := t.outstanding.filter (·.tag ≠ d.tag)
      acked := t.acked + 1 }.wake) := by
  rcases b.nextDelivery_cases queue with ⟨g, faults, hn⟩ | hn | ⟨m, rest, hc, _, hn⟩ <;> rw [hn] at h <;> cases h
  refine ⟨m, rest, rfl, rfl, ?_⟩
  have ho : ∃ o ∈ (b.handOut queue m rest).outstanding, o.tag = b.lastTag + 1 :=
    ⟨⟨b.lastTag + 1, queue, m⟩, by simp [handOut], rfl⟩
  rcases (b.handOut queue m rest).ack_cases (b.lastTag + 1) with ⟨g, ha⟩ | ⟨_, _, ha⟩
  · have hok := ack_ok (b := b.handOut queue m rest) hc ho
    rw [ha] at hok
    cases hok
  · exact ha

theorem ack_delivery_acked (h : b.nextDelivery queue = (.ok (some d), t)) :
    (t.ack d.tag).1 = .ok () ∧ (t.ack d.tag).2.acked = b.acked + 1 := by
  obtain ⟨m, rest, rfl, _, ha⟩ := ack_delivery h
  rw [ha]
  exact ⟨rfl, rfl⟩

theorem ack_delivery_settles (ho : b.outstanding = [])
    (h : b.nextDelivery queue = (.ok (some d), t)) : (t.ack d.tag).2.outstanding = [] := by
  obtain ⟨m, rest, rfl, htag, ha⟩ := ack_delivery h
  rw [ha]
  simp [wake, handOut, ho, htag]

end Acknowledging

end Broker

theorem Link.Keeps.confirms {l : Link σ} {P : σ → Prop} (h : l.Keeps P) {b b' : Backlog} {s t : σ}
    (hc : l.Confirms b s b' t) (hs : P s) : P t := by
  induction hc with
  | none => exact hs
  | @next _ e _ _ _ s t _ hp _ ih =>
    have ht : P (l.publish e.exchange e.key e.alert.wire.toUTF8 s).2 := h.publish _ _ _ hs
    rw [hp] at ht
    exact ih ht

theorem TaskState.Step.keeps {l : Link σ} {P : σ → Prop} (h : l.Keeps P)
    (hconsume : ∀ {s : RelayState σ}, P s.broker → P (s.consume l).2.broker) {now delay : Nat}
    {t t' : TaskState} {s s' : RelayState σ} (hstep : Step l now delay t s t' s') (hs : P s.broker) :
    P s'.broker := by
  have hbegin : P (s.begin l).2.broker := by
    obtain ⟨phase, hb⟩ := s.begin_eq l
    rw [hb]
    exact h.declare s.pipeline hs
  have hafter := hconsume hs
  cases hstep with
  | begun hb => rwa [hb] at hbegin
  | notBegun hb => rwa [hb] at hbegin
  | stopped => exact h.terminate s.pipeline hs
  | consumed _ _ hc => rwa [hc] at hafter
  | waited _ _ hc => rwa [hc] at hafter
  | failed _ _ hc => rwa [hc] at hafter
  | _ => exact hs

theorem RelayState.consume_keeps {l : Link σ} {P : σ → Prop} (h : l.Keeps P)
    (hlook : ∀ {s} queue, P s → P (l.nextDelivery queue s).2) (hack : ∀ {s} tag, P s → P (l.ack tag s).2)
    {s : RelayState σ} (hs : P s.broker) : P (s.consume l).2.broker := by
  have hlooked := hlook s.pipeline.queue hs
  rcases s.consume_cases l with ⟨_, _, _, _, hc⟩ | ⟨d, _, _, _, _, hc⟩ <;> rw [hc]
  · exact hlooked
  · exact h.take s.pipeline.intake d s.pipeline.backlog (hack d.tag hlooked)

theorem Supervised.Stays.of_keeps {ω : Type} {l : Link σ} {act : ω → σ → σ} {P : σ → Prop} (h : l.Keeps P)
    (hconsume : ∀ {s : RelayState σ}, P s.broker → P (s.consume l).2.broker) (hact : ∀ {s} o, P s → P (act o s))
    (delay : Nat) : Stays l act delay fun s => P s.state.broker where
  step hs hstep := hstep.keeps h hconsume hs
  mailbox _ hs := hs
  meanwhile o hs := hact o hs

end AlertRelay
