import AlertRelay.Proofs.Outcomes

/-! Operations that fail. The broker refuses an operation for one of a few reasons
and stays as it is, or a failure that was ordered is met and used up. -/

namespace AlertRelay

/-- The failure that an operation answers. -/
def BrokerReply.failure? : BrokerReply → Option BrokerFailure
  | .done (.error f) | .looked (.error f) | .routed (.error f) => some f
  | _ => none

/-- What a client asks of a broker that it is connected to. -/
def BrokerOperation.NeedsConnection : BrokerOperation → Prop
  | .declareExchange _ _ | .declareQueue _ | .bindQueue _ _ _ | .setPrefetch _ | .confirmDelivery
  | .nextDelivery _ | .ack _ | .publish _ _ _ => True
  | _ => False

namespace BrokerReply

variable {f : BrokerFailure}

theorem failure?_done {outcome : Outcome Unit} : (done outcome).failure? = some f ↔ outcome = .error f := by
  cases outcome <;> simp [failure?]

theorem failure?_looked {outcome : Outcome (Option Delivery)} :
    (looked outcome).failure? = some f ↔ outcome = .error f := by
  cases outcome <;> simp [failure?]

theorem failure?_routed {outcome : Outcome Nat} : (routed outcome).failure? = some f ↔ outcome = .error f := by
  cases outcome <;> simp [failure?]

end BrokerReply

namespace Broker

/-- Why the broker itself refuses an operation. A failure that was ordered comes before
all reasons but that of the connection. -/
inductive Refuses (b : Broker) : BrokerOperation → BrokerFailure → Prop
  | notConnected {op : BrokerOperation} (hop : op.NeedsConnection) (hc : b.connected = false) :
      Refuses b op .notConnected
  | otherKind {name : String} {kind k : ExchangeKind} (hc : b.connected = true)
      (he : b.exchanges.get? name = some k) (hk : k ≠ kind) :
      Refuses b (.declareExchange name kind) (.kindConflict name)
  | noQueueToBind {queue : String} (exchange key : String) (hc : b.connected = true)
      (hq : b.queues.has queue = false) : Refuses b (.bindQueue queue exchange key) (.noQueue queue)
  | noExchangeToBind {queue exchange : String} (key : String) (hc : b.connected = true)
      (hq : b.queues.has queue = true) (he : b.exchanges.has exchange = false) :
      Refuses b (.bindQueue queue exchange key) (.noExchange exchange)
  | unusableKey {queue exchange key text : String} (hc : b.connected = true) (hq : b.queues.has queue = true)
      (he : b.exchanges.has exchange = true) (hn : ⟨queue, exchange, key⟩ ∉ b.bindings)
      (hk : b.keyFault key = some text) : Refuses b (.bindQueue queue exchange key) (.unusableKey text)
  | noQueueToLook {queue : String} (hc : b.connected = true) (hf : b.deliveryFaults = [])
      (hq : b.queues.get? queue = none) : Refuses b (.nextDelivery queue) (.noQueue queue)
  | unknownTag {tag : Nat} (hc : b.connected = true) (ht : ∀ o ∈ b.outstanding, o.tag ≠ tag) :
      Refuses b (.ack tag) (.unknownTag tag)
  | noExchangeToPublish {exchange : String} (key : String) (body : ByteArray) (hc : b.connected = true)
      (hf : b.publishFaults = []) (he : b.exchanges.get? exchange = none) :
      Refuses b (.publish exchange key body) (.noExchange exchange)
  | unroutable {exchange key : String} {kind : ExchangeKind} (body : ByteArray) (hc : b.connected = true)
      (hf : b.publishFaults = []) (he : b.exchanges.get? exchange = some kind)
      (hr : b.reached exchange key = []) : Refuses b (.publish exchange key body) (.unroutable exchange key)
  | noExchangeToInject {exchange : String} (key : String) (body : ByteArray)
      (he : b.exchanges.get? exchange = none) : Refuses b (.inject exchange key body) (.noExchange exchange)

/-- The next failure that was ordered for an operation, and the broker without it. -/
inductive Injects (b : Broker) : BrokerOperation → BrokerFailure → Broker → Prop
  | look {f : BrokerFailure} {rest : List BrokerFailure} (queue : String) (hc : b.connected = true)
      (hf : b.deliveryFaults = f :: rest) : Injects b (.nextDelivery queue) f { b with deliveryFaults := rest }
  | publish {f : BrokerFailure} {rest : List BrokerFailure} (exchange key : String) (body : ByteArray)
      (hc : b.connected = true) (hf : b.publishFaults = f :: rest) :
      Injects b (.publish exchange key body) f { b with publishFaults := rest }

variable {b c : Broker} {op : BrokerOperation} {f : BrokerFailure}

theorem whenConnected_error {α : Type} {run : Outcome α × Broker} (op : BrokerOperation)
    (hop : op.NeedsConnection) (h : b.whenConnected run = (.error f, c)) :
    b.Refuses op f ∧ c = b ∨ b.connected = true ∧ run = (.error f, c) := by
  unfold whenConnected at h
  split at h
  · exact .inr ⟨‹_›, h⟩
  · rename_i hc
    cases h
    exact .inl ⟨.notConnected hop (Bool.eq_false_iff.mpr hc), rfl⟩

theorem declareExchange_error {name : String} {kind : ExchangeKind}
    (h : b.declareExchange name kind = (.error f, c)) : b.Refuses (.declareExchange name kind) f ∧ c = b := by
  rcases whenConnected_error (.declareExchange name kind) trivial h with hr | ⟨hc, h⟩
  · exact hr
  · split at h
    · cases h
    · rename_i k he
      split at h
      · cases h
      · rename_i hk
        cases h
        exact ⟨.otherKind hc he hk, rfl⟩

theorem bindQueue_error {queue exchange key : String} (h : b.bindQueue queue exchange key = (.error f, c)) :
    b.Refuses (.bindQueue queue exchange key) f ∧ c = b := by
  rcases whenConnected_error (.bindQueue queue exchange key) trivial h with hr | ⟨hc, h⟩
  · exact hr
  · split at h
    · rename_i hq
      cases h
      exact ⟨.noQueueToBind exchange key hc (by simpa using hq), rfl⟩
    · rename_i hq
      have hq : b.queues.has queue = true := by simpa using hq
      split at h
      · rename_i he
        cases h
        exact ⟨.noExchangeToBind key hc hq (by simpa using he), rfl⟩
      · rename_i he
        dsimp only at h
        split at h
        · cases h
        · rename_i hn
          split at h <;> cases h
          exact ⟨.unusableKey hc hq (by simpa using he) hn ‹_›, rfl⟩

theorem nextDelivery_error {queue : String} (h : b.nextDelivery queue = (.error f, c)) :
    b.Refuses (.nextDelivery queue) f ∧ c = b ∨ b.Injects (.nextDelivery queue) f c := by
  rcases whenConnected_error (.nextDelivery queue) trivial h with hr | ⟨hc, h⟩
  · exact .inl hr
  · split at h
    · rename_i hf
      cases h
      exact .inr (.look queue hc hf)
    · rename_i hf
      split at h
      · rename_i hq
        cases h
        exact .inl ⟨.noQueueToLook hc hf hq, rfl⟩
      · cases h
      · split at h <;> cases h

theorem ack_error {tag : Nat} (h : b.ack tag = (.error f, c)) : b.Refuses (.ack tag) f ∧ c = b := by
  rcases whenConnected_error (.ack tag) trivial h with hr | ⟨hc, h⟩
  · exact hr
  · split at h <;> cases h
    rename_i ht
    exact ⟨.unknownTag hc (by simpa using ht), rfl⟩

theorem publish_error {exchange key : String} {body : ByteArray}
    (h : b.publish exchange key body = (.error f, c)) :
    b.Refuses (.publish exchange key body) f ∧ c = b ∨ b.Injects (.publish exchange key body) f c := by
  rcases whenConnected_error (.publish exchange key body) trivial h with hr | ⟨hc, hrun⟩
  · exact .inl hr
  · split at hrun
    · rename_i hf
      cases hrun
      exact .inr (.publish exchange key body hc hf)
    · rename_i hf
      cases he : b.exchanges.get? exchange with
      | none =>
        simp only [route, he] at hrun
        cases hrun
        exact .inl ⟨.noExchangeToPublish key body hc hf he, rfl⟩
      | some kind =>
        rw [publish_routed hc hf he, route_ok he] at h
        split at h
        · -- a message that reaches no queue has changed none
          rename_i hnone
          have hr := List.eq_nil_of_length_eq_zero hnone
          rw [hr] at h
          cases h
          exact .inl ⟨.unroutable body hc hf he hr, rfl⟩
        · cases h

theorem inject_error {exchange key : String} {body : ByteArray}
    (h : b.inject exchange key body = (.error f, c)) : b.Refuses (.inject exchange key body) f ∧ c = b := by
  cases he : b.exchanges.get? exchange with
  | none =>
    simp only [inject, route, he] at h
    cases h
    exact ⟨.noExchangeToInject key body he, rfl⟩
  | some kind =>
    simp only [inject, route, he] at h
    cases h

/-- An operation that needs nothing but a connection. -/
theorem whenConnected_done_error {after : Broker} (op : BrokerOperation) (hop : op.NeedsConnection)
    (h : (b.whenConnected (.ok (), after)).1 = (.error f : Outcome Unit)) :
    b.Refuses op f ∧ (b.whenConnected ((.ok (), after) : Outcome Unit × Broker)).2 = b := by
  rcases whenConnected_error op hop (Prod.ext h rfl) with hr | ⟨_, hrun⟩
  · exact hr
  · cases hrun

theorem perform_error (h : (b.perform op).1.failure? = some f) :
    b.Refuses op f ∧ (b.perform op).2 = b ∨ b.Injects op f (b.perform op).2 := by
  cases op with
  | declareExchange name kind => exact .inl (declareExchange_error (Prod.ext (BrokerReply.failure?_done.mp h) rfl))
  | declareQueue name =>
    exact .inl (whenConnected_done_error (.declareQueue name) trivial (BrokerReply.failure?_done.mp h))
  | bindQueue queue exchange key => exact .inl (bindQueue_error (Prod.ext (BrokerReply.failure?_done.mp h) rfl))
  | setPrefetch count =>
    exact .inl (whenConnected_done_error (.setPrefetch count) trivial (BrokerReply.failure?_done.mp h))
  | confirmDelivery =>
    exact .inl (whenConnected_done_error .confirmDelivery trivial (BrokerReply.failure?_done.mp h))
  | nextDelivery queue => exact nextDelivery_error (Prod.ext (BrokerReply.failure?_looked.mp h) rfl)
  | ack tag => exact .inl (ack_error (Prod.ext (BrokerReply.failure?_done.mp h) rfl))
  | publish exchange key body => exact publish_error (Prod.ext (BrokerReply.failure?_done.mp h) rfl)
  | inject exchange key body => exact .inl (inject_error (Prod.ext (BrokerReply.failure?_routed.mp h) rfl))
  | _ => cases h

theorem perform_disconnected (hop : op.NeedsConnection) (hc : b.connected = false) :
    (b.perform op).1.failure? = some .notConnected ∧ (b.perform op).2 = b := by
  cases op with
  | connect | close | inject | failPublish | failDelivery | disconnect | takeMessages => exact hop.elim
  | _ =>
    simp [perform, declareExchange, declareQueue, bindQueue, setPrefetch, confirmDelivery, nextDelivery, ack,
      publish, whenConnected, hc, BrokerReply.failure?]

theorem Refuses.fails (h : b.Refuses op f) : (b.perform op).1.failure? = some f ∧ (b.perform op).2 = b := by
  cases h with
  | notConnected hop hc => exact perform_disconnected hop hc
  | otherKind hc he hk => simp [perform, declareExchange, whenConnected, hc, he, hk, BrokerReply.failure?]
  | noQueueToBind exchange key hc hq => simp [perform, bindQueue, whenConnected, hc, hq, BrokerReply.failure?]
  | noExchangeToBind key hc hq he => simp [perform, bindQueue, whenConnected, hc, hq, he, BrokerReply.failure?]
  | unusableKey hc hq he hn hk =>
    simp [perform, bindQueue, whenConnected, hc, hq, he, hn, hk, BrokerReply.failure?]
  | noQueueToLook hc hf hq => simp [perform, nextDelivery, whenConnected, hc, hf, hq, BrokerReply.failure?]
  | @unknownTag tag hc ht =>
    have hnone : b.outstanding.any (·.tag = tag) = false := by simpa using ht
    simp [perform, ack, whenConnected, hc, hnone, BrokerReply.failure?]
  | noExchangeToPublish key body hc hf he =>
    simp [perform, publish, route, whenConnected, hc, hf, he, BrokerReply.failure?]
  | unroutable body hc hf he hr =>
    simp [perform, publish_routed hc hf he, route_ok he, hr, BrokerReply.failure?]
  | noExchangeToInject key body he => simp [perform, inject, route, he, BrokerReply.failure?]

theorem Injects.fails (h : b.Injects op f c) : (b.perform op).1.failure? = some f ∧ (b.perform op).2 = c := by
  cases h with
  | look queue hc hf => simp [perform, nextDelivery, whenConnected, hc, hf, BrokerReply.failure?]
  | publish exchange key body hc hf => simp [perform, Broker.publish, whenConnected, hc, hf, BrokerReply.failure?]

/-- A look that finds nothing to hand out. -/
theorem nextDelivery_none {queue : String} (h : (b.nextDelivery queue).1 = .ok none) :
    (b.nextDelivery queue).2 = b := by
  rcases b.nextDelivery_cases queue with ⟨g, faults, hn⟩ | hn | ⟨m, rest, _, _, hn⟩ <;> rw [hn] at h ⊢ <;> cases h

theorem poll_waits {w w' : Waiter} (h : w.poll b = (.inr w', c)) : c = b := by
  unfold Waiter.poll at h
  split at h
  · cases h
    rfl
  · unfold await at h
    split at h <;> cases h
    rename_i hn
    have hsame := nextDelivery_none (congrArg Prod.fst hn)
    rwa [hn] at hsame

/-- Whatever state a broker is in. An operation fails if and only if the broker refuses
it, and then the broker stays as it is, or a failure that was ordered is met, and then
this failure is gone from the front of those to come. Without a connection all
operations but those that connect and close fail so and use up no failure. A look for
a message that has to wait, at first or when it is woken, changes nothing. -/
theorem failure_leaves_broker (b : Broker) :
    (∀ op f, (b.perform op).1.failure? = some f ↔
      b.Refuses op f ∧ (b.perform op).2 = b ∨ b.Injects op f (b.perform op).2) ∧
    (b.connected = false → ∀ op, op.NeedsConnection → ∃ f, (b.perform op).1.failure? = some f ∧
      f.kind = .connection ∧ (b.perform op).2 = b) ∧
    (∀ queue, (b.nextDelivery queue).1 = .ok none → (b.nextDelivery queue).2 = b) ∧
    ∀ (w w' : Waiter) c, w.poll b = (.inr w', c) → c = b := by
  refine ⟨fun op f => ⟨perform_error, ?_⟩, fun hc op hop => ?_, fun queue => nextDelivery_none,
    fun w w' c => poll_waits⟩
  · rintro (⟨hr, -⟩ | hi)
    · exact hr.fails.1
    · exact hi.fails.1
  · obtain ⟨hf, hb⟩ := perform_disconnected hop hc
    exact ⟨_, hf, rfl, hb⟩

/-- A publish with a failure ordered for it: without a connection the failure is kept,
with one it is met. A look into an empty queue waits. -/
theorem failure_leaves_broker_each :
    let fault : BrokerFailure := .injected .channel "busy"
    let away : Broker := { queues := [("q", [])], publishFaults := [fault] }
    let here : Broker := { away with connected := true }
    let op : BrokerOperation := .publish "alert" "key" ⟨#[]⟩
    away.connected = false ∧ op.NeedsConnection ∧
    (∃ f, (away.perform op).1.failure? = some f ∧ f.kind = .connection ∧ (away.perform op).2 = away) ∧
    (here.perform op).1.failure? = some fault ∧ here.Injects op fault (here.perform op).2 ∧
    (here.nextDelivery "q").1 = .ok none ∧ (here.nextDelivery "q").2 = here ∧
    (∃ w' c, (Waiter.mk "q" 1).poll here = (.inr w', c) ∧ c = here) := by
  intro fault away here op
  have hinjects : here.Injects op fault (here.perform op).2 := .publish "alert" "key" ⟨#[]⟩ rfl rfl
  have hfails := ((failure_leaves_broker here).1 op fault).mpr (.inr hinjects)
  have hlooks := (failure_leaves_broker here).2.2.1 "q" rfl
  exact ⟨rfl, trivial, (failure_leaves_broker away).2.1 rfl op trivial, hfails, hinjects, rfl, hlooks, _, _, rfl,
    (failure_leaves_broker here).2.2.2 ⟨"q", 1⟩ _ _ rfl⟩

end Broker

end AlertRelay
