import AlertRelay.Proofs.Effects
import AlertRelay.Proofs.Topology

/-! After a failure of the channel a relay goes round its loop at once, without a
delay and without a limit of its own. What bounds it is the broker: once the topology
exists, a look for a message fails only if somebody had it fail, and each such
failure is met once. -/

namespace AlertRelay

variable {σ : Type}

namespace Broker

variable {b t : Broker} {exchange queue : String} {f : BrokerFailure}

theorem declare_hosts {p : Pipeline} (h : p.declare link b = (.ok (), t)) : t.Hosts p.exchange p.queue := by
  rw [serving_of_declare h]
  exact ⟨Table.has_insertNew _ _ _, Table.has_insertNew _ _ _⟩

/-- A look for a message of a queue that exists fails without a connection, or as
somebody had it fail. -/
theorem nextDelivery_failed (hq : b.queues.has queue = true) (h : b.nextDelivery queue = (.error f, t)) :
    f = .notConnected ∧ b.connected = false ∨ b.deliveryFaults = f :: t.deliveryFaults := by
  rcases nextDelivery_error h with ⟨hr, -⟩ | hi
  · cases hr with
    | notConnected _ hc => exact .inl ⟨rfl, hc⟩
    | noQueueToLook _ _ hn => simp [Table.has, hn] at hq
  · cases hi with
    | look _ _ hf => exact .inr hf

theorem publish_failed (he : b.exchanges.has exchange = true) {key : String} {body : ByteArray}
    (h : b.publish exchange key body = (.error f, t)) :
    f = .notConnected ∧ b.connected = false ∨ b.publishFaults = f :: t.publishFaults ∨
      f = .unroutable exchange key := by
  rcases publish_error h with ⟨hr, -⟩ | hi
  · cases hr with
    | notConnected _ hc => exact .inl ⟨rfl, hc⟩
    | noExchangeToPublish _ _ _ _ hn => simp [Table.has, hn] at he
    | unroutable => exact .inr (.inr rfl)
  · cases hi with
    | publish _ _ _ _ hf => exact .inr (.inl hf)

/-- A failure is of the connection or was injected, and none is that the queue, the
exchange or the tag of the last delivery is not known. -/
structure Dependable (b : Broker) (exchange queue : String) : Prop where
  look : ∀ f, (b.nextDelivery queue).1 = .error f →
    f = .notConnected ∧ b.connected = false ∨ ∃ rest, b.deliveryFaults = f :: rest
  ack : ∀ d, (b.nextDelivery queue).1 = .ok (some d) → ((b.nextDelivery queue).2.ack d.tag).1 = .ok ()
  publish : ∀ key body f, (b.publish exchange key body).1 = .error f →
    f = .notConnected ∧ b.connected = false ∨ (∃ rest, b.publishFaults = f :: rest) ∨
      f = .unroutable exchange key

theorem Hosts.dependable (h : b.Hosts exchange queue) : b.Dependable exchange queue where
  look f hf := by
    rcases nextDelivery_failed h.queue (Prod.ext hf rfl) with hc | hfault
    · exact .inl hc
    · exact .inr ⟨_, hfault⟩
  ack d hd := (ack_delivery_acked (Prod.ext hd rfl)).1
  publish key body f hf := by
    rcases publish_failed h.exchange (Prod.ext hf rfl) with hc | hfault | hu
    · exact .inl hc
    · exact .inr (.inl ⟨_, hfault⟩)
    · exact .inr (.inr hu)

end Broker

namespace RelayState

variable {l : Link σ} {s s' : RelayState σ}

theorem Fails.broker_of_again {f : BrokerFailure} {b : Backlog} {t : σ} (hf : s.Fails l f b t)
    (h : s.consume l = (.again, s')) : f.kind ≠ .connection ∧ s'.broker = t := by
  rcases hf.consume_cases with ⟨hk, stats, hc⟩ | ⟨_, hc⟩ <;> rw [hc] at h <;> cases h
  refine ⟨fun he => ?_, rfl⟩
  rcases hk with hk | hk <;> rw [hk] at he <;> cases he

/-- A turn that goes round the loop and acknowledges nothing meets one failure that
somebody had injected. -/
theorem consume_faulty {s s' : RelayState Broker} (hq : s.broker.queues.has s.pipeline.queue = true)
    (h : s.consume Broker.link = (.again, s')) (ha : s'.broker.acked = s.broker.acked) :
    ∃ f, s.broker.deliveryFaults = f :: s'.broker.deliveryFaults := by
  -- a message that is taken in is acknowledged, and the publishes after it do not take that back
  have hsettled : ∀ {d t u b v}, Broker.link.nextDelivery s.pipeline.queue s.broker = (.ok (some d), t) →
      Broker.link.ack d.tag t = (.ok (), u) →
      Broker.link.Confirms (s.pipeline.backlog.accept s.pipeline.intake d) u b v →
      v.acked = s.broker.acked + 1 := by
    intro d t u b v hd hack hc
    have hu : (Broker.link.ack d.tag t).2.acked = s.broker.acked + 1 := (Broker.ack_delivery_acked hd).2
    rw [hack] at hu
    exact (Broker.acked_keeps _).confirms hc hu
  rcases consume_outcomes Broker.link s with ⟨t, _, hc⟩ | ⟨d, t, u, b, v, hd, hack, hc, _, hs⟩ | ⟨f, b, t, hf⟩
  · rw [hc] at h
    cases h
  · rw [hs] at h
    cases h
    have hv : v.acked = s.broker.acked := ha
    have hv' := hsettled hd hack hc
    omega
  · obtain ⟨hk, hbroker⟩ := hf.broker_of_again h
    rw [hbroker] at ha ⊢
    cases hf with
    | looking hl =>
      rcases Broker.nextDelivery_failed hq hl with ⟨rfl, _⟩ | hfault
      · exact absurd rfl hk
      · exact ⟨f, hfault⟩
    | acknowledging hd hack =>
      have hok : (Broker.link.ack _ _).1 = .ok () := (Broker.ack_delivery_acked hd).1
      rw [hack] at hok
      cases hok
    | @publishing d _ u v _ capacity e rest stats hd hack hc hp =>
      have ht : t.acked = v.acked := by
        have hkept := (Broker.acked_keeps v.acked).publish (s := v) e.exchange e.key e.alert.wire.toUTF8 rfl
        rwa [hp] at hkept
      have hv := hsettled hd hack hc
      omega

end RelayState

theorem TaskState.Step.faulty {now delay : Nat} {seen : Option Nat} {s s' : RelayState Broker}
    (h : Step Broker.link now delay (.running (.consuming seen)) s (.running (.consuming none)) s')
    (hq : s.broker.queues.has s.pipeline.queue = true) (hm : s'.mailbox = s.mailbox)
    (ha : s'.broker.acked = s.broker.acked) : ∃ f, s.broker.deliveryFaults = f :: s'.broker.deliveryFaults := by
  cases h with
  | answered hc =>
    have hrest := congrArg Mailbox.commands hm
    rw [hc] at hrest
    exact absurd (congrArg List.length hrest) (Nat.ne_of_lt (Nat.lt_succ_self _))
  | consumed _ _ hc => exact RelayState.consume_faulty hq hc ha

namespace Occurrence

def faults : Occurrence BrokerOperation → Nat
  | .meanwhile op => op.faults
  | _ => 0

/-- How many looks for a message the others let fail. -/
def faultCount : List (Occurrence BrokerOperation) → Nat
  | [] => 0
  | o :: later => o.faults + faultCount later

end Occurrence

namespace Supervised

/-- The relay goes round its loop, takes no command and acknowledges no message. -/
def retries (delay : Nat) (s : Supervised Broker) (o : Occurrence BrokerOperation) : Bool :=
  let t := s.next Broker.link brokerActs delay o
  match o, s.task, t.task with
  | .work _, .running (.consuming _), .running (.consuming none) =>
    decide (t.state.mailbox = s.state.mailbox ∧ t.state.broker.acked = s.state.broker.acked)
  | _, _, _ => false

def retryCount (delay : Nat) (s : Supervised Broker) : List (Occurrence BrokerOperation) → Nat
  | [] => 0
  | o :: later =>
    (s.retries delay o).toNat + (s.next Broker.link brokerActs delay o).retryCount delay later

section Hosting

variable {delay : Nat} {exchange queue : String}

/-- Once the topology exists it stays. -/
theorem hosts_stay (delay : Nat) (exchange queue : String) :
    Stays Broker.link brokerActs delay fun s => s.state.broker.Hosts exchange queue :=
  have hkeeps := Broker.hosts_keeps exchange queue
  have hperform : ∀ {b : Broker} op, b.Hosts exchange queue → (b.perform op).2.Hosts exchange queue :=
    fun op hb => (Broker.perform_effect _ op).hosts hb
  Stays.of_keeps hkeeps
    (RelayState.consume_keeps hkeeps (fun queue => hperform (.nextDelivery queue)) fun tag => hperform (.ack tag))
    hperform delay

/-- The topology exists as soon as the relay is in its loop. -/
structure Hosted (exchange queue : String) (s : Supervised Broker) : Prop where
  names : s.state.pipeline.exchange = exchange ∧ s.state.pipeline.queue = queue
  hosts : s.task.InLoop → s.state.broker.Hosts exchange queue

theorem hosted_stays (delay : Nat) (exchange queue : String) :
    Stays Broker.link brokerActs delay (Hosted exchange queue) where
  step {s t now} hs hstep := by
    refine ⟨(Stays.of_relay (names_stay Broker.link brokerActs exchange queue) delay).step hs.names hstep, ?_⟩
    intro ht
    by_cases hloop : s.task.InLoop
    · exact (hosts_stay delay exchange queue).step (hs.hosts hloop) hstep
    · -- the loop is entered by a run that has just declared the topology
      obtain ⟨rfl, rfl⟩ := hs.names
      obtain ⟨task, state⟩ := s
      obtain ⟨task', state'⟩ := t
      obtain ⟨seen, rfl⟩ := ht
      cases hstep with
      | begun hb =>
        obtain ⟨broker, hdeclare, rfl⟩ := RelayState.begin_ok hb
        exact Broker.declare_hosts hdeclare
      | _ => exact absurd ⟨_, rfl⟩ hloop
  mailbox _ hs := ⟨hs.names, hs.hosts⟩
  meanwhile op hs := ⟨hs.names, fun hloop => (hosts_stay delay exchange queue).meanwhile op (hs.hosts hloop)⟩

theorem hosted_start (settings : Settings) (rule : Rule) (broker : Broker) :
    (start settings rule broker).Hosted settings.exchange settings.inboundQueue :=
  ⟨⟨rfl, rfl⟩, fun h => nomatch h⟩

end Hosting

section Counting

variable {delay : Nat} {exchange queue : String} {s : Supervised Broker}

/-- Going round the loop uses up one failure that was injected. -/
theorem Hosted.retries (hs : s.Hosted exchange queue) {o : Occurrence BrokerOperation}
    (h : s.retries delay o = true) : o.faults = 0 ∧ ∃ f, s.state.broker.deliveryFaults =
      f :: (s.next Broker.link brokerActs delay o).state.broker.deliveryFaults := by
  simp only [Supervised.retries] at h
  split at h
  · rename_i now seen htask hnext
    obtain ⟨hmailbox, hacked⟩ := of_decide_eq_true h
    refine ⟨rfl, ?_⟩
    rcases s.next_work Broker.link brokerActs delay now with ⟨hnone, hsame⟩ | hstep
    · -- a task that goes on with its loop does not wait
      have hwait : ¬ (none = some (Broker.link.wakeUps s.state.broker) ∧ s.state.mailbox.isQuiet = true) :=
        fun hw => nomatch hw.1
      rw [hsame] at hnext
      rw [hnext, TaskState.step_turn hwait] at hnone
      cases hnone
    · have hq : s.state.broker.queues.has s.state.pipeline.queue = true := by
        rw [hs.names.2]
        exact (hs.hosts ⟨seen, htask⟩).queue
      rw [htask, hnext] at hstep
      exact hstep.faulty hq hmailbox hacked
  · cases h

theorem step_faults_le {t : Supervised Broker} {now : Nat}
    (hstep : TaskState.Step Broker.link now delay s.task s.state t.task t.state) :
    t.state.broker.deliveryFaults.length ≤ s.state.broker.deliveryFaults.length := by
  have hperform : ∀ {b : Broker} op, op.faults = 0 →
      b.deliveryFaults.length ≤ s.state.broker.deliveryFaults.length →
      (b.perform op).2.deliveryFaults.length ≤ s.state.broker.deliveryFaults.length := by
    intro b op hop hb
    have hle := (b.perform_effect op).faults_le
    omega
  have hkeeps : Broker.link.Keeps fun b => b.deliveryFaults.length ≤ s.state.broker.deliveryFaults.length :=
    Broker.link_keeps fun op hop => hperform op hop.faults
  exact hstep.keeps hkeeps
    (RelayState.consume_keeps hkeeps (fun queue => hperform (.nextDelivery queue) rfl)
      fun tag => hperform (.ack tag) rfl)
    (Nat.le_refl _)

theorem Hosted.next_faults (hs : s.Hosted exchange queue) (delay : Nat) (o : Occurrence BrokerOperation) :
    (s.retries delay o).toNat + (s.next Broker.link brokerActs delay o).state.broker.deliveryFaults.length ≤
      s.state.broker.deliveryFaults.length + o.faults := by
  cases hr : s.retries delay o with
  | true =>
    obtain ⟨ho, f, hf⟩ := hs.retries hr
    rw [hf, List.length_cons, Bool.toNat_true]
    omega
  | false =>
    rw [Bool.toNat_false, Nat.zero_add]
    cases o with
    | work now =>
      rcases s.next_work Broker.link brokerActs delay now with ⟨_, hsame⟩ | hstep
      · rw [hsame]
        exact Nat.le_refl _
      · exact step_faults_le hstep
    | meanwhile op => exact (s.state.broker.perform_effect op).faults_le
    | send c => exact Nat.le_refl _
    | hangUp => exact Nat.le_refl _

theorem Hosted.retryCount_le (hs : s.Hosted exchange queue) (schedule : List (Occurrence BrokerOperation)) :
    s.retryCount delay schedule +
        (s.run Broker.link brokerActs delay schedule).state.broker.deliveryFaults.length ≤
      s.state.broker.deliveryFaults.length + Occurrence.faultCount schedule := by
  induction schedule generalizing s with
  | nil => exact Nat.le_of_eq (Nat.zero_add _)
  | cons o later ih =>
    have hnext := hs.next_faults delay o
    have hlater := ih ((hosted_stays delay exchange queue).run hs [o])
    rw [run_cons, retryCount, Occurrence.faultCount]
    have hone : s.run Broker.link brokerActs delay [o] = s.next Broker.link brokerActs delay o := rfl
    rw [hone] at hlater
    omega

end Counting

/-- Over the broker in memory, whatever others do to it and whenever. Once the relay has
been in its loop, the broker has the queue and the exchange for good, whichever
operations follow, and it takes the acknowledgement of a delivery it just handed out.
So whenever the relay goes round its loop, takes no command and acknowledges no
message, it uses up one injected failure, and it does that no more often than looks
for a message were made to fail. -/
theorem retries_bounded (delay : Nat) (settings : Settings) (rule : Rule) (broker : Broker)
    (schedule : List (Occurrence BrokerOperation)) :
    let relay := (start settings rule broker).run Broker.link brokerActs delay
    (∀ earlier later, schedule = earlier ++ later → (relay earlier).task.InLoop → ∀ ops,
      ((relay schedule).state.broker.performAll ops).Dependable settings.exchange settings.inboundQueue) ∧
    (∀ o, (relay schedule).retries delay o = true → ∃ f, (relay schedule).state.broker.deliveryFaults =
      f :: (relay (schedule ++ [o])).state.broker.deliveryFaults) ∧
    (start settings rule broker).retryCount delay schedule +
        (relay schedule).state.broker.deliveryFaults.length ≤
      broker.deliveryFaults.length + Occurrence.faultCount schedule := by
  intro relay
  have hstart := hosted_start settings rule broker
  have hhosted : ∀ schedule, (relay schedule).Hosted settings.exchange settings.inboundQueue :=
    (hosted_stays delay settings.exchange settings.inboundQueue).run hstart
  refine ⟨?_, ?_, hstart.retryCount_le schedule⟩
  · rintro earlier later rfl hloop ops
    have hhosts := (hosts_stay delay settings.exchange settings.inboundQueue).run
      ((hhosted earlier).hosts hloop) later
    have hlater : relay (earlier ++ later) = (relay earlier).run Broker.link brokerActs delay later :=
      List.foldl_append
    rw [hlater]
    exact (hhosts.performAll ops).dependable
  · intro o hr
    obtain ⟨_, hfaults⟩ := (hhosted schedule).retries hr
    rwa [← run_append] at hfaults

/-- A look for a message fails once, the relay goes round its loop once more and waits. -/
example :
    let schedule : List (Occurrence BrokerOperation) :=
      [.work 0, .work 0, .meanwhile (.failDelivery (.injected .channel "timeout")), .work 0, .work 0, .work 0]
    (start {} .gitHub {}).retryCount 20 schedule = 1 := by
  rfl

end Supervised

end AlertRelay
