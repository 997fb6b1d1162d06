import AlertRelay.Proofs.Lifting
import AlertRelay.Proofs.Tracked

/-! Brokers that keep a record of the calls that matter to the alerts, and the
broker in memory beside its ledger. Both do what the broker alone does. -/

namespace AlertRelay

variable {σ : Type}

inductive Call
  | received (delivery : Delivery)
  | acknowledged (tag : Nat) (outcome : Outcome Unit)
  | published (exchange key : String) (body : ByteArray) (outcome : Outcome Unit)

structure Recorded (σ : Type) where
  inner : σ
  calls : List Call := []

namespace Recorded

/-- Runs an operation and appends the calls that its outcome tells of. -/
def run {α : Type} (op : σ → α × σ) (calls : α → List Call) (r : Recorded σ) : α × Recorded σ :=
  ((op r.inner).1, ⟨(op r.inner).2, r.calls ++ calls (op r.inner).1⟩)

def note (r : Recorded σ) (c : Call) : Recorded σ := { r with calls := r.calls ++ [c] }

end Recorded

def Link.recorded (l : Link σ) : Link (Recorded σ) where
  connect := Recorded.run l.connect fun _ => []
  declareExchange name kind := Recorded.run (l.declareExchange name kind) fun _ => []
  declareQueue name := Recorded.run (l.declareQueue name) fun _ => []
  bindQueue queue exchange key := Recorded.run (l.bindQueue queue exchange key) fun _ => []
  setPrefetch count := Recorded.run (l.setPrefetch count) fun _ => []
  confirmDelivery := Recorded.run l.confirmDelivery fun _ => []
  nextDelivery queue := Recorded.run (l.nextDelivery queue) fun outcome =>
    (outcome.toOption.join.map Call.received).toList
  ack tag := Recorded.run (l.ack tag) fun outcome => [.acknowledged tag outcome]
  publish exchange key body := Recorded.run (l.publish exchange key body) fun outcome =>
    [.published exchange key body outcome]
  close := Recorded.run l.close fun _ => []
  wakeUps r := l.wakeUps r.inner

theorem Link.recorded_lifts (l : Link σ) : l.recorded.Lifts Recorded.inner l where
  connect _ := rfl
  declareExchange _ _ _ := rfl
  declareQueue _ _ := rfl
  bindQueue _ _ _ _ := rfl
  setPrefetch _ _ := rfl
  confirmDelivery _ := rfl
  nextDelivery _ _ := rfl
  ack _ _ := rfl
  publish _ _ _ _ := rfl
  close _ := rfl
  wakeUps _ := rfl

theorem Link.recorded_delivery (l : Link σ) {queue : String} {r : Recorded σ} {d : Delivery}
    (h : (l.nextDelivery queue r.inner).1 = .ok (some d)) :
    (l.recorded.nextDelivery queue r).2 =
      Recorded.note ⟨(l.nextDelivery queue r.inner).2, r.calls⟩ (.received d) := by
  simp [Link.recorded, Recorded.run, Recorded.note, h, Except.toOption]

theorem Link.recorded_noDelivery (l : Link σ) {queue : String} {r : Recorded σ}
    (h : ∀ d, (l.nextDelivery queue r.inner).1 ≠ .ok (some d)) :
    (l.recorded.nextDelivery queue r).2.calls = r.calls := by
  simp only [Link.recorded, Recorded.run]
  rcases ho : (l.nextDelivery queue r.inner).1 with f | _ | d
  · exact List.append_nil _
  · exact List.append_nil _
  · exact absurd ho (h d)

theorem Link.recorded_ack (l : Link σ) (tag : Nat) (r : Recorded σ) : l.recorded.ack tag r =
    ((l.ack tag r.inner).1,
      ⟨(l.ack tag r.inner).2, r.calls ++ [.acknowledged tag (l.ack tag r.inner).1]⟩) := rfl

theorem Link.recorded_publish (l : Link σ) (exchange key : String) (body : ByteArray) (r : Recorded σ) :
    l.recorded.publish exchange key body r =
      ((l.publish exchange key body r.inner).1,
        ⟨(l.publish exchange key body r.inner).2,
          r.calls ++ [.published exchange key body (l.publish exchange key body r.inner).1]⟩) := rfl

namespace Tracked

def run {α : Type} (op : BrokerOperation) (outcome : Broker → α) (t : Tracked) : α × Tracked :=
  (outcome t.broker, (t.perform op).2)

def link : Link Tracked where
  connect := run .connect fun b => b.connect.1
  declareExchange name kind := run (.declareExchange name kind) fun b => (b.declareExchange name kind).1
  declareQueue name := run (.declareQueue name) fun b => (b.declareQueue name).1
  bindQueue queue exchange key :=
    run (.bindQueue queue exchange key) fun b => (b.bindQueue queue exchange key).1
  setPrefetch count := run (.setPrefetch count) fun b => (b.setPrefetch count).1
  confirmDelivery := run .confirmDelivery fun b => b.confirmDelivery.1
  nextDelivery queue := run (.nextDelivery queue) fun b => (b.nextDelivery queue).1
  ack tag := run (.ack tag) fun b => (b.ack tag).1
  publish exchange key body := run (.publish exchange key body) fun b => (b.publish exchange key body).1
  close := run .close fun b => b.close.1
  wakeUps t := t.broker.wakeUps

theorem link_lifts : link.recorded.Lifts (fun r => r.inner.broker) Broker.link where
  connect _ := rfl
  declareExchange _ _ _ := rfl
  declareQueue _ _ := rfl
  bindQueue _ _ _ _ := rfl
  setPrefetch _ _ := rfl
  confirmDelivery _ := rfl
  nextDelivery _ _ := rfl
  ack _ _ := rfl
  publish _ _ _ _ := rfl
  close _ := rfl
  wakeUps _ := rfl

end Tracked

end AlertRelay
