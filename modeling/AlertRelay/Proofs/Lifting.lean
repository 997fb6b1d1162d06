import AlertRelay.Relay.Task

/-! Brokers that carry more than they need. If `f` forgets what a broker carries
in addition and all operations agree under `f`, then a relay does the same over
both brokers. -/

namespace AlertRelay

variable {σ τ : Type}

structure Link.Lifts (f : σ → τ) (l : Link σ) (m : Link τ) : Prop where
  connect : ∀ s, m.connect (f s) = (l.connect s).map id f
  declareExchange : ∀ name kind s,
    m.declareExchange name kind (f s) = (l.declareExchange name kind s).map id f
  declareQueue : ∀ name s, m.declareQueue name (f s) = (l.declareQueue name s).map id f
  bindQueue : ∀ queue exchange key s,
    m.bindQueue queue exchange key (f s) = (l.bindQueue queue exchange key s).map id f
  setPrefetch : ∀ count s, m.setPrefetch count (f s) = (l.setPrefetch count s).map id f
  confirmDelivery : ∀ s, m.confirmDelivery (f s) = (l.confirmDelivery s).map id f
  nextDelivery : ∀ queue s, m.nextDelivery queue (f s) = (l.nextDelivery queue s).map id f
  ack : ∀ tag s, m.ack tag (f s) = (l.ack tag s).map id f
  publish : ∀ exchange key body s,
    m.publish exchange key body (f s) = (l.publish exchange key body s).map id f
  close : ∀ s, m.close (f s) = (l.close s).map id f
  wakeUps : ∀ s, m.wakeUps (f s) = l.wakeUps s

def Drained.map (f : σ → τ) (d : Drained σ) : Drained τ := ⟨d.outcome, d.entries, d.stats, f d.broker⟩

def RelayState.map (f : σ → τ) (s : RelayState σ) : RelayState τ := ⟨f s.broker, s.pipeline, s.mailbox⟩

namespace Link.Lifts

variable {f : σ → τ} {l : Link σ} {m : Link τ}

theorem drainEntries (h : l.Lifts f m) (stats : Stats) (s : σ) (es : List Entry) :
    drainEntries m stats (f s) es = (drainEntries l stats s es).map f := by
  induction es generalizing stats s with
  | nil => rfl
  | cons e es ih =>
    simp only [AlertRelay.drainEntries, h.publish]
    obtain ⟨r, s'⟩ := l.publish e.exchange e.key e.alert.wire.toUTF8 s
    cases r with
    | ok _ => exact ih _ s'
    | error g =>
      simp only [Prod.map, id_eq]
      split <;> rfl

theorem drain (h : l.Lifts f m) (b : Backlog) (s : σ) :
    b.drain m (f s) = (b.drain l s).map id (Prod.map id f) := by
  simp only [Backlog.drain, h.drainEntries]
  rfl

theorem take (h : l.Lifts f m) (i : Intake) (d : Delivery) (b : Backlog) (s : σ) :
    i.take m d b (f s) = (i.take l d b s).map id (Prod.map id f) := by
  simp only [Intake.take, h.ack]
  obtain ⟨r, s'⟩ := l.ack d.tag s
  cases r with
  | ok _ => exact h.drain _ s'
  | error g => rfl

theorem andThen {next : σ → Outcome Unit × σ} {next' : τ → Outcome Unit × τ}
    (hn : ∀ s, next' (f s) = (next s).map id f) (x : Outcome Unit × σ) :
    andThen next' (x.map id f) = (andThen next x).map id f := by
  obtain ⟨r, s⟩ := x
  cases r with
  | ok _ => exact hn s
  | error g => rfl

theorem declare (h : l.Lifts f m) (p : Pipeline) (s : σ) :
    p.declare m (f s) = (p.declare l s).map id f := by
  simp only [Pipeline.declare, h.connect, andThen (h.declareExchange _ _), andThen (h.declareQueue _),
    andThen (h.bindQueue _ _ _), andThen (h.setPrefetch _), andThen h.confirmDelivery]

theorem prepare (h : l.Lifts f m) (p : Pipeline) (s : σ) :
    p.prepare m (f s) = (p.prepare l s).map id (Prod.map id f) := by
  simp only [Pipeline.prepare, h.declare]
  rfl

theorem terminate (h : l.Lifts f m) (p : Pipeline) (s : σ) :
    p.terminate m (f s) = (p.terminate l s).map id f := by
  simp only [Pipeline.terminate, h.drain, Prod.map, h.close]
  rfl

theorem handle (h : l.Lifts f m) (p : Pipeline) (delivery : Outcome Delivery) (s : σ) :
    p.handle m delivery (f s) = (p.handle l delivery s).map id (Prod.map id f) := by
  cases delivery with
  | error g => rfl
  | ok d =>
    simp only [Pipeline.handle, h.take]
    obtain ⟨r, b, s'⟩ := p.intake.take l d p.backlog s
    cases r <;> rfl

theorem finish (s : RelayState σ) (x : Except RelayFailure Unit × Pipeline × σ) :
    RelayState.consume.finish (s.map f) (x.map id (Prod.map id f)) =
      (RelayState.consume.finish s x).map id (·.map f) := by
  obtain ⟨r, p, s'⟩ := x
  cases r <;> rfl

theorem consume (h : l.Lifts f m) (s : RelayState σ) :
    (s.map f).consume m = (s.consume l).map id (·.map f) := by
  simp only [RelayState.consume, RelayState.map, h.nextDelivery]
  obtain ⟨r, s'⟩ := l.nextDelivery s.pipeline.queue s.broker
  cases r with
  | error g =>
    simp only [Prod.map, id_eq, h.handle]
    exact finish s _
  | ok d =>
    cases d with
    | none =>
      simp only [Prod.map, id_eq, h.wakeUps]
    | some d =>
      simp only [Prod.map, id_eq, h.handle]
      exact finish s _

theorem relayTerminate (h : l.Lifts f m) (s : RelayState σ) :
    (s.map f).terminate m = (s.terminate l).map f := by
  simp only [RelayState.terminate, RelayState.map, h.terminate]
  rfl

theorem turn (h : l.Lifts f m) (s : RelayState σ) :
    (s.map f).turn m = (s.turn l).map id (·.map f) := by
  obtain ⟨broker, p, commands, isOpen, answers⟩ := s
  cases commands with
  | nil =>
    cases isOpen with
    | true => exact h.consume _
    | false =>
      have hh := h.relayTerminate ⟨broker, p, [], false, answers⟩
      exact congrArg (Prod.mk (Turn.ended (.ok ()))) hh
  | cons c rest =>
    cases c with
    | report id => rfl
    | shutdown =>
      have hh := h.relayTerminate ⟨broker, p, rest, isOpen, answers⟩
      exact congrArg (Prod.mk (Turn.ended (.ok ()))) hh

theorem begin (h : l.Lifts f m) (s : RelayState σ) :
    (s.map f).begin m = (s.begin l).map id (·.map f) := by
  simp only [RelayState.begin, RelayState.map, h.prepare]
  obtain ⟨r, p, s'⟩ := s.pipeline.prepare l s.broker
  cases r <;> rfl

theorem runStep (h : l.Lifts f m) (r : RunState) (s : RelayState σ) :
    r.step m (s.map f) = (r.step l s).map (Prod.map id (·.map f)) := by
  cases r with
  | starting =>
    simp only [RunState.step, h.begin]
    obtain ⟨r, s'⟩ := s.begin l
    cases r <;> rfl
  | consuming seen =>
    have hw : m.wakeUps (s.map f).broker = l.wakeUps s.broker := h.wakeUps s.broker
    have hm : (s.map f).mailbox = s.mailbox := rfl
    simp only [RunState.step, h.turn, hw, hm]
    split
    · rfl
    · obtain ⟨r, s'⟩ := s.turn l
      cases r <;> rfl
  | finished outcome => rfl

/-- A task takes the same step over both brokers. -/
theorem taskStep (h : l.Lifts f m) (now delay : Nat) (t : TaskState) (s : RelayState σ) :
    t.step m now delay (s.map f) = (t.step l now delay s).map (Prod.map id (·.map f)) := by
  cases t with
  | running r =>
    cases r with
    | finished outcome => rfl
    | starting =>
      simp only [TaskState.step, h.runStep, Option.map_map]
      rfl
    | consuming seen =>
      simp only [TaskState.step, h.runStep, Option.map_map]
      rfl
  | reconnecting resumeAt =>
    simp only [TaskState.step]
    split
    · rfl
    · obtain ⟨broker, p, commands, isOpen, answers⟩ := s
      cases commands with
      | nil => cases isOpen <;> rfl
      | cons c rest => cases c <;> rfl
  | ended outcome => rfl

end Link.Lifts

end AlertRelay
