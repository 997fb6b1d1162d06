import AlertRelay.Relay.Intake
import AlertRelay.Settings

/-! The pipeline of one relay: its names, its intake and its backlog. -/

namespace AlertRelay

inductive Phase
  | initializing
  | running
  | terminating
  | stopped
deriving DecidableEq, Repr

structure Pipeline where
  name : String
  exchange : String
  queue : String
  inboundKey : String
  prefetch : Nat
  intake : Intake
  backlog : Backlog
  phase : Phase := .initializing

namespace Pipeline

/-- The pipeline that settings describe, before its first run. -/
def ofSettings (s : Settings) (rule : Rule) : Pipeline where
  name := s.displayName
  exchange := s.exchange
  queue := s.inboundQueue
  inboundKey := s.inboundKey
  prefetch := s.prefetch
  intake := ⟨rule, s.exchange, s.outboundKey⟩
  backlog := { outbox := .new s.bufferCapacity }

/-- Makes the pipeline, if there is memory for its outbox. -/
def allot (grants : Nat → Bool) (s : Settings) (rule : Rule) : Except AllocationFault Pipeline :=
  (Outbox.allot grants s.bufferCapacity).map fun outbox =>
    { ofSettings s rule with backlog := { outbox := outbox } }

def report (p : Pipeline) : StatsReport := p.backlog.report

end Pipeline

/-- Goes on with the next operation if the one before succeeded. -/
def andThen {σ : Type} (next : σ → Outcome Unit × σ) : Outcome Unit × σ → Outcome Unit × σ
  | (.ok (), s) => next s
  | (.error f, s) => (.error f, s)

/-- Connects and declares what the pipeline consumes from; all of it may exist already. -/
def Pipeline.declare {σ : Type} (link : Link σ) (p : Pipeline) (broker : σ) : Outcome Unit × σ :=
  link.connect broker
    |> andThen (link.declareExchange p.exchange .topic)
    |> andThen (link.declareQueue p.queue)
    |> andThen (link.bindQueue p.queue p.exchange p.inboundKey)
    |> andThen (link.setPrefetch p.prefetch)
    |> andThen link.confirmDelivery

/-- Declares the topology; the pipeline is not running yet. -/
def Pipeline.prepare {σ : Type} (link : Link σ) (p : Pipeline) (broker : σ) :
    Except RelayFailure Unit × Pipeline × σ :=
  match p.declare link broker with
  | (outcome, broker) =>
    (outcome.mapError .broker, { p with phase := .initializing }, broker)

/-- Survives failures of the channel and refused publishes; all others end the run. -/
def Pipeline.recover (p : Pipeline) (f : RelayFailure) : Except RelayFailure Unit × Pipeline :=
  match f.kind? with
  | some .channel =>
    (.ok (), { p with backlog := { p.backlog with stats := p.backlog.stats.loseChannel } })
  | some .notDelivered =>
    (.ok (), { p with backlog := { p.backlog with stats := p.backlog.stats.refuse } })
  | _ => (.error f, { p with phase := .stopped })

/-- Drains what it can and releases the connection. -/
def Pipeline.terminate {σ : Type} (link : Link σ) (p : Pipeline) (broker : σ) : Pipeline × σ :=
  let (_, backlog, broker) := p.backlog.drain link broker
  let (_, broker) := link.close broker
  ({ p with backlog := backlog, phase := .stopped }, broker)

/-- Takes in a delivery, or a failure to get one. -/
def Pipeline.handle {σ : Type} (link : Link σ) (p : Pipeline) (delivery : Outcome Delivery)
    (broker : σ) : Except RelayFailure Unit × Pipeline × σ :=
  match delivery with
  | .error f => let (r, p) := p.recover (.broker f); (r, p, broker)
  | .ok d =>
    match p.intake.take link d p.backlog broker with
    | (.ok (), backlog, broker) => (.ok (), { p with backlog := backlog }, broker)
    | (.error f, backlog, broker) =>
      let (r, p) := { p with backlog := backlog }.recover f
      (r, p, broker)

end AlertRelay
