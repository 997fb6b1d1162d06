import AlertRelay.Relay.Run

/-! The task of a relay: it runs the pipeline, and after a failure of the
connection it waits a while, still taking commands, and runs it again. With the
broker in memory the number of its steps is bounded: a step uses up a command, a
fault or a message, and a message yields no more alerts than its body has bytes,
each of which may come back as a message without alerts. -/

namespace AlertRelay

inductive TaskState
  | running (run : RunState)
  | reconnecting (resumeAt : Nat)
  | ended (outcome : Except RelayFailure StatsReport)

/-- What follows a run: the end, or another attempt after the delay. -/
def TaskState.afterRun (now delay : Nat) (report : StatsReport) :
    Except RelayFailure Unit → TaskState
  | .ok () => .ended (.ok report)
  | .error f =>
    if f.kind? = some .connection then .reconnecting (now + delay) else .ended (.error f)

/-- The next step of a task at a time; none if it has to wait or has ended. -/
def TaskState.step {σ : Type} (link : Link σ) (now delay : Nat) (t : TaskState)
    (s : RelayState σ) : Option (TaskState × RelayState σ) :=
  match t with
  | .running (.finished outcome) => some (.afterRun now delay s.pipeline.report outcome, s)
  | .running r => (r.step link s).map fun (r, s) => (.running r, s)
  | .reconnecting resumeAt =>
    if resumeAt ≤ now then some (.running .starting, s)
    else
      match s.mailbox.commands with
      | .report id :: rest => some (.reconnecting resumeAt, s.answer id rest)
      | .shutdown :: rest =>
        some (.ended (.ok s.pipeline.report),
          { s with mailbox := { s.mailbox with commands := rest } })
      | [] =>
        if s.mailbox.isOpen then none else some (.ended (.ok s.pipeline.report), s)
  | .ended _ => none

/-- Goes on with a task until it has to wait or has ended. -/
def TaskState.settle {σ : Type} (link : Link σ) (now delay : Nat) :
    Nat → TaskState → RelayState σ → TaskState × RelayState σ
  | 0, t, s => (t, s)
  | fuel + 1, t, s =>
    match t.step link now delay s with
    | none => (t, s)
    | some (t, s) => TaskState.settle link now delay fuel t s

/-- The steps that the messages of a queue may cause. -/
def messageWork : List Message → Nat
  | [] => 0
  | m :: rest => m.body.size + 1 + messageWork rest

/-- The steps that the messages of all queues may cause. -/
def queueWork : Table (List Message) → Nat
  | [] => 0
  | (_, ms) :: rest => messageWork ms + queueWork rest

def Broker.work (b : Broker) : Nat :=
  queueWork b.queues + messageWork (b.outstanding.map (·.message)) +
    b.deliveryFaults.length + b.publishFaults.length

def RelayState.work (s : RelayState Broker) : Nat :=
  4 * (s.broker.work + s.mailbox.commands.length + s.pipeline.backlog.outbox.length) + 8

end AlertRelay
