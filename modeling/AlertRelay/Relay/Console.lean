import AlertRelay.Relay.Task

/-! A pipeline driven by hand: runs are started and polled one at a time, and
commands are sent while they last. -/

namespace AlertRelay

/-- `asked` holds the requests for counters since the replies were last read,
and whether each was accepted. -/
structure Console where
  state : RelayState Broker
  run : Option RunState := none
  asked : List (Nat × Bool) := []
  nextId : Nat := 0

inductive PollResult
  | notRunning
  | pending
  | finished (outcome : Except RelayFailure Unit)

inductive Reply
  | report (r : StatsReport)
  | waiting
  | closed

namespace Console

/-- Changes the broker from outside. -/
def onBroker {α : Type} (c : Console) (f : Broker → α × Broker) : α × Console :=
  let (a, broker) := f c.state.broker
  (a, { c with state := { c.state with broker := broker } })

/-- Declares the topology without a run; not possible during one. -/
def prepare (c : Console) : Option (Except RelayFailure Unit) × Console :=
  match c.run with
  | some _ => (none, c)
  | none =>
    match c.state.pipeline.prepare Broker.link c.state.broker with
    | (r, p, broker) =>
      (some r, { c with state := { c.state with pipeline := p, broker := broker } })

/-- Goes on with the run in progress. -/
def poll (c : Console) : PollResult × Console :=
  match c.run with
  | none => (.notRunning, c)
  | some r =>
    match r.poll Broker.link c.state.work c.state with
    | (.finished outcome, s) => (.finished outcome, { c with state := s, run := none })
    | (r, s) => (.pending, { c with state := s, run := some r })

/-- Starts a run if none is in progress, and goes on with it. -/
def start (c : Console) : PollResult × Console :=
  { c with run := some (c.run.getD .starting) }.poll

/-- Sends a command; whether it was accepted. -/
def send (c : Console) (command : Command) : Bool × Console :=
  let (ok, mailbox) := c.state.mailbox.send command
  (ok, { c with state := { c.state with mailbox := mailbox } })

/-- Asks for the counters. -/
def ask (c : Console) : Bool × Console :=
  let (ok, c') := c.send (.report c.nextId)
  (ok, { c' with asked := c.asked ++ [(c.nextId, ok)], nextId := c.nextId + 1 })

/-- What became of the requests since the last time. -/
def replies (c : Console) : List Reply × Console :=
  let reply (r : Nat × Bool) : Reply :=
    if r.2 then
      match c.state.mailbox.answers.lookup r.1 with
      | some report => .report report
      | none => .waiting
    else .closed
  (c.asked.map reply, { c with asked := [] })

/-- Drops the sender; whether there was one. -/
def hangUp (c : Console) : Bool × Console :=
  let mailbox := c.state.mailbox
  (mailbox.isOpen, { c with state := { c.state with mailbox := { mailbox with isOpen := false } } })

end Console

end AlertRelay
