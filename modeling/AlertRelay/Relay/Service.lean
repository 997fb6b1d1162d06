import AlertRelay.Relay.Task

/-! A relay at work: its task beside the broker, the handles that control it,
and a clock that is moved from outside. -/

namespace AlertRelay

structure Service where
  state : RelayState Broker
  task : TaskState := .running .starting
  now : Nat := 0
  delay : Nat
  handles : Nat := 1

/-- What a request for the counters finds. -/
inductive Inquiry
  | noHandle
  | gone
  | report (r : StatsReport)

namespace Service

/-- Puts a pipeline to work. -/
def spawn (p : Pipeline) (delay : Nat) (broker : Broker) : Service where
  state := { broker := broker, pipeline := p }
  delay := delay

/-- Changes the broker from outside. -/
def onBroker {α : Type} (s : Service) (f : Broker → α × Broker) : α × Service :=
  let (a, broker) := f s.state.broker
  (a, { s with state := { s.state with broker := broker } })

/-- Lets the task work until it has to wait or has ended. -/
def settle (s : Service) : Service :=
  let (task, state) := s.task.settle Broker.link s.now s.delay s.state.work s.state
  { s with task := task, state := state }

def advance (s : Service) (ms : Nat) : Service := { s with now := s.now + ms }

def hasEnded (s : Service) : Bool :=
  match s.task with
  | .ended _ => true
  | _ => false

/-- Sends a command through a handle; a task that has ended takes none. -/
def send (s : Service) (c : Command) : Service :=
  if s.handles = 0 || s.hasEnded then s
  else
    let mailbox := s.state.mailbox
    { s with state := { s.state with
        mailbox := { mailbox with commands := mailbox.commands ++ [c] } } }

def shutdown (s : Service) : Service := s.send .shutdown

/-- Copies a handle, if there is one. -/
def clone (s : Service) : Service :=
  if s.handles = 0 then s else { s with handles := s.handles + 1 }

/-- Drops a handle; without handles the mailbox is closed. -/
def dropHandle (s : Service) : Service :=
  let left := s.handles - 1
  let mailbox := s.state.mailbox
  { s with
    handles := left
    state := { s.state with mailbox := { mailbox with isOpen := decide (0 < left) } } }

/-- Asks for the counters and lets the task work. -/
def inquire (s : Service) : Inquiry × Service :=
  if s.handles = 0 then (.noHandle, s)
  else if s.hasEnded then (.gone, s)
  else
    let s := (s.send (.report 0)).settle
    let mailbox := s.state.mailbox
    let forgotten := { s with state := { s.state with mailbox := { mailbox with answers := [] } } }
    match mailbox.answers with
    | [] => (.gone, forgotten)
    | (_, r) :: _ => (.report r, forgotten)

end Service

end AlertRelay
