import AlertRelay.Relay.Pipeline

/-! Runs of a pipeline. A run declares the topology and then goes round a loop
that looks at the commands first and at the broker second, one message at a
time. A turn that finds neither waits for a command or a wake-up. -/

namespace AlertRelay

inductive Command
  /-- Asks for the counters; the answer carries the number. -/
  | report (id : Nat)
  | shutdown
deriving DecidableEq, Repr

/-- The commands on their way to a relay, oldest first, and the answers it
gave. It is open as long as someone may send. -/
structure Mailbox where
  commands : List Command := []
  isOpen : Bool := true
  answers : List (Nat × StatsReport) := []
deriving DecidableEq, Repr

namespace Mailbox

/-- How many commands may wait. -/
def limit : Nat := 32

/-- Sends a command, if there is a sender and room. -/
def send (m : Mailbox) (c : Command) : Bool × Mailbox :=
  if m.isOpen && decide (m.commands.length < limit) then
    (true, { m with commands := m.commands ++ [c] })
  else (false, m)

def answer (m : Mailbox) (id : Nat) (report : StatsReport) : Mailbox :=
  { m with answers := m.answers ++ [(id, report)] }

/-- Nothing to do, and something may still come. -/
def isQuiet (m : Mailbox) : Bool := m.commands.isEmpty && m.isOpen

end Mailbox

/-- A relay beside its broker. -/
structure RelayState (σ : Type) where
  broker : σ
  pipeline : Pipeline
  mailbox : Mailbox := {}

/-- What a turn of the loop comes to. -/
inductive Turn
  | again
  | waits (seen : Nat)
  | ended (outcome : Except RelayFailure Unit)

namespace RelayState

variable {σ : Type}

/-- Answers a command with the counters of this moment. -/
def answer (s : RelayState σ) (id : Nat) (rest : List Command) : RelayState σ :=
  { s with mailbox := { s.mailbox with commands := rest }.answer id s.pipeline.report }

def terminate (link : Link σ) (s : RelayState σ) : RelayState σ :=
  let (p, broker) := s.pipeline.terminate link s.broker
  { s with pipeline := p, broker := broker }

/-- Looks for a message and handles it. -/
def consume (link : Link σ) (s : RelayState σ) : Turn × RelayState σ :=
  match link.nextDelivery s.pipeline.queue s.broker with
  | (.ok none, broker) => (.waits (link.wakeUps broker), { s with broker := broker })
  | (.ok (some d), broker) => finish (s.pipeline.handle link (.ok d) broker)
  | (.error f, broker) => finish (s.pipeline.handle link (.error f) broker)
where
  finish : Except RelayFailure Unit × Pipeline × σ → Turn × RelayState σ
    | (.ok (), p, broker) => (.again, { s with pipeline := p, broker := broker })
    | (.error f, p, broker) => (.ended (.error f), { s with pipeline := p, broker := broker })

/-- One turn of the loop. -/
def turn (link : Link σ) (s : RelayState σ) : Turn × RelayState σ :=
  match s.mailbox.commands with
  | .report id :: rest => (.again, s.answer id rest)
  | .shutdown :: rest =>
    (.ended (.ok ()), { s with mailbox := { s.mailbox with commands := rest } }.terminate link)
  | [] => if s.mailbox.isOpen then s.consume link else (.ended (.ok ()), s.terminate link)

/-- Declares the topology; the loop starts if that succeeds. -/
def begin (link : Link σ) (s : RelayState σ) : Except RelayFailure Unit × RelayState σ :=
  match s.pipeline.prepare link s.broker with
  | (.ok (), p, broker) =>
    (.ok (), { s with pipeline := { p with phase := .running }, broker := broker })
  | (.error f, p, broker) =>
    (.error f, { s with pipeline := { p with phase := .stopped }, broker := broker })

end RelayState

/-- How far a run is; `seen` is the number of wake-ups at the look it waits on. -/
inductive RunState
  | starting
  | consuming (seen : Option Nat)
  | finished (outcome : Except RelayFailure Unit)

/-- The next step of a run; none if it has to wait or is over. -/
def RunState.step {σ : Type} (link : Link σ) (r : RunState) (s : RelayState σ) :
    Option (RunState × RelayState σ) :=
  match r with
  | .starting =>
    match s.begin link with
    | (.ok (), s) => some (.consuming none, s)
    | (.error f, s) => some (.finished (.error f), s)
  | .consuming seen =>
    if seen = some (link.wakeUps s.broker) ∧ s.mailbox.isQuiet = true then none
    else
      match s.turn link with
      | (.again, s) => some (.consuming none, s)
      | (.waits n, s) => some (.consuming (some n), s)
      | (.ended outcome, s) => some (.finished outcome, s)
  | .finished _ => none

/-- Goes on with a run until it has to wait or is over. -/
def RunState.poll {σ : Type} (link : Link σ) :
    Nat → RunState → RelayState σ → RunState × RelayState σ
  | 0, r, s => (r, s)
  | fuel + 1, r, s =>
    match r.step link s with
    | none => (r, s)
    | some (r, s) => RunState.poll link fuel r s

end AlertRelay
