import AlertRelay.Relay.Service
import AlertRelay.Replay.Arguments
import AlertRelay.Replay.Assignments
import AlertRelay.Settings
import AlertRelay.Text.Lines

/-! Replaying recorded monitoring results: each line of the input is sent
through a relay over a broker in memory, and the alerts that come out are the
output. -/

namespace AlertRelay

/-- What a replay finds around it. The directory that it runs in is given by the names on the
way there, the last one first. Paths that are not among the files lead nowhere. `grants` is
whether the allocator gives as many bytes at once. -/
structure Surroundings where
  arguments : List String
  directory : List String
  files : Table (Except FileFault ByteArray)
  standardInput : ByteArray
  environment : Table String
  grants : Nat → Bool

inductive ReplayError
  | settings (e : SettingsError)
  | noRule (source : String)
  | noInput (path : String)
  | unreadable (fault : FileFault)
  | encoding (fault : Utf8Fault)
  | broker (failure : BrokerFailure)
  | relay (failure : RelayFailure)

def ReplayError.message : ReplayError → String
  | .settings e => e.message
  | .noRule source => "no classification rule for source '" ++ source ++ "'"
  | .noInput path => "Failed to open input: " ++ path
  | .unreadable fault => fault.message
  | .encoding fault => fault.message
  | .broker f => f.message
  | .relay f => f.message

/-- What lies behind an error, if it is not the whole story. -/
def ReplayError.cause : ReplayError → Option String
  | .settings e => e.cause
  | .noInput _ => some FileFault.absent.message
  | .relay f => f.source?.map (·.message)
  | .noRule _ | .unreadable _ | .encoding _ | .broker _ => none

/-- Ends that the program does not choose. -/
inductive Crash
  | panic
  | abort
deriving DecidableEq, Repr

/-- The exit status; an abort is a signal, and shells show its number above 128. -/
def Crash.status : Crash → Nat
  | .panic => 101
  | .abort => 134

def AllocationFault.crash : AllocationFault → Crash
  | .tooLarge => .panic
  | .refused => .abort

inductive ReplayFailure
  | error (e : ReplayError)
  | crash (c : Crash)

/-- How a replay ends: its exit status, its output lines and its error. -/
structure ReplayResult where
  status : Nat
  output : List ByteArray
  error : Option ReplayError

/-- The queue where the alerts come out. -/
def sinkQueue : String := "alerter_sink"

/-- The key that the sink is bound with. -/
def sinkKey : String := "alert_router.#"

/-- A broker with the sink bound to the outbound keys, and the inbound queue. -/
def sinkBroker (s : Settings) : Outcome Unit × Broker :=
  ({} : Broker).connect
    |> andThen (Broker.declareExchange s.exchange .topic)
    |> andThen (Broker.declareQueue sinkQueue)
    |> andThen (Broker.bindQueue sinkQueue s.exchange sinkKey)
    |> andThen (Broker.declareQueue s.inboundQueue)
    |> andThen (Broker.bindQueue s.inboundQueue s.exchange s.inboundKey)

/-- A relay over the broker with the sink. -/
def startRelay (grants : Nat → Bool) (s : Settings) (rule : Rule) : Except ReplayFailure Service :=
  match sinkBroker s with
  | (.error f, _) => .error (.error (.broker f))
  | (.ok (), broker) =>
    match Pipeline.allot grants s rule with
    | .error fault => .error (.crash fault.crash)
    | .ok pipeline => .ok (.spawn pipeline (1000 * s.reconnectDelaySecs) broker)

/-- Sends one line through the relay. -/
def Service.feed (settings : Settings) (s : Service) (line : String) :
    Except ReplayError Service :=
  match s.onBroker (Broker.inject settings.exchange settings.inboundKey line.toUTF8) with
  | (.ok _, s) => .ok s.settle
  | (.error f, _) => .error (.broker f)

/-- Stops the relay and takes what reached the sink. -/
def Service.finishReplay (s : Service) : Except ReplayError Unit × List ByteArray :=
  let s := s.shutdown.settle
  let (output, _) := s.state.broker.takeMessages sinkQueue
  match s.task with
  | .ended (.error f) => (.error (.relay f), output)
  | _ => (.ok (), output)

/-- Relays the lines that are not blank. -/
def Service.relayLines (settings : Settings) (s : Service) (lines : List String) :
    Except ReplayError Unit × List ByteArray :=
  match (lines.filter (!isBlankText ·)).foldlM (Service.feed settings) s.settle with
  | .error e => (.error e, [])
  | .ok s => s.finishReplay

/-- What a path leads to. -/
def Surroundings.content (w : Surroundings) (path : String) : Except FileFault ByteArray :=
  (w.files.get? path).getD (.error .absent)

/-- The input that the arguments name. A directory can be opened but not read. -/
def Surroundings.input (w : Surroundings) (a : Arguments) : Except ReplayError ByteArray :=
  match a.input with
  | none => .ok w.standardInput
  | some path =>
    match w.content path with
    | .ok bytes => .ok bytes
    | .error .directory => .error (.unreadable .directory)
    | .error _ => .error (.noInput path)

/-- The file whose assignments add to the environment. -/
def assignmentsFile : String := ".env"

/-- Where that file may be: in the directory, or in one of those around it. -/
def assignmentPlaces : List String → List String
  | [] => ["/" ++ assignmentsFile]
  | name :: outer =>
    ("/" ++ "/".intercalate ((name :: outer).reverse ++ [assignmentsFile])) :: assignmentPlaces outer

/-- The first file among these places; directories are passed over. -/
def Surroundings.firstFile (w : Surroundings) (places : List String) : Option ByteArray :=
  places.findSome? fun place => (w.content place).toOption

/-- Variables of a file do not replace those of the environment. Its lines count
up to one that is not UTF-8. -/
def Surroundings.loadEnvironment (w : Surroundings) : Except ReplayFailure (Table String) :=
  match w.firstFile (assignmentPlaces w.directory) with
  | none => .ok w.environment
  | some bytes =>
    match loadAssignments w.environment (byteLines bytes).1 with
    | none => .error (.crash .panic)
    | some environment => .ok environment

/-- The settings and the rule of a replay. -/
def Surroundings.settings (w : Surroundings) (a : Arguments) :
    Except ReplayFailure (Settings × Rule) := do
  let environment ← w.loadEnvironment
  let capacity? := (environment.get? capacityVariable).map String.toUTF8
  let s ← (Settings.ofFile capacity? a.settings (w.content a.settings)).mapError (.error ∘ .settings)
  match Rule.forSource s.source with
  | none => throw (.error (.noRule s.source))
  | some rule => return (s, rule)

/-- Everything up to the input. -/
def Surroundings.start (w : Surroundings) (a : Arguments) : Except ReplayFailure (Settings × Service) := do
  let (s, rule) ← w.settings a
  return (s, ← startRelay w.grants s rule)

/-- Replays with these arguments. -/
def Surroundings.replayWith (w : Surroundings) (a : Arguments) :
    Except ReplayFailure Unit × List ByteArray :=
  match w.start a with
  | .error e => (.error e, [])
  | .ok (s, service) =>
    match w.input a with
    | .error e => (.error (.error e), [])
    | .ok bytes =>
      let (lines, fault?) := byteLines bytes
      match service.relayLines s lines, fault? with
      | (.error e, output), _ => (.error (.error e), output)
      | (.ok (), output), none => (.ok (), output)
      | (.ok (), output), some fault => (.error (.error (.encoding fault)), output)

/-- The status is 2 for arguments that are refused and 1 for errors. -/
def Surroundings.replay (w : Surroundings) : ReplayResult :=
  match CommandLine.ofArguments w.arguments with
  | .help => ⟨0, [], none⟩
  | .refused => ⟨2, [], none⟩
  | .run a =>
    match w.replayWith a with
    | (.ok (), output) => ⟨0, output, none⟩
    | (.error (.error e), output) => ⟨1, output, some e⟩
    | (.error (.crash c), output) => ⟨c.status, output, none⟩

end AlertRelay
