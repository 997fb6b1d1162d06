import AlertRelay.Json.Record

/-! The settings of a relay and the names that follow from them. They are read and
checked in this order: the text first, then the capacity that the environment sets,
then the limits. -/

namespace AlertRelay

structure Settings where
  name : Option String := none
  source : String := "github"
  exchange : String := "alert"
  queue : Option String := none
  bufferCapacity : Nat := 1000
  reconnectDelaySecs : Nat := 5
deriving DecidableEq, Repr

/-- The name shown in logs. -/
def Settings.displayName (s : Settings) : String := s.name.getD (s.source ++ " alerter")

def Settings.inboundQueue (s : Settings) : String := s.queue.getD (s.source ++ "_alerter_queue")

/-- The key under which results of the source arrive. -/
def Settings.inboundKey (s : Settings) : String := "alerter." ++ s.source

/-- The key under which alerts of the source are published. -/
def Settings.outboundKey (s : Settings) : String := "alert_router." ++ s.source

/-- A fifth of the buffer capacity, rounded to the nearest, at least 1 and in
16 bits, so that a burst cannot outgrow the buffer by much. -/
def Settings.prefetch (s : Settings) : Nat := max 1 (min 65535 ((s.bufferCapacity + 2) / 5))

/-- Why a text is no unsigned number of 64 bits. -/
inductive NumberFault
  | empty
  | invalidDigit
  | tooLarge
deriving DecidableEq, Repr

def NumberFault.message : NumberFault → String
  | .empty => "cannot parse integer from empty string"
  | .invalidDigit => "invalid digit found in string"
  | .tooLarge => "number too large to fit in target type"

/-- Reads digits after `value`; the first fault from the left counts. -/
def readDigits (value : Nat) : List Char → Except NumberFault Nat
  | [] => .ok value
  | c :: rest =>
    if c.isDigit then
      let next := 10 * value + (c.toNat - '0'.toNat)
      if next < UInt64.size then readDigits next rest else .error .tooLarge
    else .error .invalidDigit

/-- Reads digits, with a plus sign before them or not. -/
def readCapacity (text : String) : Except NumberFault Nat :=
  match text.toList with
  | [] => .error .empty
  | '+' :: rest => if rest.isEmpty then .error .invalidDigit else readDigits 0 rest
  | digits => readDigits 0 digits

/-- Why a path does not lead to a text. -/
inductive FileFault
  | absent
  | directory
  | notUtf8
deriving DecidableEq, Repr

def FileFault.message : FileFault → String
  | .absent => "No such file or directory (os error 2)"
  | .directory => "Is a directory (os error 21)"
  | .notUtf8 => "stream did not contain valid UTF-8"

inductive SettingsError
  | unreadable (path : String) (fault : FileFault)
  | invalid (error : ReadError)
  | notANumber (value : String) (fault : NumberFault)
  | noCapacity
  | noSource

/-- The variable that overrides the capacity. -/
def capacityVariable : String := "ALERTER_BUFFER_CAPACITY"

def SettingsError.message : SettingsError → String
  | .unreadable path _ => "Failed to read config file: " ++ path
  | .invalid e => "Invalid configuration file provided: " ++ e.message
  | .notANumber value _ => capacityVariable ++ " is not a number: " ++ value
  | .noCapacity => "buffer_capacity must be at least 1"
  | .noSource => "source must not be empty"

/-- What lies behind an error, if it is not the whole story. -/
def SettingsError.cause : SettingsError → Option String
  | .unreadable _ fault => some fault.message
  | .notANumber _ fault => some fault.message
  | .invalid _ | .noCapacity | .noSource => none

/-- The message and its cause. -/
def SettingsError.fullMessage (e : SettingsError) : String :=
  match e.cause with
  | none => e.message
  | some cause => e.message ++ ": " ++ cause

def Settings.shape : RecordShape := ⟨"Config", 6⟩

structure Settings.Draft where
  name : Option (Option String) := none
  source : Option String := none
  exchange : Option String := none
  queue : Option (Option String) := none
  bufferCapacity : Option Nat := none
  reconnectDelaySecs : Option Nat := none

def readName (d : Document) : Except ReadError (Option String) := d.scalar (Json.orNull Json.asText)
def readWord (d : Document) : Except ReadError String := d.scalar Json.asText
def readSize (d : Document) : Except ReadError Nat := d.scalar (Json.asUnsigned .size)
def readSeconds (d : Document) : Except ReadError Nat := d.scalar (Json.asUnsigned .seconds)

def Settings.Draft.member (s : Draft) (name : String) (d : Document) : Except ReadError Draft :=
  if name = "name" then do
    refuseSecond s.name name
    return { s with name := some (← readName d) }
  else if name = "source" then do
    refuseSecond s.source name
    return { s with source := some (← readWord d) }
  else if name = "exchange" then do
    refuseSecond s.exchange name
    return { s with exchange := some (← readWord d) }
  else if name = "queue" then do
    refuseSecond s.queue name
    return { s with queue := some (← readName d) }
  else if name = "buffer_capacity" then do
    refuseSecond s.bufferCapacity name
    return { s with bufferCapacity := some (← readSize d) }
  else if name = "reconnect_delay_secs" then do
    refuseSecond s.reconnectDelaySecs name
    return { s with reconnectDelaySecs := some (← readSeconds d) }
  else .ok s

/-- Every field has a default. -/
def Settings.Draft.finish (s : Draft) : Settings :=
  let base : Settings := {}
  { name := s.name.join
    source := s.source.getD base.source
    exchange := s.exchange.getD base.exchange
    queue := s.queue.join
    bufferCapacity := s.bufferCapacity.getD base.bufferCapacity
    reconnectDelaySecs := s.reconnectDelaySecs.getD base.reconnectDelaySecs }

/-- In an array `name` and `queue` have no default. -/
def Settings.reader : RecordReader Settings.Draft Settings where
  shape := Settings.shape
  blank := {}
  member := Settings.Draft.member
  finish s := .ok s.finish
  elements items closed := do
    let base : Settings := {}
    let next {α : Type} := @nextElement α Settings.shape
    let (name, items) ← next 0 none readName closed items
    let (source, items) ← next 1 (some base.source) readWord closed items
    let (exchange, items) ← next 2 (some base.exchange) readWord closed items
    let (queue, items) ← next 3 none readName closed items
    let (bufferCapacity, items) ← next 4 (some base.bufferCapacity) readSize closed items
    let (reconnectDelaySecs, items) ←
      next 5 (some base.reconnectDelaySecs) readSeconds closed items
    lastElement closed items
    return { name, source, exchange, queue, bufferCapacity, reconnectDelaySecs }

/-- Replaces the capacity by the value of the variable; a value that is no text
counts as unset. -/
def Settings.override (s : Settings) (capacity? : Option ByteArray) :
    Except SettingsError Settings :=
  match capacity?.bind String.fromUTF8? with
  | none => .ok s
  | some value =>
    match readCapacity value with
    | .ok n => .ok { s with bufferCapacity := n }
    | .error fault => .error (.notANumber value fault)

def Settings.check (s : Settings) : Except SettingsError Settings :=
  if s.bufferCapacity = 0 then .error .noCapacity
  else if s.source.isEmpty then .error .noSource
  else .ok s

/-- Reads settings from a text, given the value of the capacity variable. -/
def Settings.ofText (capacity? : Option ByteArray) (text : String) :
    Except SettingsError Settings := do
  let s ← (Settings.reader.readText text.toList).mapError .invalid
  (← s.override capacity?).check

/-- Reads settings from what a path leads to. -/
def Settings.ofFile (capacity? : Option ByteArray) (path : String)
    (content : Except FileFault ByteArray) : Except SettingsError Settings :=
  match content with
  | .error fault => .error (.unreadable path fault)
  | .ok bytes =>
    match String.fromUTF8? bytes with
    | none => .error (.unreadable path .notUtf8)
    | some text => Settings.ofText capacity? text

end AlertRelay
