/-! Failures of broker operations. What a client does about a failure depends
on its class alone. -/

namespace AlertRelay

inductive FailureClass
  /-- A publish was not confirmed. -/
  | notDelivered
  /-- The channel failed; a fresh one can be used at once. -/
  | channel
  /-- The connection is gone. -/
  | connection
  /-- Anything else. -/
  | other
deriving DecidableEq, Repr

/-- `unusableKey` carries what the pattern library says about a binding key, and
`injected` failures are queued from outside, with any class and text. -/
inductive BrokerFailure
  | notConnected
  | kindConflict (exchange : String)
  | noQueue (queue : String)
  | noExchange (exchange : String)
  | unknownTag (tag : Nat)
  | unroutable (exchange key : String)
  | unusableKey (text : String)
  | injected (kind : FailureClass) (text : String)
deriving DecidableEq, Repr

namespace BrokerFailure

def kind : BrokerFailure → FailureClass
  | notConnected => .connection
  | kindConflict _ | noQueue _ | noExchange _ | unknownTag _ | unusableKey _ => .channel
  | unroutable _ _ => .notDelivered
  | injected k _ => k

def reason : BrokerFailure → String
  | notConnected => "not connected"
  | kindConflict e => "PRECONDITION_FAILED - exchange '" ++ e ++ "' declared with a different type"
  | noQueue q => "NOT_FOUND - no queue '" ++ q ++ "'"
  | noExchange e => "NOT_FOUND - no exchange '" ++ e ++ "'"
  | unknownTag t => "PRECONDITION_FAILED - unknown delivery tag " ++ toString t
  | unroutable e k => "unroutable message for '" ++ e ++ "' with key '" ++ k ++ "'"
  | unusableKey text => "invalid binding key: " ++ text
  | injected _ text => text

end BrokerFailure

def FailureClass.lead : FailureClass → String
  | .notDelivered => "message was not delivered: "
  | .channel => "channel error: "
  | .connection => "connection error: "
  | .other => "broker error: "

def BrokerFailure.message (f : BrokerFailure) : String := f.kind.lead ++ f.reason

end AlertRelay
