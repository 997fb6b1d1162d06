/-! What a relay counts. -/

namespace AlertRelay

/-- `received` counts messages that were pulled, `acknowledged` those whose
acknowledgement succeeded, and `rejected` those that yield no alerts because
they are not recognized. `buffered`, `published` and `dropped` count alerts,
`notDelivered` publishes that were not confirmed. -/
structure Stats where
  received : Nat := 0
  acknowledged : Nat := 0
  rejected : Nat := 0
  buffered : Nat := 0
  published : Nat := 0
  dropped : Nat := 0
  notDelivered : Nat := 0
  channelErrors : Nat := 0
  hasPublished : Bool := false
deriving DecidableEq, Repr

namespace Stats

def receive (s : Stats) : Stats := { s with received := s.received + 1 }

def acknowledge (s : Stats) : Stats := { s with acknowledged := s.acknowledged + 1 }

def reject (s : Stats) : Stats := { s with rejected := s.rejected + 1 }

def buffer (s : Stats) : Stats := { s with buffered := s.buffered + 1 }

def publish (s : Stats) : Stats := { s with published := s.published + 1, hasPublished := true }

def drop (s : Stats) : Stats := { s with dropped := s.dropped + 1 }

def refuse (s : Stats) : Stats := { s with notDelivered := s.notDelivered + 1 }

def loseChannel (s : Stats) : Stats := { s with channelErrors := s.channelErrors + 1 }

end Stats

/-- A report of the counters with the number of alerts that wait. -/
structure StatsReport where
  stats : Stats
  pending : Nat
deriving DecidableEq, Repr

end AlertRelay
