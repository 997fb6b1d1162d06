import AlertRelay.Alert
import AlertRelay.Alert.Wire
import AlertRelay.Broker.Basic
import AlertRelay.Broker.Failure
import AlertRelay.Broker.Operation
import AlertRelay.Decimal.FloatText
import AlertRelay.Decimal.Shortest
import AlertRelay.Json.Document
import AlertRelay.Json.Field
import AlertRelay.Json.Mismatch
import AlertRelay.Json.Numeral
import AlertRelay.Json.Printing
import AlertRelay.Json.Scan
import AlertRelay.Json.Record
import AlertRelay.Json.Value
import AlertRelay.Main
import AlertRelay.Payload.Envelope
import AlertRelay.Payload.GitHub
import AlertRelay.Proofs.Ledger
import AlertRelay.Proofs.Movement
import AlertRelay.Table
import AlertRelay.Relay.Console
import AlertRelay.Relay.Intake
import AlertRelay.Relay.Link
import AlertRelay.Relay.Outbox
import AlertRelay.Relay.Pipeline
import AlertRelay.Relay.Run
import AlertRelay.Relay.Service
import AlertRelay.Relay.Stats
import AlertRelay.Relay.Task
import AlertRelay.Replay.Arguments
import AlertRelay.Replay.Assignments
import AlertRelay.Replay.Run
import AlertRelay.Settings
import AlertRelay.Text.Character
import AlertRelay.Text.Quoted
import AlertRelay.Text.Encoding
import AlertRelay.Text.Lines
import AlertRelay.Topic.Pattern
import AlertRelay.Topic.Regex
import AlertRelay.Proofs.Tracked
import AlertRelay.Proofs.Conservation
import AlertRelay.Proofs.Lifting
import AlertRelay.Proofs.Recording
import AlertRelay.Proofs.Account
import AlertRelay.Proofs.Bookkeeping
import AlertRelay.Proofs.Invariance
import AlertRelay.Proofs.Session
import AlertRelay.Proofs.Supervision
import AlertRelay.Proofs.Balance
import AlertRelay.Proofs.Stream
import AlertRelay.Proofs.Redelivery
import AlertRelay.Proofs.Acknowledgement
import AlertRelay.Proofs.Release
import AlertRelay.Proofs.Utf8
import AlertRelay.Proofs.LineReading
import AlertRelay.Proofs.Overflow
import AlertRelay.Proofs.Passage
import AlertRelay.Proofs.Interference
import AlertRelay.Proofs.Feeding
import AlertRelay.Proofs.ReplayOutput
import AlertRelay.Proofs.Steps
import AlertRelay.Proofs.Failures
import AlertRelay.Proofs.Recovery
import AlertRelay.Proofs.Effects
import AlertRelay.Proofs.Retries
import AlertRelay.Proofs.Window
import AlertRelay.Proofs.Matching
import AlertRelay.Proofs.TopicWords
import AlertRelay.Proofs.Routing
import AlertRelay.Proofs.Draining
import AlertRelay.Proofs.Doubles
import AlertRelay.Proofs.Numerals
import AlertRelay.Proofs.NumberText
import AlertRelay.Proofs.FloatText
import AlertRelay.Proofs.Scanning
import AlertRelay.Proofs.WireReading
import AlertRelay.Proofs.Timestamps
import AlertRelay.Proofs.Publishing
import AlertRelay.Proofs.ReadValues
import AlertRelay.Proofs.Decoding
import AlertRelay.Proofs.Growth
import AlertRelay.Proofs.Schema
import AlertRelay.Proofs.Unread
import AlertRelay.Proofs.Echo
import AlertRelay.Proofs.Feedback
import AlertRelay.Proofs.RepeatedHash
import AlertRelay.Proofs.Turnover
import AlertRelay.Proofs.Refusal
import AlertRelay.Proofs.Topology
import AlertRelay.Proofs.Preparation
import AlertRelay.Proofs.SourceKeys
import AlertRelay.Proofs.Shutdown
import AlertRelay.Proofs.Waiting
import AlertRelay.Proofs.Grammar
import AlertRelay.Proofs.SettingsText
import AlertRelay.Proofs.Framing
import AlertRelay.Proofs.Utf8Faults
import AlertRelay.Proofs.Endings
import AlertRelay.Proofs.StrayBytes
import AlertRelay.Proofs.OneDocument
