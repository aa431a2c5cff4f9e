import ServerProbe.Anomaly
import ServerProbe.Call.Table
import ServerProbe.Check.Answers
import ServerProbe.Check.Await
import ServerProbe.Check.Failure
import ServerProbe.Check.Record
import ServerProbe.Check.Workspace
import ServerProbe.CommandLine.Arguments
import ServerProbe.CommandLine.Help
import ServerProbe.CommandLine.Run
import ServerProbe.Connection.Basic
import ServerProbe.Connection.Command
import ServerProbe.Connection.Step
import ServerProbe.Decimal.Binary64
import ServerProbe.Decimal.Literal
import ServerProbe.Decimal.Shortest
import ServerProbe.Dialogue
import ServerProbe.Document.Staging
import ServerProbe.Document.Store
import ServerProbe.Document.TextEdit
import ServerProbe.Document.WorkspaceEdit
import ServerProbe.Failure
import ServerProbe.File.Path
import ServerProbe.File.Tree
import ServerProbe.File.Uri
import ServerProbe.Fixture.Basic
import ServerProbe.Fixture.Reader
import ServerProbe.Fixture.Replay
import ServerProbe.Fixture.Report
import ServerProbe.Framing.Decoder
import ServerProbe.Framing.Header
import ServerProbe.Framing.Stream
import ServerProbe.Json.Basic
import ServerProbe.Json.Containment
import ServerProbe.Json.Printer
import ServerProbe.Json.Reader
import ServerProbe.Json.Shape
import ServerProbe.Main
import ServerProbe.Method
import ServerProbe.Mock.Handler
import ServerProbe.Mock.Scenario
import ServerProbe.Mock.Server
import ServerProbe.Mock.World
import ServerProbe.Routine.Basic
import ServerProbe.Routine.Client
import ServerProbe.Rpc.Envelope
import ServerProbe.Rpc.Message
import ServerProbe.Server.Backoff
import ServerProbe.Server.Dial
import ServerProbe.Server.Endpoint
import ServerProbe.Server.Spawned
import ServerProbe.Session.Basic
import ServerProbe.Session.Capabilities
import ServerProbe.Session.Payload
import ServerProbe.Session.State
import ServerProbe.Settings.Basic
import ServerProbe.Settings.Toml
import ServerProbe.Shell.Formatted
import ServerProbe.Shell.Interpreter
import ServerProbe.Shell.Pattern
import ServerProbe.Shell.Process
import ServerProbe.Shell.Reader
import ServerProbe.Shell.State
import ServerProbe.Shell.Syntax
import ServerProbe.Span
import ServerProbe.Text.Blank
import ServerProbe.Text.Quoted
import ServerProbe.Text.Unprintable
import ServerProbe.Text.Utf8
import ServerProbe.Proofs.Call.Table
import ServerProbe.Proofs.Call.Deadline
import ServerProbe.Proofs.Call.Quarantine
import ServerProbe.Proofs.Call.Memory
import ServerProbe.Proofs.Call.Ledger
import ServerProbe.Proofs.Connection.Deed
import ServerProbe.Proofs.Connection.Output
import ServerProbe.Proofs.Connection.Accounting
import ServerProbe.Proofs.Connection.Handshake
import ServerProbe.Proofs.Connection.Correlation
import ServerProbe.Proofs.Connection.Passage
import ServerProbe.Proofs.Session.Negotiation
import ServerProbe.Proofs.Connection.Lifecycle
import ServerProbe.Proofs.Framing.Header
import ServerProbe.Proofs.Framing.Marker
import ServerProbe.Proofs.Framing.Advance
import ServerProbe.Proofs.Framing.Feed
import ServerProbe.Proofs.Framing.Chunking
import ServerProbe.Proofs.Framing.LengthLine
import ServerProbe.Proofs.Framing.RoundTrip
import ServerProbe.Proofs.Framing.Resync
import ServerProbe.Proofs.Text.Plain
import ServerProbe.Proofs.Connection.Filing
import ServerProbe.Proofs.Connection.Conservation
import ServerProbe.Proofs.Connection.Discourse
import ServerProbe.Proofs.Connection.Mirror
import ServerProbe.Proofs.Mock.Attendance
import ServerProbe.Proofs.Connection.Afterword
import ServerProbe.Proofs.Document.Draft
import ServerProbe.Proofs.Mock.Stretch
import ServerProbe.Proofs.Mock.Survey
import ServerProbe.Proofs.Mock.Applying
import ServerProbe.Proofs.Mock.Refusal
import ServerProbe.Proofs.Connection.Revision
import ServerProbe.Proofs.Mock.Currency
import ServerProbe.Proofs.File.Tree
import ServerProbe.Proofs.Mock.Rewriting
import ServerProbe.Proofs.Connection.Twin
import ServerProbe.Proofs.Connection.Noise
import ServerProbe.Proofs.Connection.Wait
import ServerProbe.Proofs.Connection.Retraction
import ServerProbe.Proofs.Json.Members
import ServerProbe.Proofs.Rpc.Envelope
import ServerProbe.Proofs.Rpc.RoundTrip
import ServerProbe.Proofs.Connection.Stopping
import ServerProbe.Proofs.Mock.Farewell
import ServerProbe.Proofs.Call.Expiry
import ServerProbe.Proofs.Json.Containment
import ServerProbe.Proofs.Document.TextEdit
import ServerProbe.Proofs.Mock.Updating
import ServerProbe.Proofs.Framing.Footprint
import ServerProbe.Proofs.Connection.Recall
import ServerProbe.Proofs.Check.Record
import ServerProbe.Proofs.Json.Mismatch
import ServerProbe.Proofs.Text.Replacement
import ServerProbe.Proofs.Fixture.Step
import ServerProbe.Proofs.Fixture.Filling
import ServerProbe.Proofs.Mock.Visit
import ServerProbe.Proofs.Fixture.Verdict
import ServerProbe.Proofs.Json.Order
import ServerProbe.Proofs.Fixture.Weakening
import ServerProbe.Proofs.Server.Backoff
import ServerProbe.Proofs.Document.Offset
import ServerProbe.Proofs.Connection.Holders
import ServerProbe.Proofs.Mock.Bracket
