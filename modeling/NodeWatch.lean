import NodeWatch.Bytes.Base64
import NodeWatch.Bytes.Hex
import NodeWatch.Chain
import NodeWatch.CommandLine.Flag
import NodeWatch.CommandLine.Help
import NodeWatch.CommandLine.Invocation
import NodeWatch.CommandLine.Options
import NodeWatch.CommandLine.Suggestion
import NodeWatch.Cookie
import NodeWatch.Dashboard.Element
import NodeWatch.Dashboard.Gauge
import NodeWatch.Dashboard.Keys
import NodeWatch.Dashboard.Pages
import NodeWatch.Dashboard.ResultPanel
import NodeWatch.Dashboard.Screen
import NodeWatch.Dashboard.Strip
import NodeWatch.Dashboard.Tab
import NodeWatch.Dashboard.Tree
import NodeWatch.Decimal.Basic
import NodeWatch.Decimal.Fixed
import NodeWatch.Decimal.Numeral
import NodeWatch.Decimal.Shortest
import NodeWatch.Double.Arithmetic
import NodeWatch.Double.Basic
import NodeWatch.Json.Access
import NodeWatch.Json.Document
import NodeWatch.Json.Error
import NodeWatch.Json.Parser
import NodeWatch.Json.Printer
import NodeWatch.Json.Value
import NodeWatch.Lookup.Navigation
import NodeWatch.Lookup.PoolTag
import NodeWatch.Lookup.Reading
import NodeWatch.Lookup.Result
import NodeWatch.Lookup.Saved
import NodeWatch.Lookup.Stage
import NodeWatch.Main
import NodeWatch.Monitor.Poll
import NodeWatch.Monitor.Reading
import NodeWatch.Monitor.Redraw
import NodeWatch.Monitor.Saved
import NodeWatch.Monitor.Search
import NodeWatch.Monitor.Session
import NodeWatch.Monitor.Slide
import NodeWatch.Monitor.Snapshot
import NodeWatch.Monitor.Supervisor
import NodeWatch.Path
import NodeWatch.Program
import NodeWatch.Proofs.Bytes.Base64
import NodeWatch.Proofs.Bytes.Hex
import NodeWatch.Proofs.Bytes.HexRoundTrip
import NodeWatch.Proofs.CommandLine.Occurrences
import NodeWatch.Proofs.Cookie
import NodeWatch.Proofs.Dashboard.Drawing
import NodeWatch.Proofs.Dashboard.Highlight
import NodeWatch.Proofs.Dashboard.KeyMachine
import NodeWatch.Proofs.Dashboard.Scrolling
import NodeWatch.Proofs.Dashboard.Strip
import NodeWatch.Proofs.Decimal.Digits
import NodeWatch.Proofs.Decimal.Shortest
import NodeWatch.Proofs.Decimal.Significant
import NodeWatch.Proofs.Double.Apart
import NodeWatch.Proofs.Double.Bounds
import NodeWatch.Proofs.Double.Integers
import NodeWatch.Proofs.Double.Nearest
import NodeWatch.Proofs.Double.Overflow
import NodeWatch.Proofs.Double.Rounding
import NodeWatch.Proofs.Double.Whole
import NodeWatch.Proofs.Json.Canonical
import NodeWatch.Proofs.Json.Entries
import NodeWatch.Proofs.Json.Failing
import NodeWatch.Proofs.Json.Fields
import NodeWatch.Proofs.Json.Floats
import NodeWatch.Proofs.Json.Grammar
import NodeWatch.Proofs.Json.LastEntry
import NodeWatch.Proofs.Json.Normal
import NodeWatch.Proofs.Json.Paths
import NodeWatch.Proofs.Json.Places
import NodeWatch.Proofs.Json.Reading
import NodeWatch.Proofs.Json.Room
import NodeWatch.Proofs.Json.RoundTrip
import NodeWatch.Proofs.Json.Scanning
import NodeWatch.Proofs.Json.Sendable
import NodeWatch.Proofs.Json.Steps
import NodeWatch.Proofs.Json.Truncation
import NodeWatch.Proofs.Json.Writing
import NodeWatch.Proofs.Lookup.Course
import NodeWatch.Proofs.Lookup.Figures
import NodeWatch.Proofs.Lookup.Navigation
import NodeWatch.Proofs.Lookup.PoolTag
import NodeWatch.Proofs.Monitor.Acts
import NodeWatch.Proofs.Monitor.BlockList
import NodeWatch.Proofs.Monitor.Browsing
import NodeWatch.Proofs.Monitor.Clock
import NodeWatch.Proofs.Monitor.Coalescing
import NodeWatch.Proofs.Monitor.Cursors
import NodeWatch.Proofs.Monitor.Delivery
import NodeWatch.Proofs.Monitor.Escaping
import NodeWatch.Proofs.Monitor.Events
import NodeWatch.Proofs.Monitor.Figures
import NodeWatch.Proofs.Monitor.LateResult
import NodeWatch.Proofs.Monitor.OneLookup
import NodeWatch.Proofs.Monitor.Polls
import NodeWatch.Proofs.Monitor.Refusals
import NodeWatch.Proofs.Monitor.Schedule
import NodeWatch.Proofs.Monitor.Sliding
import NodeWatch.Proofs.Monitor.Stopping
import NodeWatch.Proofs.Monitor.Supervision
import NodeWatch.Proofs.Monitor.Watching
import NodeWatch.Proofs.Path
import NodeWatch.Proofs.Report.DateTime
import NodeWatch.Proofs.Report.Gregorian
import NodeWatch.Proofs.Report.Grouped
import NodeWatch.Proofs.Rpc.Reply
import NodeWatch.Proofs.Rpc.Request
import NodeWatch.Proofs.Rpc.Truncation
import NodeWatch.Proofs.Rpc.Verdict
import NodeWatch.Proofs.Settings.Accepted
import NodeWatch.Proofs.Settings.Credentials
import NodeWatch.Proofs.Simulation.Agreement
import NodeWatch.Proofs.Simulation.Punctual
import NodeWatch.Proofs.Simulation.Settling
import NodeWatch.Proofs.Simulation.Sleeping
import NodeWatch.Proofs.Span
import NodeWatch.Proofs.Text.Ascii
import NodeWatch.Proofs.Text.FixedWidth
import NodeWatch.Proofs.Text.Order
import NodeWatch.Proofs.Text.Utf8
import NodeWatch.Report.Amount
import NodeWatch.Report.Calendar
import NodeWatch.Report.Elapsed
import NodeWatch.Report.Grouped
import NodeWatch.Report.Shortened
import NodeWatch.Rpc.Call
import NodeWatch.Rpc.Client
import NodeWatch.Rpc.Error
import NodeWatch.Rpc.Reply
import NodeWatch.Rpc.Request
import NodeWatch.Settings
import NodeWatch.Simulation.Folder
import NodeWatch.Simulation.ScriptedNode
import NodeWatch.Simulation.Sleep
import NodeWatch.Simulation.Tasks
import NodeWatch.Simulation.Terminal
import NodeWatch.Simulation.World
import NodeWatch.Span
import NodeWatch.Text.Basic
import NodeWatch.Text.Blank
import NodeWatch.Text.CodePoint
import NodeWatch.Text.Quoted
import NodeWatch.Text.Repeated
import NodeWatch.Text.Utf8
