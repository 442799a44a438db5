import DirWatch.Change.Action
import DirWatch.Change.Basic
import DirWatch.Change.Filter
import DirWatch.Change.FilterText
import DirWatch.Change.Json
import DirWatch.Cli.Arguments
import DirWatch.Cli.Following
import DirWatch.Cli.Lines
import DirWatch.Cli.Run
import DirWatch.Cli.Switch
import DirWatch.Cli.Usage
import DirWatch.Config.Basic
import DirWatch.Config.Json
import DirWatch.Config.Load
import DirWatch.Directory.Basic
import DirWatch.Directory.Host
import DirWatch.Directory.Journal
import DirWatch.Error.Backend
import DirWatch.Error.Io
import DirWatch.Error.Kind
import DirWatch.Error.System
import DirWatch.Error.Watch
import DirWatch.Glob.Matcher
import DirWatch.Glob.Parser
import DirWatch.Glob.Syntax
import DirWatch.Json.AnyValue
import DirWatch.Json.Number
import DirWatch.Json.ReadError
import DirWatch.Json.Reader
import DirWatch.Json.Scan
import DirWatch.Json.Shape
import DirWatch.Json.Skip
import DirWatch.Json.StringLiteral
import DirWatch.Json.Token
import DirWatch.Json.Value
import DirWatch.Main
import DirWatch.Notice.Basic
import DirWatch.Notice.Line
import DirWatch.Path.Basic
import DirWatch.Path.FileTree
import DirWatch.Pattern.Basic
import DirWatch.Pattern.Filtering
import DirWatch.Proofs.Change.FilterNames
import DirWatch.Proofs.Change.FilterTexts
import DirWatch.Proofs.Cli.EventLimit
import DirWatch.Proofs.Cli.Output
import DirWatch.Proofs.Cli.TextLines
import DirWatch.Proofs.Config.RoundTrip
import DirWatch.Proofs.Config.Settings
import DirWatch.Proofs.Directory.Chronicle
import DirWatch.Proofs.Directory.Failures
import DirWatch.Proofs.Directory.Greedy
import DirWatch.Proofs.Directory.Histories
import DirWatch.Proofs.Directory.Losses
import DirWatch.Proofs.Directory.Matching
import DirWatch.Proofs.Directory.Packing
import DirWatch.Proofs.Directory.Requests
import DirWatch.Proofs.Directory.Split
import DirWatch.Proofs.Directory.Steps
import DirWatch.Proofs.Directory.Telling
import DirWatch.Proofs.Glob.Language
import DirWatch.Proofs.Glob.PlainStart
import DirWatch.Proofs.Json.Exact
import DirWatch.Proofs.Json.Grammar
import DirWatch.Proofs.Json.Members
import DirWatch.Proofs.Json.Naming
import DirWatch.Proofs.Json.Skipping
import DirWatch.Proofs.Json.Spelling
import DirWatch.Proofs.Json.Taking
import DirWatch.Proofs.Json.Values
import DirWatch.Proofs.Json.Writing
import DirWatch.Proofs.Notice.Names
import DirWatch.Proofs.Notice.Translation
import DirWatch.Proofs.Path.Components
import DirWatch.Proofs.Path.Whereabouts
import DirWatch.Proofs.Pattern.Casing
import DirWatch.Proofs.Pattern.FirstMatch
import DirWatch.Proofs.Pattern.Literals
import DirWatch.Proofs.Record.Bytes
import DirWatch.Proofs.Record.Chains
import DirWatch.Proofs.Record.InPlace
import DirWatch.Proofs.Record.Layout
import DirWatch.Proofs.Record.NormalForm
import DirWatch.Proofs.Record.Reader
import DirWatch.Proofs.Record.RoundTrip
import DirWatch.Proofs.Session.Accounted
import DirWatch.Proofs.Session.Accounts
import DirWatch.Proofs.Session.Activity
import DirWatch.Proofs.Session.Answers
import DirWatch.Proofs.Session.Conservation
import DirWatch.Proofs.Session.Draining
import DirWatch.Proofs.Session.Fates
import DirWatch.Proofs.Session.Finality
import DirWatch.Proofs.Session.Lookup
import DirWatch.Proofs.Session.Messages
import DirWatch.Proofs.Session.Processes
import DirWatch.Proofs.Session.Reads
import DirWatch.Proofs.Session.Registration
import DirWatch.Proofs.Session.Separation
import DirWatch.Proofs.Session.Shares
import DirWatch.Proofs.Session.Silence
import DirWatch.Proofs.Session.Wakeup
import DirWatch.Proofs.Session.World
import DirWatch.Proofs.Signal.Interleavings
import DirWatch.Proofs.Text.Lossy
import DirWatch.Proofs.Text.Pieces
import DirWatch.Proofs.Watch.Account
import DirWatch.Proofs.Watch.CleanClosing
import DirWatch.Proofs.Watch.Counting
import DirWatch.Proofs.Watch.Draining
import DirWatch.Proofs.Watch.Finality
import DirWatch.Proofs.Watch.Ledger
import DirWatch.Proofs.Watch.Lives
import DirWatch.Proofs.Watch.Reporting
import DirWatch.Proofs.Watch.Room
import DirWatch.Proofs.Watch.Running
import DirWatch.Proofs.Watch.Stages
import DirWatch.Proofs.Watch.Starting
import DirWatch.Record.Basic
import DirWatch.Record.Buffer
import DirWatch.Record.Writer
import DirWatch.Session.Basic
import DirWatch.Session.Dispatch
import DirWatch.Session.Report
import DirWatch.Session.Settling
import DirWatch.Signal.Latch
import DirWatch.Signal.Worker
import DirWatch.Text.Blank
import DirWatch.Text.Decimal
import DirWatch.Text.Hex
import DirWatch.Text.Pieces
import DirWatch.Text.Printable
import DirWatch.Text.Quoted
import DirWatch.Text.Utf16
import DirWatch.Text.Utf8
import DirWatch.Watch.Basic
import DirWatch.Watch.Closing
import DirWatch.Watch.Counters
import DirWatch.Watch.Event
import DirWatch.Watch.EventRecord
import DirWatch.Watch.Handle
import DirWatch.Watch.HandleMap
import DirWatch.Watch.Lone
import DirWatch.Watch.Reading
