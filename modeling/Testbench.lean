import Testbench.Command
import Testbench.CommandLine.Grammar
import Testbench.CommandLine.Options
import Testbench.Config.Basic
import Testbench.Config.Load
import Testbench.Config.Preset
import Testbench.Corpus.Lookup
import Testbench.Corpus.Resolve
import Testbench.Data
import Testbench.Failure
import Testbench.Json.Printer
import Testbench.Json.Reader
import Testbench.Main
import Testbench.Outcome
import Testbench.Path
import Testbench.Pattern.Braces
import Testbench.Pattern.Glob
import Testbench.Program
import Testbench.Proofs.Accounting
import Testbench.Proofs.Aggregation
import Testbench.Proofs.BraceGrammar
import Testbench.Proofs.BraceOffsets
import Testbench.Proofs.BuildGate
import Testbench.Proofs.Captures
import Testbench.Proofs.CharacterBytes
import Testbench.Proofs.Checkout
import Testbench.Proofs.CommandLines
import Testbench.Proofs.Composition
import Testbench.Proofs.ConfigureStep
import Testbench.Proofs.DefaultCommand
import Testbench.Proofs.EarlyExpansion
import Testbench.Proofs.Frames
import Testbench.Proofs.Installation
import Testbench.Proofs.Interrupts
import Testbench.Proofs.Isolation
import Testbench.Proofs.JoinedNames
import Testbench.Proofs.JsonScalars
import Testbench.Proofs.JsonText
import Testbench.Proofs.LayerStacks
import Testbench.Proofs.LiteralRoots
import Testbench.Proofs.Loading
import Testbench.Proofs.LossyText
import Testbench.Proofs.MomentText
import Testbench.Proofs.PartialChanges
import Testbench.Proofs.Precedence
import Testbench.Proofs.ProgressLine
import Testbench.Proofs.QueryChanges
import Testbench.Proofs.RecordRoundTrip
import Testbench.Proofs.RefusedPatterns
import Testbench.Proofs.ReportLines
import Testbench.Proofs.Resolution
import Testbench.Proofs.ResultOrder
import Testbench.Proofs.RiscofRuns
import Testbench.Proofs.RootUse
import Testbench.Proofs.RootedPatterns
import Testbench.Proofs.Sessions
import Testbench.Proofs.StrayBraces
import Testbench.Proofs.Streams
import Testbench.Proofs.TextOffsets
import Testbench.Proofs.Verdicts
import Testbench.Proofs.Walks
import Testbench.Record.Command
import Testbench.Record.Config
import Testbench.Record.Report
import Testbench.Report.Progress
import Testbench.Report.Result
import Testbench.Report.Text
import Testbench.Run.Build
import Testbench.Run.Capture
import Testbench.Run.Execute
import Testbench.Run.Riscof
import Testbench.Run.Session
import Testbench.Run.Tests
import Testbench.Text.Blank
import Testbench.Text.Decimal
import Testbench.Text.Hex
import Testbench.Text.Search
import Testbench.Text.Utf8
import Testbench.Time.Moment
import Testbench.Time.Span
import Testbench.Toml.Document
import Testbench.Toml.Reader
import Testbench.World.Disk
import Testbench.World.Executable
import Testbench.World.Fault
import Testbench.World.Layout
import Testbench.World.Machine
import Testbench.World.Scene
import Testbench.World.Script
