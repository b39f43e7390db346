import LineQuery.Builtin.Apply
import LineQuery.Builtin.Basic
import LineQuery.CommandLine.Reply
import LineQuery.CommandLine.Request
import LineQuery.CommandLine.Session
import LineQuery.CommandLine.Switch
import LineQuery.CommandLine.Tasks
import LineQuery.Compile
import LineQuery.Diagnostic.Basic
import LineQuery.Diagnostic.Excerpt
import LineQuery.Diagnostic.Json
import LineQuery.Diagnostic.Log
import LineQuery.Digest.Fingerprint
import LineQuery.Digest.Hex
import LineQuery.Environment
import LineQuery.Files.Disk
import LineQuery.Files.Path
import LineQuery.Files.System
import LineQuery.Foreign.Arguments
import LineQuery.Foreign.Programs.Basic
import LineQuery.Foreign.Programs.ByteSet
import LineQuery.Foreign.Programs.Copy
import LineQuery.Foreign.Programs.FileTools
import LineQuery.Foreign.Programs.Find
import LineQuery.Foreign.Programs.LineTools
import LineQuery.Foreign.Programs.Shell.Arithmetic
import LineQuery.Foreign.Programs.Shell.Builtins
import LineQuery.Foreign.Programs.Shell.Condition
import LineQuery.Foreign.Programs.Shell.Expand
import LineQuery.Foreign.Programs.Shell.Fields
import LineQuery.Foreign.Programs.Shell.Lookup
import LineQuery.Foreign.Programs.Shell.Operator
import LineQuery.Foreign.Programs.Shell.Options
import LineQuery.Foreign.Programs.Shell.Parser
import LineQuery.Foreign.Programs.Shell.Pattern
import LineQuery.Foreign.Programs.Shell.Printing
import LineQuery.Foreign.Programs.Shell.ReadLine
import LineQuery.Foreign.Programs.Shell.Real
import LineQuery.Foreign.Programs.Shell.Run
import LineQuery.Foreign.Programs.Shell.Scan
import LineQuery.Foreign.Programs.Shell.Signal
import LineQuery.Foreign.Programs.Shell.State
import LineQuery.Foreign.Programs.Shell.Streams
import LineQuery.Foreign.Programs.Shell.Syntax
import LineQuery.Foreign.Programs.Shell.Token
import LineQuery.Foreign.Programs.Shell.Variables
import LineQuery.Foreign.Programs.Switches
import LineQuery.Foreign.Programs.Tools
import LineQuery.Foreign.Programs.Translate
import LineQuery.Foreign.Sha256
import LineQuery.Foreign.Toml.Basic
import LineQuery.Foreign.Toml.Document
import LineQuery.Foreign.Toml.Number
import LineQuery.Foreign.Toml.Scalar
import LineQuery.Foreign.Xxh3
import LineQuery.Main
import LineQuery.Plan.Basic
import LineQuery.Plan.Eval
import LineQuery.Plan.Run
import LineQuery.Plan.Scope
import LineQuery.Pool.Command
import LineQuery.Pool.Destination
import LineQuery.Pool.Drain
import LineQuery.Pool.LineSink
import LineQuery.Pool.Pass
import LineQuery.Pool.Report
import LineQuery.Pool.Slot
import LineQuery.Proofs.CommandLine.Invocations
import LineQuery.Proofs.CommandLine.Preparation
import LineQuery.Proofs.CommandLine.Sharing
import LineQuery.Proofs.CommandLine.Transparency
import LineQuery.Proofs.Diagnostic.Log
import LineQuery.Proofs.Diagnostic.Reports
import LineQuery.Proofs.Digest.Hex
import LineQuery.Proofs.Files.Changes
import LineQuery.Proofs.Files.Listing
import LineQuery.Proofs.Files.Places
import LineQuery.Proofs.Files.Sight
import LineQuery.Proofs.Files.Trees
import LineQuery.Proofs.Files.Within
import LineQuery.Proofs.Findings
import LineQuery.Proofs.Grammar.Derivation
import LineQuery.Proofs.Grammar.DocumentDerived
import LineQuery.Proofs.Grammar.DocumentReading
import LineQuery.Proofs.Grammar.ExprDerived
import LineQuery.Proofs.Grammar.ExprReading
import LineQuery.Proofs.Grammar.FindingPlaces
import LineQuery.Proofs.Grammar.Frame
import LineQuery.Proofs.Grammar.FrontEnd
import LineQuery.Proofs.Grammar.Placement
import LineQuery.Proofs.Grammar.Progress
import LineQuery.Proofs.Grammar.Reading
import LineQuery.Proofs.Grammar.Sizes
import LineQuery.Proofs.Grammar.Spelling
import LineQuery.Proofs.Grammar.Tiling
import LineQuery.Proofs.Grammar.TokenRuns
import LineQuery.Proofs.Grammar.TokenShape
import LineQuery.Proofs.Grammar.UseLines
import LineQuery.Proofs.Grammar.Whole
import LineQuery.Proofs.Grammar.Written
import LineQuery.Proofs.Plans.Arguments
import LineQuery.Proofs.Plans.Characters
import LineQuery.Proofs.Plans.Constants
import LineQuery.Proofs.Plans.ErrorPlaces
import LineQuery.Proofs.Plans.Faults
import LineQuery.Proofs.Plans.Guarded
import LineQuery.Proofs.Plans.IntegerArithmetic
import LineQuery.Proofs.Plans.LazyCase
import LineQuery.Proofs.Plans.NoTrap
import LineQuery.Proofs.Plans.Runnable
import LineQuery.Proofs.Plans.Safety
import LineQuery.Proofs.Pool.ArgumentStrings
import LineQuery.Proofs.Pool.Buffering
import LineQuery.Proofs.Pool.Delivery
import LineQuery.Proofs.Pool.Destinations
import LineQuery.Proofs.Pool.Drains
import LineQuery.Proofs.Pool.HandingOut
import LineQuery.Proofs.Pool.Interleaving
import LineQuery.Proofs.Pool.Phases
import LineQuery.Proofs.Pool.Shares
import LineQuery.Proofs.Pool.Shutdown
import LineQuery.Proofs.Pool.Sinks
import LineQuery.Proofs.Pool.Streams
import LineQuery.Proofs.Runs.Agreement
import LineQuery.Proofs.Runs.Demand
import LineQuery.Proofs.Runs.IntegerTexts
import LineQuery.Proofs.Runs.Literals
import LineQuery.Proofs.Runs.Pipeline
import LineQuery.Proofs.Runs.Reference
import LineQuery.Proofs.Runs.Selecting
import LineQuery.Proofs.Runs.Simulation
import LineQuery.Proofs.Runs.Trail
import LineQuery.Proofs.Scoping.Admissible
import LineQuery.Proofs.Scoping.Entries
import LineQuery.Proofs.Scoping.FindingPlaces
import LineQuery.Proofs.Scoping.Layout
import LineQuery.Proofs.Scoping.Lowering
import LineQuery.Proofs.Scoping.Resolution
import LineQuery.Proofs.Scoping.Unused
import LineQuery.Proofs.Scoping.Verdict
import LineQuery.Proofs.Script.Assembly
import LineQuery.Proofs.Script.BodyTokens
import LineQuery.Proofs.Script.Declarations
import LineQuery.Proofs.Script.Excerpts
import LineQuery.Proofs.Script.LinePositions
import LineQuery.Proofs.Script.LineTables
import LineQuery.Proofs.Script.Pieces
import LineQuery.Proofs.Script.ProgramText
import LineQuery.Proofs.Script.UserPositions
import LineQuery.Proofs.Settings.Separator
import LineQuery.Proofs.Store.Codec
import LineQuery.Proofs.Store.Damage
import LineQuery.Proofs.Store.Degrading
import LineQuery.Proofs.Store.Fitting
import LineQuery.Proofs.Store.History
import LineQuery.Proofs.Store.Image
import LineQuery.Proofs.Store.Listing
import LineQuery.Proofs.Store.Plans
import LineQuery.Proofs.Store.Race
import LineQuery.Proofs.Store.RacersAgree
import LineQuery.Proofs.Store.Shortest
import LineQuery.Proofs.Store.Soundness
import LineQuery.Proofs.Store.Territory
import LineQuery.Proofs.Text.ByteLines
import LineQuery.Proofs.Text.Columns
import LineQuery.Proofs.Text.LineReading
import LineQuery.Proofs.Text.LossyLines
import LineQuery.Proofs.Text.Occurrences
import LineQuery.Proofs.Text.StrictDecoding
import LineQuery.Proofs.Text.Utf8
import LineQuery.Script.LineTable
import LineQuery.Script.Position
import LineQuery.Script.Program
import LineQuery.Settings.Basic
import LineQuery.Settings.Location
import LineQuery.Store.Artifacts
import LineQuery.Store.Codec
import LineQuery.Store.Image
import LineQuery.Store.Plans
import LineQuery.Syntax.Cursor
import LineQuery.Syntax.ExprParser
import LineQuery.Syntax.Parser
import LineQuery.Syntax.Scan
import LineQuery.Syntax.Token
import LineQuery.Syntax.TokenRun
import LineQuery.Syntax.Tree
import LineQuery.Text.Blank
import LineQuery.Text.Casing
import LineQuery.Text.Casing.Table
import LineQuery.Text.Decimal
import LineQuery.Text.Escape
import LineQuery.Text.Lines
import LineQuery.Text.Search
import LineQuery.Text.Utf8
import LineQuery.Traced
import LineQuery.Value
