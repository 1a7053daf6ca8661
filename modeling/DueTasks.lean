import DueTasks.Calendar.Civil
import DueTasks.Calendar.ClockTime
import DueTasks.Calendar.Date
import DueTasks.Calendar.DateReader
import DueTasks.Calendar.FullDate
import DueTasks.Calendar.Period
import DueTasks.Calendar.PeriodReader
import DueTasks.CommandLine.Parser
import DueTasks.CommandLine.Request
import DueTasks.Files.Archive
import DueTasks.Files.FileSystem
import DueTasks.Files.Jail
import DueTasks.Files.Listing
import DueTasks.Files.Path
import DueTasks.Files.Place
import DueTasks.Files.Tree
import DueTasks.Helper.Duration
import DueTasks.Helper.Machine
import DueTasks.Helper.Output
import DueTasks.Main
import DueTasks.Program.Run
import DueTasks.Proofs.Asking
import DueTasks.Proofs.Calendar.DateClamping
import DueTasks.Proofs.Calendar.DateReading
import DueTasks.Proofs.Calendar.DateSpelling
import DueTasks.Proofs.Calendar.DateText
import DueTasks.Proofs.Calendar.PeriodExactness
import DueTasks.Proofs.Calendar.PeriodPrinting
import DueTasks.Proofs.Calendar.PeriodReading
import DueTasks.Proofs.DoneName.Edits
import DueTasks.Proofs.DoneName.Ending
import DueTasks.Proofs.DoneName.HelperLines
import DueTasks.Proofs.DoneName.Recurring
import DueTasks.Proofs.DoneName.Repeating
import DueTasks.Proofs.DoneName.Replaying
import DueTasks.Proofs.DoneName.Rereading
import DueTasks.Proofs.DoneName.Rewriting
import DueTasks.Proofs.Evaluation.Builtins
import DueTasks.Proofs.Evaluation.Elementary
import DueTasks.Proofs.Evaluation.Elsewhere
import DueTasks.Proofs.Evaluation.Flags
import DueTasks.Proofs.Evaluation.HelperDates
import DueTasks.Proofs.Evaluation.Lockstep
import DueTasks.Proofs.Evaluation.Noting
import DueTasks.Proofs.Evaluation.Order
import DueTasks.Proofs.Evaluation.PlainErrors
import DueTasks.Proofs.Evaluation.Questions
import DueTasks.Proofs.Evaluation.Records
import DueTasks.Proofs.Evaluation.References
import DueTasks.Proofs.Evaluation.Runs
import DueTasks.Proofs.Evaluation.SameText
import DueTasks.Proofs.Evaluation.Schedule
import DueTasks.Proofs.Evaluation.Steps
import DueTasks.Proofs.Files.Blindness
import DueTasks.Proofs.Files.Components
import DueTasks.Proofs.Files.Confinement
import DueTasks.Proofs.Files.Directories
import DueTasks.Proofs.Files.HelperPaths
import DueTasks.Proofs.Files.ListedTasks
import DueTasks.Proofs.Files.ListingOrder
import DueTasks.Proofs.Files.Lookup
import DueTasks.Proofs.Files.NativePaths
import DueTasks.Proofs.Files.PathOrder
import DueTasks.Proofs.Files.TaskPlaces
import DueTasks.Proofs.Helper.Deadlines
import DueTasks.Proofs.Helper.Protocol
import DueTasks.Proofs.Program.Crashes
import DueTasks.Proofs.Program.Registries
import DueTasks.Proofs.Registry.Callers
import DueTasks.Proofs.Registry.Cycles
import DueTasks.Proofs.Registry.Declarations
import DueTasks.Proofs.Registry.Index
import DueTasks.Proofs.Registry.Invariants
import DueTasks.Proofs.Registry.Isolation
import DueTasks.Proofs.Registry.Memoization
import DueTasks.Proofs.Registry.Monotonicity
import DueTasks.Proofs.Registry.Once
import DueTasks.Proofs.Registry.PlainBatches
import DueTasks.Proofs.Registry.Queries
import DueTasks.Proofs.Registry.Recomputation
import DueTasks.Proofs.Registry.Reordering
import DueTasks.Proofs.Registry.Steady
import DueTasks.Proofs.Registry.Worlds
import DueTasks.Proofs.Report.PlainLines
import DueTasks.Proofs.Task.Quotes
import DueTasks.Proofs.Text.Border
import DueTasks.Proofs.Text.Decimal
import DueTasks.Proofs.Text.Lines
import DueTasks.Proofs.Text.OneLine
import DueTasks.Proofs.Text.Passage
import DueTasks.Proofs.Text.Reading
import DueTasks.Proofs.Text.Trimming
import DueTasks.Proofs.Trigger.Assembly
import DueTasks.Proofs.Trigger.CallReading
import DueTasks.Proofs.Trigger.Completion
import DueTasks.Proofs.Trigger.Coverage
import DueTasks.Proofs.Trigger.Derivation
import DueTasks.Proofs.Trigger.Ending
import DueTasks.Proofs.Trigger.Exchange
import DueTasks.Proofs.Trigger.Locality
import DueTasks.Proofs.Trigger.NodeReading
import DueTasks.Proofs.Trigger.Parsing
import DueTasks.Proofs.Trigger.PlainTexts
import DueTasks.Proofs.Trigger.Printing
import DueTasks.Proofs.Trigger.Reply
import DueTasks.Proofs.Trigger.Spans
import DueTasks.Proofs.Trigger.SuffixPrinting
import DueTasks.Proofs.Trigger.SuffixReading
import DueTasks.Proofs.Trigger.Tiling
import DueTasks.Proofs.Trigger.Viability
import DueTasks.Proofs.Trigger.WordArguments
import DueTasks.Proofs.Trigger.WordEnds
import DueTasks.Proofs.Trigger.WordReading
import DueTasks.Report.Cbor
import DueTasks.Report.Datum
import DueTasks.Report.Format
import DueTasks.Report.Json
import DueTasks.Report.TaskReport
import DueTasks.Script.Arithmetic
import DueTasks.Script.Builtin
import DueTasks.Script.Command
import DueTasks.Script.Expansion
import DueTasks.Script.Interpreter
import DueTasks.Script.Parser
import DueTasks.Script.Pattern
import DueTasks.Script.Process
import DueTasks.Script.Program
import DueTasks.Script.Source
import DueTasks.Script.Tool
import DueTasks.Settings.Basic
import DueTasks.Settings.Reader
import DueTasks.Task.Builtins
import DueTasks.Task.Context
import DueTasks.Task.DoneName
import DueTasks.Task.Entry
import DueTasks.Task.Environment
import DueTasks.Task.Error
import DueTasks.Task.Evaluation
import DueTasks.Task.Registry
import DueTasks.Text.Blank
import DueTasks.Text.Cursor
import DueTasks.Text.Decimal
import DueTasks.Text.Lines
import DueTasks.Text.Mismatch
import DueTasks.Text.Numeral
import DueTasks.Text.Parts
import DueTasks.Text.Span
import DueTasks.Text.Utf8
import DueTasks.Trigger.Parser
import DueTasks.Trigger.Syntax
import DueTasks.Trigger.SyntaxError
import DueTasks.Yaml.Block
import DueTasks.Yaml.Document
import DueTasks.Yaml.Line
import DueTasks.Yaml.Plain
import DueTasks.Yaml.Quoted
import DueTasks.Yaml.Scalar
