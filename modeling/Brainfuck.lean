import Brainfuck.Batch
import Brainfuck.Bracket
import Brainfuck.Calendar
import Brainfuck.Command
import Brainfuck.CommandLine.Arguments
import Brainfuck.CommandLine.Flag
import Brainfuck.CommandLine.Run
import Brainfuck.CommandLine.Settings
import Brainfuck.CommandLine.Usage
import Brainfuck.CommandLine.Word
import Brainfuck.Config
import Brainfuck.Config.Draft
import Brainfuck.Config.Environment
import Brainfuck.Config.File
import Brainfuck.Config.Overlay
import Brainfuck.Debugger
import Brainfuck.Debugger.Console
import Brainfuck.Debugger.Order
import Brainfuck.Debugger.View
import Brainfuck.Decimal.Numeral
import Brainfuck.Decimal.Shortest
import Brainfuck.Device
import Brainfuck.EnvFile
import Brainfuck.Error
import Brainfuck.Error.Report
import Brainfuck.FileTree
import Brainfuck.Json.Error
import Brainfuck.Json.Reader
import Brainfuck.Machine
import Brainfuck.Main
import Brainfuck.Origin
import Brainfuck.Program
import Brainfuck.Run
import Brainfuck.Scan
import Brainfuck.Script
import Brainfuck.Session
import Brainfuck.Stream
import Brainfuck.Tape
import Brainfuck.Text.Basic
import Brainfuck.Text.Blank
import Brainfuck.Text.Chunks
import Brainfuck.Text.Digit
import Brainfuck.Text.Encoding
import Brainfuck.Text.Lines
import Brainfuck.Text.Lowercase
import Brainfuck.Text.Pieces
import Brainfuck.Text.Printable
import Brainfuck.Text.Quoted
import Brainfuck.Text.Utf8
import Brainfuck.Value
import Brainfuck.Value.SetOrder
import Brainfuck.Value.Sorted
import Brainfuck.WordSize
import Brainfuck.Yaml.Assembly
import Brainfuck.Yaml.Binary
import Brainfuck.Yaml.Cursor
import Brainfuck.Yaml.Error
import Brainfuck.Yaml.Merge
import Brainfuck.Yaml.Node
import Brainfuck.Yaml.Number
import Brainfuck.Yaml.Reader
import Brainfuck.Yaml.Resolution
import Brainfuck.Yaml.Scalar
import Brainfuck.Yaml.ScalarValue
import Brainfuck.Yaml.Tag
import Brainfuck.Yaml.Timestamp
import Brainfuck.Yaml.Token
import Brainfuck.Yaml.Tree
import Brainfuck.Proofs.Balance
import Brainfuck.Proofs.Linking
import Brainfuck.Proofs.Parsing
import Brainfuck.Proofs.Effect
import Brainfuck.Proofs.Lockstep
import Brainfuck.Proofs.Safety
import Brainfuck.Proofs.Structured
import Brainfuck.Proofs.Memory
import Brainfuck.Proofs.Blame
import Brainfuck.Proofs.Drafts
import Brainfuck.Proofs.Failure
import Brainfuck.Proofs.Truncation
import Brainfuck.Proofs.Interchange
import Brainfuck.Proofs.Isolation
import Brainfuck.Proofs.Debugging
import Brainfuck.Proofs.Logging
import Brainfuck.Proofs.Decoding
import Brainfuck.Proofs.Strictness
import Brainfuck.Proofs.Parts
import Brainfuck.Proofs.Concatenation
import Brainfuck.Proofs.Comments
import Brainfuck.Proofs.Shifting
import Brainfuck.Proofs.SinkCalls
import Brainfuck.Proofs.Flushing
import Brainfuck.Proofs.Unread
import Brainfuck.Proofs.Wording
import Brainfuck.Proofs.Validation
import Brainfuck.Proofs.Overlays
import Brainfuck.Proofs.Sections
import Brainfuck.Proofs.Layers
import Brainfuck.Proofs.Provenance
import Brainfuck.Proofs.JsonValues
import Brainfuck.Proofs.JsonReading
import Brainfuck.Proofs.ConfigFiles
import Brainfuck.Proofs.Files
import Brainfuck.Proofs.BatchRuns
import Brainfuck.Proofs.OutputFile
import Brainfuck.Proofs.ExitCodes
import Brainfuck.Proofs.Scanning
import Brainfuck.Proofs.Tables
import Brainfuck.Proofs.Extent
import Brainfuck.Proofs.Resuming
import Brainfuck.Proofs.FirstByte
import Brainfuck.Proofs.Orders
import Brainfuck.Proofs.Conversation
import Brainfuck.Proofs.Windows
import Brainfuck.Proofs.StraightLine
import Brainfuck.Proofs.OverlayLaws
import Brainfuck.Proofs.Spellings
import Brainfuck.Proofs.Columns
import Brainfuck.Proofs.Store
import Brainfuck.Proofs.Trimming
