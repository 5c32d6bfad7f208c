import Disasm.Text.Hex
import Disasm.Text.Blank
import Disasm.Text.Utf8
import Disasm.Text.Unprinted
import Disasm.Text.Quoted
import Disasm.Decimal.Shortest
import Disasm.Decimal.Binary
import Disasm.Bytes.Order
import Disasm.Bytes.Scalar
import Disasm.Bytes.Field
import Disasm.Bytes.Area
import Disasm.Bytes.Groups
import Disasm.Bytes.Cursor
import Disasm.Bytes.Cursor.Program
import Disasm.Bytes.Source
import Disasm.Bytes.Writer
import Disasm.Bytes.File
import Disasm.Opcode.Basic
import Disasm.Opcode.Parse
import Disasm.Opcode.Field
import Disasm.Error
import Disasm.Value
import Disasm.Log
import Disasm.Window.Basic
import Disasm.Window.Program
import Disasm.Output.Kind
import Disasm.Output.Sink
import Disasm.Output.Transcript
import Disasm.Output.TextSink
import Disasm.Output.Queue
import Disasm.Reference
import Disasm.Symbols
import Disasm.Operand
import Disasm.Instruction
import Disasm.Image.Header
import Disasm.Image.Descriptor
import Disasm.Image.Builder
import Disasm.Index.Config
import Disasm.Index.Basic
import Disasm.Index.Lookup
import Disasm.Index.Program
import Disasm.Decoder.Settings
import Disasm.Decoder.Frame
import Disasm.Decoder.Render
import Disasm.Decoder.Table
import Disasm.Decoder.Range
import Disasm.Script.Device
import Disasm.Script.Basic
import Disasm.Script.World
import Disasm.Script.Run
import Disasm.Proofs.Bytes.Source
import Disasm.Proofs.Bytes.Reads
import Disasm.Proofs.Window.Fill
import Disasm.Proofs.Action
import Disasm.Proofs.Text.Utf8
import Disasm.Proofs.Bytes.Cursor
import Disasm.Proofs.Bytes.Shortage
import Disasm.Proofs.Bytes.Groups
import Disasm.Proofs.Bytes.Fewest
import Disasm.Proofs.Bytes.Area
import Disasm.Proofs.Bytes.Confinement
import Disasm.Proofs.Instruction
import Disasm.Proofs.Instruction.SelfDelimiting
import Disasm.Proofs.Image.Builder
import Disasm.Proofs.Image.Layout
import Disasm.Proofs.Image.Saving
import Disasm.Proofs.Image.Accounting
import Disasm.Proofs.Image.History
import Disasm.Proofs.Image.Bounded
import Disasm.Proofs.Image.Header
import Disasm.Proofs.Window.Reading
import Disasm.Proofs.Window.Delivery
import Disasm.Proofs.Window.Tape
import Disasm.Proofs.Window.Arrival
import Disasm.Proofs.Window.Progress
import Disasm.Proofs.Window.Skip
import Disasm.Proofs.Window.Closure
import Disasm.Proofs.Window.Drawing
import Disasm.Proofs.Window.Steps
import Disasm.Proofs.Window.Faithful
import Disasm.Proofs.Opcode.Order
import Disasm.Proofs.Opcode.Parse
import Disasm.Proofs.Index.Search
import Disasm.Proofs.Index.Table
import Disasm.Proofs.Index.Match
import Disasm.Proofs.Index.Lookup
import Disasm.Proofs.Index.RoundTrip
import Disasm.Proofs.Opcode.Field
import Disasm.Proofs.Window.Rollback
import Disasm.Proofs.Decoder.Render
import Disasm.Proofs.Decoder.Lines
import Disasm.Proofs.Index.Progress
import Disasm.Proofs.Decoder.Tiling
import Disasm.Proofs.Index.Format
import Disasm.Proofs.Index.Slices
import Disasm.Proofs.Index.Truncation
import Disasm.Proofs.Index.Scan
import Disasm.Proofs.Index.Retry
import Disasm.Proofs.Coupling
import Disasm.Proofs.Window.Likeness
import Disasm.Proofs.Index.Drawing
import Disasm.Proofs.Output.Likeness
import Disasm.Proofs.Decoder.SideBySide
import Disasm.Proofs.Window.Limit
import Disasm.Proofs.Decoder.Limit
import Disasm.Proofs.Decoder.Overflow
import Disasm.Proofs.Output.Deferred
import Disasm.Proofs.Output.Replay
import Disasm.Proofs.Text.Hex
import Disasm.Proofs.Decoder.Restart
import Disasm.Proofs.Decoder.Spelling
import Disasm.Proofs.Decoder.Branches
import Disasm.Proofs.Output.Rendering
import Disasm.Proofs.Reference
import Disasm.Proofs.Decoder.Scope
import Disasm.Proofs.Script.Scene
