import Disasm.Bytes.Writer
import Disasm.Output.Sink

/-!
# Text output

A text sink writes the pieces of the accepted kinds to a bounded writer.  The
first piece of a line that is not empty stands behind the indentation.
-/

namespace Disasm

/-- A sink that writes text. -/
structure TextSink where
  /-- Where the text goes. -/
  writer : Writer := {}
  /-- The kinds that are written. -/
  channels : Channels := .all
  /-- The spaces of one level. -/
  indentWidth : Nat := 4
  /-- The level of lines that begin now. -/
  level : Nat := 0
  /-- Whether nothing stands in the current line. -/
  lineStart : Bool := true
deriving DecidableEq

namespace TextSink

/-- Writes bytes to the writer. -/
def write (bs : Bytes) : EStateM Error TextSink Unit := fun s ↦
  match Writer.write bs s.writer with
  | .ok _ writer => .ok () { s with writer }
  | .error e writer => .error e { s with writer }

/-- The indentation of a line that begins now. -/
def padding (s : TextSink) : Bytes := List.replicate (s.level * s.indentWidth) 0x20

/-- Writes the indentation if nothing stands in the line. -/
def beginLine : EStateM Error TextSink Unit := do
  let s ← get
  if s.lineStart then
    write s.padding
    modify ({ · with lineStart := false })

/-- Writes a piece of text. -/
def print (kind : OutputKind) (text : String) : EStateM Error TextSink Unit := do
  if text.isEmpty ∨ !(← get).channels.accepts kind then return
  beginLine
  write (Text.Utf8.encode text)

/-- Ends the line. -/
def newline : EStateM Error TextSink Unit := do
  write [0x0A]
  modify ({ · with lineStart := true })

/-- What an operation does to a text sink. -/
def perform : Operation → EStateM Error TextSink Unit
  | .print kind text => print kind text
  | .newline => newline
  | .indent => modify fun s ↦ { s with level := s.level + 1 }
  | .unindent => modify fun s ↦ { s with level := s.level - 1 }

instance : Sink TextSink where
  apply := perform

end TextSink

end Disasm
