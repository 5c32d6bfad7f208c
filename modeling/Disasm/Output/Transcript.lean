import Disasm.Output.Sink

/-!
# Transcripts

A transcript keeps lines with the level of their indentation and the kind of
each piece.  It never fails.
-/

namespace Disasm

namespace Transcript

/-- A line of a transcript. -/
structure Line where
  /-- The level of indentation. -/
  level : Nat := 0
  /-- The pieces with their kinds. -/
  segments : List (OutputKind × String) := []
deriving DecidableEq

/-- The text of a line. -/
def Line.text (l : Line) : String := String.join (l.segments.map (·.2))

/-- The kinds that occur in a line. -/
def Line.kinds (l : Line) : List OutputKind :=
  OutputKind.all.filter fun kind ↦ l.segments.any (·.1 = kind)

end Transcript

/-- The lines written so far and the one that is being written. -/
structure Transcript where
  /-- The lines that were ended. -/
  lines : List Transcript.Line := []
  /-- The line that is being written. -/
  current : Transcript.Line := {}
  /-- The level of lines that begin now. -/
  level : Nat := 0
deriving DecidableEq

namespace Transcript

/-- The current line, at the present level if nothing stands in it. -/
def begun (t : Transcript) : Line :=
  if t.current.segments.isEmpty then { t.current with level := t.level } else t.current

/-- Adds a piece to the current line. -/
def print (kind : OutputKind) (text : String) (t : Transcript) : Transcript :=
  { t with
    current := { t.begun with segments := t.begun.segments ++ [(kind, text)] } }

/-- Ends the current line. -/
def newline (t : Transcript) : Transcript :=
  { t with lines := t.lines ++ [t.begun], current := {} }

/-- One level deeper. -/
def indent (t : Transcript) : Transcript := { t with level := t.level + 1 }

/-- One level back. -/
def unindent (t : Transcript) : Transcript := { t with level := t.level - 1 }

/-- What an operation does to a transcript. -/
def perform (t : Transcript) : Operation → Transcript
  | .print kind text => t.print kind text
  | .newline => t.newline
  | .indent => t.indent
  | .unindent => t.unindent

instance : Sink Transcript where
  apply op := modify (·.perform op)

/-- The texts of the lines that were ended. -/
def texts (t : Transcript) : List String := t.lines.map Line.text

end Transcript

end Disasm
