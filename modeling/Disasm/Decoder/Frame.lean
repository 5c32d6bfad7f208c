import Disasm.Decoder.Settings
import Disasm.Log
import Disasm.Output.Queue
import Disasm.Symbols
import Disasm.Window.Basic

/-!
# Frames

A frame is what a running decoder works on: the window it reads, the output it
writes, and the session around them.  The session knows which decoders are
running, innermost last, and keeps the log.  A part `ω` of it is left open.
-/

namespace Disasm

/-- A running decoder. -/
structure Binding where
  /-- The name it was called by. -/
  name : String
  /-- The symbols of a table decoder; other decoders have none. -/
  symbols : Option Symbols
deriving DecidableEq

namespace Binding

/-- Whether the decoder is a table decoder. -/
def isTable (b : Binding) : Bool := b.symbols.isSome

/-- The type of table decoders in messages. -/
def tableType : String := "opscope::disassembler::decoder::TableDecoder"

/-- The running table decoder as text. -/
def describe (b : Binding) : String :=
  let name := Text.quoted b.name
  let type := Text.quoted tableType
  s!"ActiveDecoder \x7b name: {name}, type_name: {type} \x7d"

end Binding

/-- What goes on around a decoder. -/
structure Session (ω : Type) where
  /-- The running decoders, innermost last. -/
  running : List Binding := []
  /-- What was logged. -/
  log : Log := []
  /-- Whatever else is shared. -/
  world : ω

namespace Session

variable {ω : Type}

/-- The innermost running decoder. -/
def active (s : Session ω) : Except Error Binding :=
  match s.running.getLast? with
  | some b => .ok b
  | none => .error .noActiveDecoder

/-- The symbols of the innermost running decoder, which must be a table
decoder. -/
def activeSymbols (s : Session ω) : Except Error Symbols := do
  let b ← s.active
  match b.symbols with
  | some symbols => return symbols
  | none => throw (.decoderType Binding.tableType b.name)

/-- The session with a decoder running in it. -/
def enter (b : Binding) (s : Session ω) : Session ω :=
  { s with running := s.running ++ [b] }

/-- The session with only the first `depth` decoders running. -/
def leave (depth : Nat) (s : Session ω) : Session ω :=
  { s with running := s.running.take depth }

/-- The session with a record added to the log. -/
def record (r : Log.Record) (s : Session ω) : Session ω := { s with log := s.log ++ [r] }

end Session

/-- What a running decoder works on. -/
structure Frame (σ ω : Type) where
  input : Window
  output : Output σ
  session : Session ω

namespace Frame

/-- Work on a frame.  The frame survives a failure. -/
abbrev Action (σ ω : Type) := EStateM Error (Frame σ ω)

variable {σ ω α : Type}

/-- Work on the window of a frame. -/
def read (action : Window.Action α) : Action σ ω α := fun f ↦
  match action f.input with
  | .ok a input => .ok a { f with input }
  | .error e input => .error e { f with input }

/-- Work on the output of a frame. -/
def write (action : Output.Action σ α) : Action σ ω α := fun f ↦
  match action f.output with
  | .ok a output => .ok a { f with output }
  | .error e output => .error e { f with output }

/-- What the session of a frame answers. -/
def ask (question : Session ω → Except Error α) : Action σ ω α := fun f ↦
  match question f.session with
  | .ok a => .ok a f
  | .error e => .error e f

/-- Adds a record to the log. -/
def record (r : Log.Record) : Action σ ω Unit :=
  modify fun f ↦ { f with session := f.session.record r }

/-- The outcome of an action, a failure included. -/
def attempt (action : Action σ ω α) : Action σ ω (Except Error α) := fun f ↦
  match action f with
  | .ok a f' => .ok (.ok a) f'
  | .error e f' => .ok (.error e) f'

end Frame

end Disasm
