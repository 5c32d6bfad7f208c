import Disasm.Decoder.Range
import Disasm.Decoder.Table
import Disasm.Script.Device
import Disasm.Window.Program

/-!
# Scripts

A script is a decoder that is written out: a program of window steps, output
steps and steps that render operands and instructions, ask which decoder is
running, and call other decoders by name.
-/

namespace Disasm

namespace Script

/-- What a call decodes. -/
inductive Input
  /-- A source of its own. -/
  | source (s : Source)
  /-- The next bytes of the caller. -/
  | take (count : Nat)
deriving DecidableEq

/-- A call of a decoder. -/
structure Call where
  /-- The name under which the decoder is known. -/
  decoder : String
  input : Input
  sink : Device
  range : Range := {}
  /-- A byte order that the decoder is given before. -/
  order : Option ByteOrder := none
  /-- A default limit that the decoder is given before. -/
  limit : Option (Option Nat) := none
deriving DecidableEq

/-- A step on the frame of a script. -/
inductive Act
  | output (step : Output.Step)
  /-- The scene. -/
  | scene
  /-- The name of the running decoder, which must be a table decoder. -/
  | activeTable
  /-- The name of the running decoder, which must be a script. -/
  | activeScript
  /-- Changes the running decoder's settings. -/
  | settings (order : Option ByteOrder) (limit : Option (Option Nat))
  | operand (kind : Operand) (start : Nat)
  /-- An instruction behind an opcode, both written down. -/
  | instruction (opcode : String) (spec : Instruction.Spec)
deriving DecidableEq

/-- A step beside those of the window. -/
inductive Step
  | act (act : Act)
  | call (call : Call)
deriving DecidableEq

/-- The answer of a step that succeeds. -/
inductive Answer
  | unit
  | output (answer : Output.Answer Device)
  | scene (scene : Scene)
  | name (name : String)
  | settings (settings : Settings)
  /-- The number of bytes that a call decoded. -/
  | decoded (count : Nat)

mutual

/-- What is reported about a step: its answer, the output after it, and what a
call leaves behind. -/
inductive Report
  | mk (answer : Option Answer) (output : Output Device) (call : Option CallReport)

/-- What a call leaves behind. -/
inductive CallReport
  /-- The bytes taken from the source, the device, the scene after the call,
  and the records of a script that was begun. -/
  | mk (pulled : Nat) (sink : Device) (after : Scene)
      (records : Option (List (Window.Record Report)))

end

/-- A part of a script. -/
inductive Item
  /-- Steps up to the first that fails.  The failure ends the script unless it
  is caught. -/
  | attempt (body : Window.Program Step) (catches : Bool)
  /-- Steps again and again as long as bytes follow. -/
  | whileRemaining (body : Window.Program Step) (catches : Bool)

end Script

end Disasm
