import Disasm.Decoder.Frame
import Disasm.Instruction

/-!
# Rendering instructions

An instruction is rendered as its mnemonic and its operands, which are read
from the window in order.  Branches are relative to the first byte of the
opcode and are shown as labels.
-/

namespace Disasm

open Text.Hex (marked)

variable {σ ω : Type} [Sink σ]

namespace Operand

/-- Prints a scalar: unsigned ones in hexadecimal. -/
def renderScalar (k : Scalar) : Frame.Action σ ω Unit := do
  let bits ← Frame.read (Window.scalar k)
  let text := match k with
    | .u8 | .u16 | .u32 | .u64 => marked 1 bits
    | _ => k.text bits
  Frame.write (Output.print .value text)

/-- Prints an index with the name that the running table decoder has for it. -/
def renderSymbol (k : Scalar) : Frame.Action σ ω Unit := do
  let index ← Frame.read (Window.scalar k)
  let symbols ← Frame.ask Session.activeSymbols
  let name ← Frame.ask fun _ ↦ symbols.resolve index
  Frame.write (Output.print .value s!"#{index}")
  Frame.write (Output.print .comment s!" /* {name} */")

/-- The address that a branch from `start` leads to. -/
def target (start : Nat) (offset : Int) : Except Error Nat :=
  let address : Int := start + offset
  if 0 ≤ address ∧ address < addressBound then .ok address.toNat
  else .error (.branchTarget start offset)

/-- Prints the label that a branch from `start` leads to. -/
def renderBranch (start : Nat) (k : Scalar) : Frame.Action σ ω Unit := do
  let offset := k.signed (← Frame.read (Window.scalar k))
  let address ← Frame.ask fun _ ↦ target start offset
  Frame.write (Output.print .label (label address))

/-- Prints further branches of a jump table. -/
def renderBranches (start : Nat) : (count : Nat) → Frame.Action σ ω Unit
  | 0 => pure ()
  | count + 1 => do
    Frame.write (Output.print .operator ", ")
    renderBranch start .i32
    renderBranches start count

/-- Prints a jump table. -/
def renderTable (start : Nat) : Frame.Action σ ω Unit := do
  let size := Scalar.i32.signed (← Frame.read (Window.scalar .i32))
  if size < 0 then throw (.jumpTableSize size)
  Frame.write (Output.print .operator "[")
  match size.toNat with
  | 0 => pure ()
  | count + 1 =>
    renderBranch start .i32
    renderBranches start count
  Frame.write (Output.print .operator "]")

/-- Reads an operand and prints it. -/
def render (start : Nat) : Operand → Frame.Action σ ω Unit
  | scalar k => renderScalar k
  | sym8 => renderSymbol .u8
  | sym16 => renderSymbol .u16
  | sym32 => renderSymbol .u32
  | rel8 => renderBranch start .i8
  | rel16 => renderBranch start .i16
  | rel32 => renderBranch start .i32
  | table32 => renderTable start

/-- Reads further operands and prints them. -/
def renderRest (start : Nat) : List Operand → Frame.Action σ ω Unit
  | [] => pure ()
  | k :: ks => do
    Frame.write (Output.print .operator ", ")
    k.render start
    renderRest start ks

/-- Reads operands and prints them behind a space. -/
def renderAll (start : Nat) : List Operand → Frame.Action σ ω Unit
  | [] => pure ()
  | k :: ks => do
    Frame.write (Output.print .plain " ")
    k.render start
    renderRest start ks

end Operand

namespace Instruction

/-- Prints an instruction whose opcode has just been decoded, and ends the
line. -/
def render (opcode : Opcode) (i : Instruction) : Frame.Action σ ω Unit := do
  match i with
  | simple m => Frame.write (Output.print .keyword m)
  | operands m ks =>
    let start := (← get).input.totalRead - opcode.length
    Frame.write (Output.print .keyword m)
    Operand.renderAll start ks
  | unknown bytes =>
    Frame.write (Output.print .error (".byte " ++ Text.Hex.bytes bytes))
  Frame.write (Output.push .newline)

end Instruction

end Disasm
