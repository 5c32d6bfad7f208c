import Disasm.Decoder.Render
import Disasm.Index.Lookup

/-!
# Table decoders

A table decoder looks up instruction after instruction and prints one line for
each.  The line of an instruction is held back until all of it was read, so
that a failure leaves no part of it.  An instruction that the end cuts off is
told in a line of its own and ends the work.
-/

namespace Disasm

/-- What a table decoder knows. -/
structure Table where
  index : Index Instruction
  symbols : Symbols := {}
  /-- Whether the longest opcode is looked for. -/
  eager : Bool

namespace Table

open Text.Hex (marked)

variable {σ ω : Type} [Sink σ]

/-- The table decoder of an index. -/
def ofIndex (index : Index Instruction) : Table := { index, eager := index.config.eager }

/-- Looks up the next instruction and logs what was found. -/
def next (t : Table) : Frame.Action σ ω (Option (Index.Lookup Instruction)) := do
  let offset := (← get).input.totalRead
  let found ← Frame.read (t.index.lookup t.eager)
  Frame.record (Index.lookupRecord offset found)
  return found

/-- Begins the line of an instruction. -/
def printLabel (offset : Nat) : Frame.Action σ ω Unit :=
  Frame.write (Output.print .label (label offset ++ ": "))

/-- Takes back what was read of an instruction and drops its line. -/
def takeBack : Frame.Action σ ω Unit :=
  modify fun f ↦ { f with
    input := (f.input.discard none).setAutoCommit true
    output := f.output.discard }

/-- Whether a decoder goes on. -/
inductive Progress
  | more
  | finished
deriving DecidableEq

/-- Prints what was found; the line is held back until all of it was read. -/
def renderFound (name : String) (found : Index.Lookup Instruction) :
    Frame.Action σ ω Progress := do
  let opcode := found.opcode?.getD .empty
  Frame.write (Output.setAutoCommit false)
  modify fun f ↦ { f with input := f.input.setAutoCommit false }
  printLabel found.offset
  match ← Frame.attempt (found.descriptor.render opcode) with
  | .ok _ =>
    modify fun f ↦ { f with input := f.input.setAutoCommit true }
    Frame.write (Output.setAutoCommit true)
    return .more
  | .error .outOfBounds =>
    takeBack
    Frame.record ⟨.warn,
      s!"{name}: instruction [{opcode.text}] at {marked 1 found.offset} is truncated"⟩
    printLabel found.offset
    let mnemonic := found.descriptor.mnemonic?.getD "instruction"
    Frame.write (Output.println .error s!"<truncated {mnemonic}>")
    Frame.write (Output.setAutoCommit true)
    return .finished
  | .error e =>
    takeBack
    Frame.write (Output.setAutoCommit true)
    throw e

/-- Prints at most `count` instructions. -/
def renderFor (t : Table) (name : String) : (count : Nat) → Frame.Action σ ω Unit
  | 0 => pure ()
  | count + 1 => do
    match ← t.next with
    | none => pure ()
    | some found =>
      match ← renderFound name found with
      | .finished => pure ()
      | .more => t.renderFor name count

/-- Prints all instructions up to the end of the window.  Each takes at least
one byte, so their number is bounded. -/
def run (t : Table) (name : String) : Frame.Action σ ω Unit := fun f ↦
  t.renderFor name (Index.reserve f.input + 1) f

/-- The table decoder of the given settings as text. -/
def describe (t : Table) (settings : Settings) : String :=
  s!"TableDecoder \x7b settings: {settings.describe}, index: {t.index.describe}, "
    ++ s!"symbols: {t.symbols.size}, eager: {t.eager} \x7d"

end Table

end Disasm
