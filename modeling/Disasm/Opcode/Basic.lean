import Disasm.Bytes.Order
import Disasm.Text.Hex

/-!
# Opcodes

An opcode is a sequence of at most 255 bytes.  Opcodes are ordered by length
first and then byte by byte, so that the table of an index lists short opcodes
before long ones.
-/

namespace Disasm

/-- The greatest number of bytes in an opcode. -/
def maxOpcodeLength : Nat := 255

/-- A sequence of at most 255 bytes. -/
structure Opcode where
  /-- The bytes, in stream order. -/
  bytes : Bytes
  /-- A length fits into one byte. -/
  length_le : bytes.length ≤ maxOpcodeLength
deriving DecidableEq

/-- Byte lists compared element by element, a proper beginning first. -/
def Bytes.lexicographic : Bytes → Bytes → Ordering
  | [], [] => .eq
  | [], _ :: _ => .lt
  | _ :: _, [] => .gt
  | a :: as, b :: bs => (compare a b).then (Bytes.lexicographic as bs)

/-- Byte lists compared by length, then element by element. -/
def Bytes.shortlex (a b : Bytes) : Ordering :=
  (compare a.length b.length).then (a.lexicographic b)

namespace Opcode

/-- The number of bytes. -/
def length (o : Opcode) : Nat := o.bytes.length

/-- Whether there are no bytes. -/
def isEmpty (o : Opcode) : Bool := o.bytes.isEmpty

/-- The opcode of no bytes. -/
def empty : Opcode := ⟨[], by decide⟩

/-- Shorter opcodes first, equally long ones byte by byte. -/
instance : Ord Opcode := ⟨fun a b ↦ a.bytes.shortlex b.bytes⟩

/-- The bytes in capitals, one space apart. -/
def text (o : Opcode) : String := Text.Hex.bytes o.bytes

/-- The text that names the type too. -/
def describe (o : Opcode) : String := "Opcode(" ++ o.text ++ ")"

end Opcode

end Disasm
