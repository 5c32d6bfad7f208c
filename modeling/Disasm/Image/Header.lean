import Disasm.Bytes.Cursor
import Disasm.Bytes.Writer

/-!
# Headers of images

An image begins with twelve bytes: four that mark it, the number of entries,
the widths of the two fields of an entry, and a byte that is zero.
-/

namespace Disasm.Image

/-- The bytes that mark an image. -/
def mark : Bytes := [0x4F, 0x50, 0x49, 0x58]

/-- The number of bytes in a header. -/
def headerSize : Nat := 12

/-- What a header says. -/
structure Header where
  /-- The number of entries. -/
  entries : Nat
  /-- The bytes of an opcode field. -/
  opcodeWidth : Nat
  /-- The bytes of a position field. -/
  positionWidth : Nat
deriving DecidableEq

namespace Header

/-- The bytes of an entry. -/
def entrySize (h : Header) : Nat := h.opcodeWidth + h.positionWidth

/-- The bytes of all entries. -/
def tableSize (h : Header) : Nat := h.entries * h.entrySize

/-- Whether an opcode field can have this width. -/
def isOpcodeWidth (width : Nat) : Bool := 2 ≤ width && width ≤ 256 && width % 2 = 0

/-- Whether a position field can have this width. -/
def isPositionWidth (width : Nat) : Bool := width = 2 || width = 4 || width = 8

/-- Reads a header. -/
def reader : Cursor.Read Header := do
  let found ← Cursor.bytes mark.length
  if found ≠ mark then throw (.imageMagic mark.value found.value)
  let entries ← Cursor.uint 4
  let opcodeWidth ← Cursor.uint 2
  let positionWidth ← Cursor.uint 1
  let reserved ← Cursor.uint 1
  if !isOpcodeWidth opcodeWidth then throw (.headerOpcodeWidth opcodeWidth)
  if !isPositionWidth positionWidth then throw (.headerPositionWidth positionWidth)
  if reserved ≠ 0 then throw (.headerReserved reserved)
  return ⟨entries, opcodeWidth, positionWidth⟩

/-- The header at the start of an image. -/
def read (data : Bytes) : Except Error Header :=
  match reader { data } with
  | .ok h _ => .ok h
  | .error e _ => .error e

/-- The twelve bytes of a header. -/
def bytes (h : Header) : Bytes :=
  mark ++ Bytes.ofNat 4 h.entries ++ Bytes.ofNat 2 h.opcodeWidth
    ++ Bytes.ofNat 1 h.positionWidth ++ [0]

@[simp] theorem length_bytes (h : Header) : h.bytes.length = headerSize := by
  simp [bytes, mark, headerSize]

end Header

/-! ## Widths -/

/-- The width of the opcode fields for opcodes of at most `length` bytes: one
byte more, rounded up to an even number. -/
def opcodeFieldWidth (length : Nat) : Nat := (1 + length) + (1 + length) % 2

/-- The width of the position fields that a payload of `size` bytes asks for. -/
def positionFieldWidth (size : Nat) : Nat :=
  if size ≤ 2 ^ (16 : Nat) then 2 else if size ≤ 2 ^ (32 : Nat) then 4 else 8

/-- The width that a position needs. -/
def positionValueWidth (position : Nat) : Nat :=
  if position < 2 ^ (16 : Nat) then 2 else if position < 2 ^ (32 : Nat) then 4 else 8

end Disasm.Image
