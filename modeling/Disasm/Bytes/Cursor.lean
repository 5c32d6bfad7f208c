import Disasm.Bytes.Scalar
import Disasm.Bytes.Groups

/-!
# Cursors

A cursor reads a byte list from any place.  A read that fails leaves the cursor
where it was, but for the two readers that consume as they go: a number in
groups of seven bits and a text behind its length.
-/

namespace Disasm

/-- A place in a byte list. -/
structure Cursor where
  /-- All bytes. -/
  data : Bytes
  /-- The byte order of plain scalar reads. -/
  order : ByteOrder := .little
  /-- The number of bytes before the cursor. -/
  position : Nat := 0
deriving DecidableEq

namespace Cursor

/-- A read that moves a cursor.  The cursor survives a failure. -/
abbrev Read := EStateM Error Cursor

/-- The number of bytes from the cursor to the end. -/
def remaining (c : Cursor) : Nat := c.data.length - c.position

/-- Whether a byte follows. -/
def hasMore (c : Cursor) : Bool := c.position < c.data.length

/-- Moves to `position`, at most to the end. -/
def seek (position : Nat) : Read Unit := fun c ↦
  if c.data.length < position then .error .outOfBounds c
  else .ok () { c with position }

/-- The position `count` bytes on, if those bytes are there. -/
def endOf (count : Nat) : Read Nat := fun c ↦
  match c.data.slice? c.position count with
  | none => .error .outOfBounds c
  | some _ => .ok (c.position + count) c

/-- Skips `count` bytes. -/
def advance (count : Nat) : Read Unit := do
  let position ← endOf count
  modify ({ · with position })

/-- The next `count` bytes. -/
def bytes (count : Nat) : Read Bytes := fun c ↦
  match c.data.slice? c.position count with
  | none => .error .outOfBounds c
  | some bs => .ok bs { c with position := c.position + count }

/-- The next byte, which stays. -/
def peek : Read UInt8 := fun c ↦
  match c.data[c.position]? with
  | none => .error .outOfBounds c
  | some b => .ok b c

/-- The next byte. -/
def byte : Read UInt8 := do
  let b ← peek
  modify fun c ↦ { c with position := c.position + 1 }
  return b

/-- The bit pattern of a scalar in the given byte order. -/
def scalarIn (order : ByteOrder) (k : Scalar) : Read Nat := do
  return order.value (← bytes k.size)

/-- The bit pattern of a scalar in the cursor's byte order. -/
def scalar (k : Scalar) : Read Nat := do
  scalarIn (← get).order k

/-- An unsigned field of one to eight bytes, lowest byte first. -/
def uint (width : Nat) : Read Nat := do
  if width = 0 ∨ 8 < width then throw (.fieldWidth width)
  return (← bytes width).value

/-- The groups of seven bits that follow the first `index`, whose value is
`value`; at most `count` of them.  Bits above the thirty-second are lost. -/
def groups : (count index value : Nat) → Read Nat
  | 0, _, _ => throw .groupOverflow
  | count + 1, index, value => do
    let b ← byte
    let value := value + b.toNat % 128 * 128 ^ index
    if b.toNat < 128 then return value % 2 ^ (32 : Nat)
    groups count (index + 1) value

/-- A number in groups of seven bits. -/
def int7 : Read Nat := groups 5 0 0

/-- A text behind its length. -/
def text : Read String := do
  let length ← int7
  let start := (← get).position
  let bs ← bytes length
  match Text.Utf8.decode bs with
  | .ok s => return s
  | .error fault => throw (.stringEncoding start (start + length) fault)

/-- Runs a read and moves back if it fails. -/
def transactional {α : Type} (read : Read α) : Read α := fun c ↦
  match read c with
  | .ok a c' => .ok a c'
  | .error e c' => .error e { c' with position := c.position }

end Cursor

end Disasm
