import Disasm.Bytes.Field

/-!
# Fields one after the other

An area is a byte list with an offset, at which its next field is read or written.
An access moves the offset behind the field; an access that fails leaves the bytes
and the offset.  Unsigned fields are accessed as words: the bytes of a field are
shifted into a word, and of a word as many bytes are written as the field has.
-/

namespace Disasm

namespace Bytes

/-- The word that bytes make up if they are shifted into it, the last one first. -/
def word (bs : Bytes) : UInt64 := bs.foldr (fun b w ↦ w <<< 8 ||| b.toUInt64) 0

/-- The unsigned field of `width` bytes at `offset` as a word. -/
def readWord (data : Bytes) (offset width : Nat) : Except Error UInt64 :=
  if !isFieldWidth width then .error (.fieldWidth width)
  else
    match data.slice? offset width with
    | none => .error .outOfBounds
    | some bs => .ok bs.word

/-- Whether something of a word is above its lowest `width` bytes.  A word is never
shifted by all of its bits: eight bytes hold every word. -/
def exceeds (value : UInt64) (width : Nat) : Bool :=
  width < 8 && value >>> UInt64.ofNat (8 * width) != 0

/-- Writes a word into an unsigned field of `width` bytes at `offset`. -/
def writeWord (data : Bytes) (offset width : Nat) (value : UInt64) : Except Error Bytes :=
  if !isFieldWidth width then .error (.fieldWidth width)
  else if exceeds value width then .error (.fieldValue value.toNat width)
  else data.writeAt offset ((Bytes.ofNat 8 value.toNat).take width)

end Bytes

/-- A byte list with the offset of its next field. -/
structure Area where
  /-- All bytes. -/
  data : Bytes
  /-- Where the next field begins. -/
  offset : Nat
deriving DecidableEq

namespace Area

/-- An access to the field at the offset.  The area survives a failure. -/
abbrev Access := EStateM Error Area

/-- Reads the field of `size` bytes at the offset. -/
def read {α : Type} (size : Nat) (field : Bytes → Nat → Except Error α) : Access α := fun a ↦
  match field a.data a.offset with
  | .error e => .error e a
  | .ok value => .ok value { a with offset := a.offset + size }

/-- Writes the field of `size` bytes at the offset. -/
def write (size : Nat) (field : Bytes → Nat → Except Error Bytes) : Access Unit := fun a ↦
  match field a.data a.offset with
  | .error e => .error e a
  | .ok data => .ok () { data, offset := a.offset + size }

/-- The bit pattern of a scalar. -/
def readScalar (order : ByteOrder) (k : Scalar) : Access Nat :=
  read k.size fun data offset ↦ data.readScalar order k offset

/-- Writes the bit pattern of a scalar. -/
def writeScalar (order : ByteOrder) (k : Scalar) (bits : Nat) : Access Unit :=
  write k.size fun data offset ↦ data.writeScalar order k offset bits

/-- An unsigned field of `width` bytes. -/
def readWord (width : Nat) : Access UInt64 :=
  read width fun data offset ↦ data.readWord offset width

/-- Writes an unsigned field of `width` bytes. -/
def writeWord (width : Nat) (value : UInt64) : Access Unit :=
  write width fun data offset ↦ data.writeWord offset width value

end Area

end Disasm
