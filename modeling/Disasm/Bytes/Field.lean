import Disasm.Bytes.Scalar
import Disasm.Error

/-!
# Fields of a byte list

A field is a run of bytes at an offset.  Scalars are read and written in either
byte order; unsigned fields have any width from one to eight bytes, lowest byte
first.  A field that does not lie inside the list fails and changes nothing.
-/

namespace Disasm.Bytes

/-- The bytes with those at `offset` replaced. -/
def overwrite (data : Bytes) (offset : Nat) (bs : Bytes) : Bytes :=
  data.take offset ++ bs ++ data.drop (offset + bs.length)

theorem length_overwrite {data bs : Bytes} {offset : Nat}
    (h : offset + bs.length ≤ data.length) :
    (data.overwrite offset bs).length = data.length := by
  simp only [overwrite, List.length_append, List.length_take, List.length_drop]
  omega

/-- What was written is found again. -/
theorem slice?_overwrite {data bs : Bytes} {offset : Nat}
    (h : offset + bs.length ≤ data.length) (small : offset + bs.length < addressBound) :
    (data.overwrite offset bs).slice? offset bs.length = some bs := by
  refine slice?_eq_some_iff.2 ⟨small, ?_, ?_⟩
  · rwa [length_overwrite h]
  · have : (data.take offset).length = offset := by
      rw [List.length_take]
      omega
    rw [overwrite, List.append_assoc, List.drop_left' this, List.take_left]

/-- Replaces the bytes at `offset`, if all of them are there. -/
def writeAt (data : Bytes) (offset : Nat) (bs : Bytes) : Except Error Bytes :=
  match data.slice? offset bs.length with
  | none => .error .outOfBounds
  | some _ => .ok (data.overwrite offset bs)

/-- The bit pattern of the scalar at `offset`. -/
def readScalar (data : Bytes) (order : ByteOrder) (k : Scalar) (offset : Nat) :
    Except Error Nat :=
  match data.slice? offset k.size with
  | none => .error .outOfBounds
  | some bs => .ok (order.value bs)

/-- Writes a scalar at `offset`. -/
def writeScalar (data : Bytes) (order : ByteOrder) (k : Scalar) (offset bits : Nat) :
    Except Error Bytes :=
  data.writeAt offset (order.bytes k.size bits)

/-- The widths of an unsigned field. -/
def isFieldWidth (width : Nat) : Bool := 1 ≤ width && width ≤ 8

/-- The unsigned field of `width` bytes at `offset`. -/
def readUInt (data : Bytes) (offset width : Nat) : Except Error Nat :=
  if !isFieldWidth width then .error (.fieldWidth width)
  else
    match data.slice? offset width with
    | none => .error .outOfBounds
    | some bs => .ok bs.value

/-- Writes an unsigned field of `width` bytes at `offset`. -/
def writeUInt (data : Bytes) (offset width value : Nat) : Except Error Bytes :=
  if !isFieldWidth width then .error (.fieldWidth width)
  else if 256 ^ width ≤ value then .error (.fieldValue value width)
  else data.writeAt offset (Bytes.ofNat width value)

end Disasm.Bytes
