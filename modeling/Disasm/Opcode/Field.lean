import Disasm.Opcode.Parse

/-!
# Opcodes in fields of a fixed width

A field holds the length of an opcode, its bytes, and zeros up to its end.  A
field is one byte longer than the longest opcode it can hold.
-/

namespace Disasm.Opcode

/-- The field with the opcode written over it: the bytes behind the opcode are
set to zero. -/
def encodeInto (o : Opcode) (field : Bytes) : Except Error Bytes :=
  if field.length ≤ o.length then .error (.opcodeWidth o.length field.length)
  else
    .ok (UInt8.ofNat o.length :: o.bytes ++ (field.drop (o.length + 1)).map fun _ ↦ 0)

/-- A field keeps its width. -/
theorem length_of_encodeInto {o : Opcode} {field bs : Bytes}
    (h : o.encodeInto field = .ok bs) : bs.length = field.length := by
  rw [encodeInto] at h
  split at h
  · cases h
  · cases h
    simp only [List.cons_append, List.length_cons, List.length_append, List.length_map,
      List.length_drop]
    have : o.bytes.length = o.length := rfl
    omega

/-- The field of `width` bytes that holds the opcode. -/
def encode (o : Opcode) (width : Nat) : Except Error Bytes :=
  o.encodeInto (List.replicate width 0)

/-- The opcode that a field holds.  What follows it is not looked at. -/
def decode (field : Bytes) : Except Error Opcode :=
  match field with
  | [] => .error .outOfBounds
  | length :: _ => ofSlice field 1 length.toNat

end Disasm.Opcode
