import Disasm.Instruction

/-!
# Descriptors

An image stores a descriptor for each opcode.  Saving a descriptor gives its
bytes; it may also change the descriptor, and it may fail.
-/

namespace Disasm.Image

/-- A type of descriptors that can be saved. -/
class Descriptor (δ : Type) where
  /-- The stored form, and the descriptor after it was asked for. -/
  save : δ → Except Error Bytes × δ

instance : Descriptor Instruction where
  save i := (i.save, i)

/-- A descriptor of one of four sorts. -/
inductive Payload
  /-- An instruction. -/
  | instruction (i : Instruction)
  /-- The given bytes. -/
  | blob (bytes : Bytes)
  /-- A number of zeros, one more each time. -/
  | growing (count : Nat)
  /-- A descriptor that cannot be saved. -/
  | failing
deriving DecidableEq

instance : Descriptor Payload where
  save
    | .instruction i => (i.save, .instruction i)
    | .blob bytes => (.ok bytes, .blob bytes)
    | .growing count => (.ok (List.replicate count 0), .growing (count + 1))
    | .failing => (.error (.other "descriptor failed"), .failing)

end Disasm.Image
