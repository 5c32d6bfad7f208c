import Disasm.Error
import Disasm.Text.Blank

/-!
# Opcodes from bytes and from text

An opcode is taken from a byte list whole, from a part of one, or from a text
of bytes in hexadecimal between blanks.
-/

namespace Disasm.Opcode

/-- The opcode of the given bytes. -/
def ofBytes (bs : Bytes) : Except Error Opcode :=
  if h : bs.length ≤ maxOpcodeLength then .ok ⟨bs, h⟩
  else .error (.opcodeTooLong bs.length)

/-- The opcode of the `length` bytes at `offset`. -/
def ofSlice (bs : Bytes) (offset length : Nat) : Except Error Opcode :=
  if maxOpcodeLength < length then .error (.opcodeTooLong length)
  else
    match bs.slice? offset length with
    | none => .error .outOfBounds
    | some part => ofBytes part

/-- The byte that a word of an opcode text spells. -/
def parseWord (text : String) (word : List Char) : Except Error UInt8 :=
  match Text.Hex.pair? word with
  | some b => .ok b
  | none => .error (.opcodeByte (String.ofList word) text)

/-- The opcode of a text: its words are the bytes. -/
def parse (text : String) : Except Error Opcode := do
  let bs ← (Text.words text.toList).mapM (parseWord text)
  ofBytes bs

end Disasm.Opcode
