import Disasm.Bytes.Cursor
import Disasm.Operand
import Disasm.Reference

/-!
# Instructions

An instruction is a mnemonic with the kinds of its operands, or a run of bytes
that is none.  Instructions with a mnemonic have a stored form: a tag, the
mnemonic and, where there are operands, their number and their tags.
-/

namespace Disasm

/-- What stands for an opcode in a disassembly. -/
inductive Instruction
  /-- A mnemonic alone. -/
  | simple (mnemonic : String)
  /-- A mnemonic with operands. -/
  | operands (mnemonic : String) (kinds : List Operand)
  /-- Bytes that no opcode matches. -/
  | unknown (bytes : Bytes)
deriving DecidableEq

namespace Instruction

/-- The instruction with the given operands. -/
def withOperands (mnemonic : String) (kinds : List Operand) : Instruction :=
  if kinds.isEmpty then simple mnemonic else operands mnemonic kinds

/-- The mnemonic, if there is one. -/
def mnemonic? : Instruction → Option String
  | simple m | operands m _ => some m
  | unknown _ => none

/-- The kinds of the operands. -/
def kinds : Instruction → List Operand
  | operands _ ks => ks
  | _ => []

/-- Whether the instruction is a run of bytes. -/
def isUnknown : Instruction → Bool
  | unknown _ => true
  | _ => false

/-- The instruction of a reference entry: its first further field lists the
operands. -/
def ofReference (e : Reference.Entry) : Except Error Instruction :=
  match e.field? 0 with
  | none => .ok (simple e.mnemonic)
  | some list =>
    match Operand.parseList list with
    | .ok ks => .ok (withOperands e.mnemonic ks)
    | .error err => .error (.lineOperands e.opcode e.mnemonic err)

/-- An instruction as it is written down. -/
inductive Spec
  /-- Bytes that are no instruction. -/
  | unknown (bytes : Bytes)
  /-- A mnemonic, and a list of operands where there is one. -/
  | named (mnemonic : String) (operands : Option String)
deriving DecidableEq

/-- The instruction that is written down. -/
def Spec.read : Spec → Except Error Instruction
  | unknown bytes => .ok (.unknown bytes)
  | named m none => .ok (.simple m)
  | named m (some list) => (Operand.parseList list).map (withOperands m)

/-! ## Storage -/

/-- The tag of a stored mnemonic. -/
def simpleTag : UInt8 := 0x01

/-- The tag of a stored mnemonic with operands. -/
def operandsTag : UInt8 := 0x02

/-- The most operands that can be stored. -/
def maxOperands : Nat := 255

/-- The stored form of an instruction. -/
def save : Instruction → Except Error Bytes
  | simple m => do return simpleTag :: (← Bytes.sizedText m)
  | operands m ks => do
    if maxOperands < ks.length then throw (.operandCount m ks.length)
    let text ← Bytes.sizedText m
    return operandsTag :: text ++ UInt8.ofNat ks.length :: ks.map Operand.tag
  | unknown _ => throw .unknownStored

/-- The next `count` operand kinds. -/
def loadKinds : (count : Nat) → Cursor.Read (List Operand)
  | 0 => pure []
  | count + 1 => do
    let tag ← Cursor.byte
    match Operand.ofTag? tag with
    | none => throw (.operandTag tag.toNat)
    | some k => return k :: (← loadKinds count)

/-- The instruction that the tag announces. -/
def loadTagged (tag : UInt8) : Cursor.Read Instruction := do
  if tag = simpleTag then return simple (← Cursor.text)
  else if tag = operandsTag then
    let m ← Cursor.text
    let count ← Cursor.byte
    return operands m (← loadKinds count.toNat)
  else throw (.instructionTag tag.toNat)

/-- The instruction of a stored form, which must end there. -/
def load : Cursor.Read Instruction := do
  let i ← loadTagged (← Cursor.byte)
  let c ← get
  if c.hasMore then throw (.trailingBytes c.remaining)
  return i

end Instruction

end Disasm
