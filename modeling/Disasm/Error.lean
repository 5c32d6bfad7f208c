import Disasm.Opcode.Basic
import Disasm.Text.Utf8

/-!
# Errors

Every way in which reading, writing, looking up and decoding can fail, with
the facts that the message needs.  Most faults of the data are *malformed*
data; `category` tells those from the others, and `message` holds all wording.
-/

namespace Disasm

/-- A cause of failure. -/
inductive Error
  /-- A word of an opcode text that is no byte. -/
  | opcodeByte (word text : String)
  /-- A width that no unsigned field has. -/
  | fieldWidth (width : Nat)
  /-- A number that needs more bytes than its field has. -/
  | fieldValue (value width : Nat)
  /-- A fifth group of seven bits that announces a sixth. -/
  | groupOverflow
  /-- A text whose length needs more than 32 bits. -/
  | stringLength (length : Nat)
  /-- Bytes from `start` to `stop` that are no text. -/
  | stringEncoding (start stop : Nat) (fault : Text.Utf8.Fault)
  /-- An opcode field width that no image has. -/
  | headerOpcodeWidth (width : Nat)
  /-- A position field width that no image has. -/
  | headerPositionWidth (width : Nat)
  /-- A reserved byte of the header that is set. -/
  | headerReserved (byte : Nat)
  /-- More entries than an image can count. -/
  | entryCount (count : Nat)
  /-- A table entry without an opcode. -/
  | entryEmpty (entry : Nat)
  /-- A position behind the end of the payload. -/
  | entryPosition (position : Nat) (opcode : Opcode) (payload : Nat)
  /-- A position before the one of the entry above. -/
  | entryPrecedes (opcode previous : Opcode)
  /-- An opcode that does not follow the one of the entry above. -/
  | entryOrder (opcode previous : Opcode)
  /-- A line of a reference table whose opcode cannot be read. -/
  | lineOpcode (line : Nat) (text : String) (cause : Error)
  /-- A line of a reference table without an opcode. -/
  | lineNoOpcode (line : Nat)
  /-- A line of a reference table without a mnemonic. -/
  | lineNoMnemonic (line : Nat)
  /-- An entry of a reference table whose operands cannot be read. -/
  | lineOperands (opcode : Opcode) (mnemonic : String) (cause : Error)
  /-- A word that names no operand kind. -/
  | operandKind (word : String)
  /-- More operands than an instruction can have. -/
  | operandCount (mnemonic : String) (count : Nat)
  /-- A stored tag of no operand kind. -/
  | operandTag (tag : Nat)
  /-- A stored tag of no instruction shape. -/
  | instructionTag (tag : Nat)
  /-- An unknown instruction cannot be stored. -/
  | unknownStored
  /-- Bytes behind a stored instruction. -/
  | trailingBytes (count : Nat)
  /-- A branch that leaves the address range. -/
  | branchTarget (start : Nat) (offset : Int)
  /-- A jump table of negative size. -/
  | jumpTableSize (size : Int)
  /-- A number in the stream that is not the expected one. -/
  | magic (expected found : Nat)
  /-- An image that begins with other bytes than an image does. -/
  | imageMagic (expected found : Nat)
  /-- More bytes than an opcode can have. -/
  | opcodeTooLong (length : Nat)
  /-- An opcode that does not fit into its field. -/
  | opcodeWidth (length width : Nat)
  /-- A descriptor that wrote another number of bytes than it had announced. -/
  | descriptorSize (opcode : Opcode) (declared written : Nat)
  /-- A stored descriptor that cannot be loaded. -/
  | descriptor (opcode : Opcode) (cause : Error)
  /-- Bytes that are not there. -/
  | outOfBounds
  /-- Nothing where something is needed. -/
  | empty
  /-- An index that the symbol table does not have. -/
  | unknownSymbol (index : Nat)
  /-- No decoder is running. -/
  | noActiveDecoder
  /-- The running decoder is of another type. -/
  | decoderType (expected actual : String)
  /-- The source refuses to be read. -/
  | readDenied
  /-- The writer takes no more bytes. -/
  | writerFull
  /-- The writer cannot be flushed. -/
  | flushFailed
  /-- There is no such file. -/
  | noSuchFile
  /-- Any other failure, with its text. -/
  | other (text : String)
deriving DecidableEq

namespace Error

/-- The families of errors. -/
inductive Category
  | malformed | magicMismatch | opcodeTooLong | opcodeWidth | descriptorSize
  | descriptor | outOfBounds | empty | unknownSymbol | noActiveDecoder
  | decoderType | file | other
deriving DecidableEq

/-- The family of an error. -/
def category : Error → Category
  | magic .. | imageMagic .. => .magicMismatch
  | opcodeTooLong _ => .opcodeTooLong
  | opcodeWidth .. => .opcodeWidth
  | descriptorSize .. => .descriptorSize
  | descriptor .. => .descriptor
  | outOfBounds => .outOfBounds
  | empty => .empty
  | unknownSymbol _ => .unknownSymbol
  | noActiveDecoder => .noActiveDecoder
  | decoderType .. => .decoderType
  | readDenied | writerFull | flushFailed | noSuchFile => .file
  | other _ => .other
  | _ => .malformed

/-- An integer with its sign, also a positive one. -/
def withSign (n : Int) : String :=
  if 0 ≤ n then "+" ++ toString n else toString n

open Text.Hex (marked)

/-- The wording of an error. -/
def message : Error → String
  | opcodeByte word text => s!"Malformed - Invalid opcode byte '{word}' in '{text}'"
  | fieldWidth width => s!"Malformed - Invalid unsigned field width - {width}"
  | fieldValue value width =>
    s!"Malformed - Value {marked 1 value} does not fit into {width} bytes"
  | groupOverflow =>
    "Malformed - 7-bit encoded integer overflow: value exceeds u32 capacity after 35 bits"
  | stringLength length => s!"Malformed - String of {length} bytes is too long"
  | stringEncoding start stop fault =>
    s!"Malformed - Invalid UTF-8 string at offset {start}-{stop}: {fault.message}"
  | headerOpcodeWidth width => s!"Malformed - Invalid opcode field width - {width}"
  | headerPositionWidth width => s!"Malformed - Invalid position field width - {width}"
  | headerReserved byte => s!"Malformed - Reserved header byte is {marked 2 byte}"
  | entryCount count => s!"Malformed - Too many entries - {count}"
  | entryEmpty entry => s!"Malformed - Empty opcode at entry {entry}"
  | entryPosition position opcode payload =>
    s!"Malformed - Position {marked 1 position} of [{opcode.text}] lies outside the payload of {payload} bytes"
  | entryPrecedes opcode previous =>
    s!"Malformed - Position of [{opcode.text}] precedes the position of [{previous.text}]"
  | entryOrder opcode previous =>
    s!"Malformed - Entry [{opcode.text}] is not ordered after [{previous.text}]"
  | lineOpcode line text cause =>
    s!"Malformed - Line {line}: invalid opcode '{text}' - " ++ cause.message
  | lineNoOpcode line => s!"Malformed - Line {line}: missing opcode"
  | lineNoMnemonic line => s!"Malformed - Line {line}: missing mnemonic"
  | lineOperands opcode mnemonic cause =>
    s!"Malformed - Operands of [{opcode.text}] {mnemonic} - " ++ cause.message
  | operandKind word => s!"Malformed - Unknown operand kind '{word}'"
  | operandCount mnemonic count =>
    s!"Malformed - {mnemonic} has {count} operands, at most 255 are supported"
  | operandTag tag => s!"Malformed - Invalid operand tag {marked 2 tag}"
  | instructionTag tag => s!"Malformed - Invalid instruction tag {marked 2 tag}"
  | unknownStored => "Malformed - Unknown instructions can not be persisted"
  | trailingBytes count =>
    s!"Malformed - {count} trailing bytes after instruction descriptor"
  | branchTarget start offset =>
    s!"Malformed - Branch target {marked 1 start}{withSign offset} is out of range"
  | jumpTableSize size => s!"Malformed - Negative jump table size {size}"
  | magic expected found =>
    s!"Magic mismatch - expected {marked 1 expected}, found {marked 1 found}"
  | imageMagic expected found =>
    s!"Magic mismatch - expected {marked 8 expected}, found {marked 8 found}"
  | opcodeTooLong length => s!"Opcode length {length} exceeds the maximum of 255 bytes"
  | opcodeWidth length width =>
    s!"Opcode of length {length} does not fit into an encoding width of {width}"
  | descriptorSize opcode declared written =>
    s!"Descriptor for opcode [{opcode.text}] declared {declared} bytes but wrote {written}"
  | descriptor opcode cause =>
    s!"Failed to load descriptor for opcode [{opcode.text}] - " ++ cause.message
  | outOfBounds => "Out of Bound read would have occurred!"
  | empty => "Provided input was empty"
  | unknownSymbol index => s!"Unknown symbol - {index}"
  | noActiveDecoder => "No decoder is active on this thread"
  | decoderType expected actual => s!"Active decoder '{actual}' is not a {expected}"
  | readDenied => "denied"
  | writerFull => "sink full"
  | flushFailed => "flush failed"
  | noSuchFile => "No such file or directory (os error 2)"
  | other text => text

end Error

end Disasm
