import Disasm.Bytes.Scalar
import Disasm.Error
import Disasm.Text.Blank

/-!
# Operand kinds

An instruction's operands are scalars, indices into a symbol table, branches
relative to the instruction, and jump tables.  Each kind has a name for texts
and a tag for storage.
-/

namespace Disasm

/-- The kind of an operand. -/
inductive Operand
  /-- A plain value. -/
  | scalar (kind : Scalar)
  /-- An index into the symbol table, an unsigned scalar of the kind. -/
  | sym8 | sym16 | sym32
  /-- A branch, relative to the start of the instruction. -/
  | rel8 | rel16 | rel32
  /-- A number of branches behind their count. -/
  | table32
deriving DecidableEq

namespace Operand

/-- All kinds, by increasing tag. -/
def all : List Operand :=
  [.scalar .u8, .scalar .i8, .scalar .u16, .scalar .i16, .scalar .u32, .scalar .i32,
    .scalar .u64, .scalar .i64, .scalar .f32, .scalar .f64,
    .sym8, .sym16, .sym32, .rel8, .rel16, .rel32, .table32]

/-- The name of a kind. -/
def name : Operand → String
  | .scalar .u8 => "u8"
  | .scalar .i8 => "i8"
  | .scalar .u16 => "u16"
  | .scalar .i16 => "i16"
  | .scalar .u32 => "u32"
  | .scalar .i32 => "i32"
  | .scalar .u64 => "u64"
  | .scalar .i64 => "i64"
  | .scalar .f32 => "f32"
  | .scalar .f64 => "f64"
  | .sym8 => "sym8"
  | .sym16 => "sym16"
  | .sym32 => "sym32"
  | .rel8 => "rel8"
  | .rel16 => "rel16"
  | .rel32 => "rel32"
  | .table32 => "table32"

/-- The tag that stands for a kind in storage. -/
def tag : Operand → UInt8
  | .scalar .u8 => 0x01
  | .scalar .i8 => 0x02
  | .scalar .u16 => 0x03
  | .scalar .i16 => 0x04
  | .scalar .u32 => 0x05
  | .scalar .i32 => 0x06
  | .scalar .u64 => 0x07
  | .scalar .i64 => 0x08
  | .scalar .f32 => 0x09
  | .scalar .f64 => 0x0A
  | .sym8 => 0x10
  | .sym16 => 0x11
  | .sym32 => 0x12
  | .rel8 => 0x20
  | .rel16 => 0x21
  | .rel32 => 0x22
  | .table32 => 0x30

/-- The kind with exactly the given name. -/
def ofName? (s : String) : Option Operand := all.find? (·.name = s)

/-- The kind with the given tag. -/
def ofTag? (tag : UInt8) : Option Operand := all.find? (·.tag = tag)

/-- The kind that a word names, in either case. -/
def parseWord (word : List Char) : Except Error Operand :=
  match ofName? (String.ofList (word.map Char.toLower)) with
  | some k => .ok k
  | none => .error (.operandKind (String.ofList word))

/-- The kinds that the words of a text name.  Hyphens are left out. -/
def parseList (text : String) : Except Error (List Operand) :=
  ((Text.words text.toList).filter (· ≠ ['-'])).mapM parseWord

end Operand

/-- The label of an address. -/
def label (address : Nat) : String := "L" ++ Text.Hex.upper 4 address

end Disasm
