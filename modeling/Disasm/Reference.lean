import Disasm.Opcode.Parse

/-!
# Reference tables

A reference table is a text with one instruction a line: the opcode, the
mnemonic and further fields, with semicolons between them.  A hyphen stands for
a field that is empty.  Blank lines and lines that begin with a number sign are
left out.
-/

namespace Disasm.Reference

/-- An instruction of a reference table. -/
structure Entry where
  opcode : Opcode
  mnemonic : String
  /-- The further fields; `none` is an empty one. -/
  fields : List (Option String) := []
deriving DecidableEq

/-- The further field at `index`, if it is there and not empty. -/
def Entry.field? (e : Entry) (index : Nat) : Option String := (e.fields[index]?).join

/-- Whether a field is written as an empty one. -/
def isEmptyField (cs : List Char) : Bool := cs = [] || cs = ['-']

/-- A further field. -/
def parseField (cs : List Char) : Option String :=
  if isEmptyField cs then none else some (String.ofList cs)

/-- The fields of a line. -/
def splitLine (line : List Char) : List (List Char) :=
  ((Text.trim line).splitOn ';').map Text.trim

/-- The entry on a line of the given number. -/
def parseLine (line : List Char) (number : Nat) : Except Error Entry := do
  let fields := splitLine line
  let opcodeText := String.ofList (fields.headD [])
  let opcode ← match Opcode.parse opcodeText with
    | .ok opcode => pure opcode
    | .error e => throw (.lineOpcode number opcodeText e)
  if opcode.isEmpty then throw (.lineNoOpcode number)
  match fields.tail with
  | [] => throw (.lineNoMnemonic number)
  | mnemonic :: rest =>
    if isEmptyField mnemonic then throw (.lineNoMnemonic number)
    return ⟨opcode, String.ofList mnemonic, rest.map parseField⟩

/-- Whether a line holds an entry. -/
def isEntryLine (line : List Char) : Bool :=
  match Text.trim line with
  | [] => false
  | c :: _ => c != '#'

/-- The entries on lines numbered from `number` on. -/
def parseLines : (number : Nat) → List (List Char) → Except Error (List Entry)
  | _, [] => .ok []
  | number, line :: rest =>
    if isEntryLine line then do
      let entry ← parseLine line number
      let entries ← parseLines (number + 1) rest
      return entry :: entries
    else parseLines (number + 1) rest

/-- The entries of a reference table. -/
def parse (text : String) : Except Error (List Entry) :=
  parseLines 1 (Text.lines text.toList)

/-- The line of an entry. -/
def Entry.text (e : Entry) : String :=
  ";".intercalate (e.opcode.text :: e.mnemonic :: e.fields.map (·.getD "-"))

/-- The reference table of the given entries. -/
def format (entries : List Entry) : String :=
  String.join (entries.map (·.text ++ "\n"))

end Disasm.Reference
