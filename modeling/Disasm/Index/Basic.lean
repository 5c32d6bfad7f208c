import Disasm.Bytes.Field
import Disasm.Bytes.File
import Disasm.Image.Header
import Disasm.Index.Config
import Disasm.Instruction
import Disasm.Log
import Disasm.Opcode.Field

/-!
# Indices

An index is an image that was opened: its table was read and checked, and the
descriptors behind the table are loaded on demand.  The bytes of a descriptor
reach from its position to the position of the next entry, or to the end.
-/

namespace Disasm

namespace Index

/-- How descriptors are made. -/
structure Factory (δ : Type) where
  /-- The descriptor of an opcode from its stored bytes. -/
  load : Opcode → Cursor.Read δ
  /-- The descriptor of bytes that no opcode matches. -/
  unknown : Bytes → δ

/-- Descriptors that are instructions. -/
def Factory.instruction : Factory Instruction where
  load _ := Instruction.load
  unknown := .unknown

/-- Descriptors that are the stored bytes themselves. -/
def Factory.raw : Factory Bytes where
  load _ := do Cursor.bytes (← get).remaining
  unknown bs := bs

/-- An entry of the table. -/
structure Entry where
  opcode : Opcode
  /-- Where its descriptor begins in the payload. -/
  position : Nat
deriving DecidableEq

end Index

/-- An opened image. -/
structure Index (δ : Type) where
  factory : Index.Factory δ
  file : File
  header : Image.Header
  /-- The entries in the order of the table. -/
  entries : List Index.Entry
  config : Index.Config

namespace Index

/-- Cuts a list into `count` pieces of `size`. -/
def chunks (size : Nat) : (count : Nat) → Bytes → List Bytes
  | 0, _ => []
  | count + 1, bs => bs.take size :: chunks size count (bs.drop size)

/-- Reads the entry at `index` of the table and checks it against the one
above. -/
def readEntry (header : Image.Header) (config : Config) (payload index : Nat)
    (previous : Option Entry) (field : Bytes) : Except Error Entry := do
  let opcode ← Opcode.decode (field.take header.opcodeWidth)
  if opcode.isEmpty then throw (.entryEmpty index)
  let position ← field.readUInt header.opcodeWidth header.positionWidth
  if payload < position then throw (.entryPosition position opcode payload)
  match previous with
  | none => pure ()
  | some above =>
    if position < above.position then throw (.entryPrecedes opcode above.opcode)
    if config.verifyOrder ∧ compare above.opcode opcode ≠ .lt then
      throw (.entryOrder opcode above.opcode)
  return ⟨opcode, position⟩

/-- Reads the entries from `index` on, up to the first that is wrong. -/
def readEntries (header : Image.Header) (config : Config) (payload : Nat) :
    (index : Nat) → (previous : Option Entry) → List Bytes → Except Error (List Entry)
  | _, _, [] => .ok []
  | index, previous, field :: rest => do
    let entry ← readEntry header config payload index previous field
    let entries ← readEntries header config payload (index + 1) (some entry) rest
    return entry :: entries

variable {δ : Type}

/-- Opens an image. -/
def openFile (factory : Factory δ) (config : Config) (file : File) :
    Except Error (Index δ) := do
  let header ← Image.Header.read file.data
  let table ← file.slice Image.headerSize header.tableSize
  let payload := file.length - (Image.headerSize + header.tableSize)
  let fields := chunks header.entrySize header.entries table
  let entries ← readEntries header config payload 0 none fields
  return { factory, file, header, entries, config }

/-- Where the payload begins in the file. -/
def payloadStart (ix : Index δ) : Nat := Image.headerSize + ix.header.tableSize

/-- The number of bytes in the payload. -/
def payloadSize (ix : Index δ) : Nat := ix.file.length - ix.payloadStart

/-- The length of the longest opcode. -/
def maxOpcodeLength (ix : Index δ) : Nat :=
  ix.entries.foldl (fun longest e ↦ max longest e.opcode.length) 0

/-- The opcodes in the order of the table. -/
def opcodes (ix : Index δ) : List Opcode := ix.entries.map (·.opcode)

/-- Halves the `size` entries from `base` on until one is left.  The half from
the middle on is kept, unless the entry in the middle comes behind `bs`. -/
def narrow (entries : List Entry) (bs : Bytes) (base size : Nat) : Nat :=
  if size ≤ 1 then base
  else
    let half := size / 2
    let behind := entries[base + half]?.any (·.opcode.bytes.shortlex bs = .gt)
    narrow entries bs (if behind then base else base + half) (size - half)
termination_by size

/-- The place in the table of an opcode with the given bytes.  The search relies
on the order of the table. -/
def find? (ix : Index δ) (bs : Bytes) : Option Nat :=
  let place := narrow ix.entries bs 0 ix.entries.length
  if ix.entries[place]?.any (·.opcode.bytes.shortlex bs = .eq) then some place else none

/-- Whether the table has an opcode. -/
def contains (ix : Index δ) (opcode : Opcode) : Bool := (ix.find? opcode.bytes).isSome

/-- Where the descriptor of the entry at `place` ends in the payload. -/
def stop (ix : Index δ) (place : Nat) : Nat :=
  match ix.entries[place + 1]? with
  | some next => next.position
  | none => ix.payloadSize

/-- The stored bytes of an entry that stands at `place`. -/
def stored (ix : Index δ) (place : Nat) (e : Entry) : Except Error Bytes :=
  ix.file.slice (ix.payloadStart + e.position) (ix.stop place - e.position)

/-- The descriptor of the entry at `place`.  Any failure names the opcode. -/
def load (ix : Index δ) (place : Nat) : Except Error δ :=
  match ix.entries[place]? with
  | none => .error .outOfBounds
  | some e =>
    match ix.stored place e with
    | .error err => .error (.descriptor e.opcode err)
    | .ok data =>
      match ix.factory.load e.opcode { data } with
      | .ok d _ => .ok d
      | .error err _ => .error (.descriptor e.opcode err)

/-- The descriptor of an opcode, if the table has it. -/
def descriptor (ix : Index δ) (opcode : Opcode) : Except Error (Option δ) :=
  match ix.find? opcode.bytes with
  | none => .ok none
  | some place => (ix.load place).map some

/-- The index as text. -/
def describe (ix : Index δ) : String :=
  s!"Index \x7b entries: {ix.entries.length}, opcode_width: {ix.header.opcodeWidth}, "
    ++ s!"position_width: {ix.header.positionWidth}, "
    ++ s!"max_opcode_length: {ix.maxOpcodeLength}, config: {ix.config.describe} \x7d"

/-- What is logged when an image was opened. -/
def openedRecord (ix : Index δ) : Log.Record :=
  ⟨.debug, s!"opened index: {ix.entries.length} entries, "
    ++ s!"opcode width {ix.header.opcodeWidth}, position width {ix.header.positionWidth}, "
    ++ s!"payload {ix.payloadSize} bytes"⟩

end Index

end Disasm
