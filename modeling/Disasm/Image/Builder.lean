import Disasm.Bytes.Field
import Disasm.Image.Descriptor
import Disasm.Image.Header
import Disasm.Log
import Disasm.Opcode.Field

/-!
# Building images

A builder collects descriptors by opcode, a later one for an opcode in place of
the earlier, and writes them as an image: the header, the table with the opcode
and the position of each descriptor, and the descriptors.
-/

namespace Disasm.Image

/-- An entry of a builder. -/
structure Builder.Entry (δ : Type) where
  opcode : Opcode
  descriptor : δ
  /-- The number of bytes that the descriptor announced. -/
  size : Nat
deriving DecidableEq

/-- The entries of an image that is being built. -/
structure Builder (δ : Type) where
  /-- The entries, by increasing opcode. -/
  entries : List (Builder.Entry δ) := []
  /-- The bytes of all descriptors. -/
  payloadSize : Nat := 0
deriving DecidableEq

namespace Builder

variable {δ : Type}

/-- The entry of an opcode. -/
def entry? (opcode : Opcode) (b : Builder δ) : Option (Entry δ) :=
  b.entries.find? (·.opcode = opcode)

/-- The descriptor of an opcode. -/
def get? (opcode : Opcode) (b : Builder δ) : Option δ :=
  (b.entry? opcode).map (·.descriptor)

/-- The entries with one put in its place, where an entry of the same opcode
gives way. -/
def insertEntry (e : Entry δ) : List (Entry δ) → List (Entry δ)
  | [] => [e]
  | first :: rest =>
    match compare e.opcode first.opcode with
    | .lt => e :: first :: rest
    | .eq => e :: rest
    | .gt => first :: insertEntry e rest

/-- Puts an entry in its place and keeps account of the sizes. -/
def insert (e : Entry δ) (b : Builder δ) : Builder δ :=
  let previous := ((b.entry? e.opcode).map (·.size)).getD 0
  { entries := insertEntry e b.entries
    payloadSize := b.payloadSize - previous + e.size }

/-- The number of entries. -/
def size (b : Builder δ) : Nat := b.entries.length

/-- The length of the longest opcode, which is the last. -/
def maxOpcodeLength (b : Builder δ) : Nat :=
  (b.entries.getLast?.map (·.opcode.length)).getD 0

/-- The width of the opcode fields. -/
def opcodeWidth (b : Builder δ) : Nat := opcodeFieldWidth b.maxOpcodeLength

/-- The position of the last descriptor. -/
def lastPosition (b : Builder δ) : Nat :=
  b.payloadSize - (b.entries.getLast?.map (·.size)).getD 0

/-- The width of the position fields: what the payload asks for, and enough for
the last position. -/
def positionWidth (b : Builder δ) : Nat :=
  max (positionFieldWidth b.payloadSize) (positionValueWidth b.lastPosition)

/-- The bytes of the image. -/
def totalSize (b : Builder δ) : Nat :=
  headerSize + (b.opcodeWidth + b.positionWidth) * b.size + b.payloadSize

/-- The header of the image. -/
def header (b : Builder δ) : Header := ⟨b.size, b.opcodeWidth, b.positionWidth⟩

/-- The table fields of entries, the first of which has its descriptor at
`position`. -/
def tableFields (opcodeWidth positionWidth : Nat) :
    (position : Nat) → List (Entry δ) → List (Except Error Bytes)
  | _, [] => []
  | position, e :: rest =>
    (do
      let opcode ← e.opcode.encode opcodeWidth
      let field ← Bytes.writeUInt (List.replicate positionWidth 0) 0 positionWidth position
      return opcode ++ field)
      :: tableFields opcodeWidth positionWidth (position + e.size) rest

/-- Writes fields in order, up to the first that cannot be made. -/
def writeFields : List (Except Error Bytes) → Writer.Write Unit
  | [] => pure ()
  | .error e :: _ => throw e
  | .ok field :: rest => do
    Writer.write field
    writeFields rest

/-- The builder's state as text. -/
def describe (b : Builder δ) : String :=
  s!"IndexBuilder \x7b entries: {b.size}, payload_size: {b.payloadSize} \x7d"

/-- What is logged when the image was written. -/
def savedRecord (b : Builder δ) : Log.Record :=
  ⟨.debug, s!"saved index: {b.size} entries, opcode width {b.opcodeWidth}, "
    ++ s!"position width {b.positionWidth}, payload {b.payloadSize} bytes"⟩

variable [Descriptor δ]

/-- Adds a descriptor for an opcode. -/
def add (opcode : Opcode) (descriptor : δ) (b : Builder δ) : Except Error (Builder δ) :=
  if opcode.isEmpty then .error .empty
  else
    match Descriptor.save descriptor with
    | (.error e, _) => .error e
    | (.ok bytes, descriptor) => .ok (b.insert ⟨opcode, descriptor, bytes.length⟩)

/-- Writes the descriptors in order and checks the announced sizes.  Gives the
entries with their descriptors after that. -/
def writeDescriptors : List (Entry δ) → Writer →
    EStateM.Result Error Writer Unit × List (Entry δ)
  | [], w => (.ok () w, [])
  | e :: rest, w =>
    let (saved, descriptor) := Descriptor.save e.descriptor
    let e' := { e with descriptor }
    match saved with
    | .error err => (.error err w, e' :: rest)
    | .ok bytes =>
      match Writer.write bytes w with
      | .error err w' => (.error err w', e' :: rest)
      | .ok _ w' =>
        if bytes.length ≠ e.size then
          (.error (.descriptorSize e.opcode e.size bytes.length) w', e' :: rest)
        else
          let (result, rest') := writeDescriptors rest w'
          (result, e' :: rest')

/-- What saving leaves behind. -/
structure Saved (δ : Type) where
  /-- The number of bytes written, or why not all were. -/
  outcome : Except Error Nat
  /-- The writer after it. -/
  writer : Writer
  /-- The builder after it. -/
  builder : Builder δ
  /-- What was logged. -/
  log : Log

/-- Writes the image. -/
def save (b : Builder δ) (w : Writer) : Saved δ :=
  if 2 ^ (32 : Nat) ≤ b.size then ⟨.error (.entryCount b.size), w, b, []⟩
  else
    let table : Writer.Write Unit := do
      Writer.write b.header.bytes
      writeFields (tableFields b.opcodeWidth b.positionWidth 0 b.entries)
    match table w with
    | .error e w' => ⟨.error e, w', b, []⟩
    | .ok _ w' =>
      let (result, entries) := writeDescriptors b.entries w'
      let b' := { b with entries }
      match result with
      | .error e w' => ⟨.error e, w', b', []⟩
      | .ok _ w' =>
        match Writer.flush w' with
        | .error e w' => ⟨.error e, w', b', []⟩
        | .ok _ w' =>
          ⟨.ok (w'.contents.length - w.contents.length), w', b', [b.savedRecord]⟩

/-- The bytes of the image, with what saving leaves behind. -/
def image (b : Builder δ) : Except Error Bytes × Saved δ :=
  let saved := b.save {}
  (saved.outcome.map fun _ ↦ saved.writer.contents, saved)

/-- Adds the instructions of reference entries, up to the first that fails. -/
def addReference : List Reference.Entry → Builder Instruction →
    Except Error (Builder Instruction)
  | [], b => .ok b
  | e :: rest, b => do
    let i ← Instruction.ofReference e
    addReference rest (← b.add e.opcode i)

end Builder

end Disasm.Image
