import Disasm.Index.Basic
import Disasm.Window.Basic

/-!
# Looking up instructions

A lookup tells what stands at the front of a window: the longest opcode of the
table that the bytes begin with, or else a run of bytes up to the next place
where an opcode begins.  A run is not longer than the chunk size.  Not looking
eagerly, only opcodes of one byte count.
-/

namespace Disasm.Index

/-- What stands at the front of a window. -/
structure Lookup (δ : Type) where
  /-- The number of bytes before it. -/
  offset : Nat
  /-- Its bytes. -/
  bytes : Bytes
  /-- Whether the bytes are an opcode of the table. -/
  known : Bool
  descriptor : δ

variable {δ : Type}

/-- The opcode that was found, if one was. -/
def Lookup.opcode? (l : Lookup δ) : Option Opcode :=
  if h : l.known ∧ l.bytes.length ≤ Disasm.maxOpcodeLength then some ⟨l.bytes, h.2⟩
  else none

/-- The place in the table of the longest opcode of at most `length` bytes that
the bytes begin with. -/
def longest? (ix : Index δ) (bs : Bytes) : (length : Nat) → Option Nat
  | 0 => none
  | length + 1 => (ix.find? (bs.take (length + 1))).or (ix.longest? bs length)

/-- The place in the table of the opcode that the bytes begin with. -/
def match? (ix : Index δ) (eager : Bool) (bs : Bytes) : Option Nat :=
  if eager then ix.longest? bs (min ix.maxOpcodeLength bs.length)
  else ix.longest? bs (min 1 bs.length)

/-- The length of an unknown run that has `length` bytes already: it ends where
an opcode begins, and after at most `more` further bytes. -/
def runLength (ix : Index δ) (eager : Bool) : (more length : Nat) → Bytes → Nat
  | 0, length, _ => length
  | more + 1, length, bs =>
    match bs with
    | [] => length
    | _ :: rest =>
      if (ix.match? eager bs).isSome then length
      else ix.runLength eager more (length + 1) rest

/-- Looks up what stands at the front of a window and decodes its bytes. -/
def lookup (ix : Index δ) (eager : Bool) : Window.Action (Option (Lookup δ)) := do
  let offset := (← get).totalRead
  let front ← Window.peek (max ix.maxOpcodeLength 1)
  if front.isEmpty then return none
  match ix.match? eager front with
  | some place =>
    let length := (ix.entries[place]?.map (·.opcode.length)).getD 0
    let bytes ← Window.bytes length
    match ix.load place with
    | .ok descriptor => return some ⟨offset, bytes, true, descriptor⟩
    | .error e => throw e
  | none =>
    let chunk := ix.config.chunkSize
    let ahead ← Window.peek (saturatingAdd chunk ix.maxOpcodeLength)
    let bytes ← Window.bytes (ix.runLength eager (chunk - 1) 1 ahead.tail)
    return some ⟨offset, bytes, false, ix.factory.unknown bytes⟩

open Text.Hex (marked)

/-- What is logged about a lookup that found something at `offset`, or the
end. -/
def lookupRecord (offset : Nat) : Option (Lookup δ) → Log.Record
  | none => ⟨.trace, s!"lookup at {marked 1 offset}: end of stream"⟩
  | some l =>
    if l.known then
      ⟨.trace, s!"lookup at {marked 1 offset}: [{Text.Hex.bytes l.bytes}]"⟩
    else
      ⟨.warn, s!"unknown run of {l.bytes.length} bytes at {marked 1 offset}"⟩

/-- What is logged about a lookup at `offset`: nothing if it failed. -/
def lookupLog (offset : Nat) : EStateM.Result Error Window (Option (Lookup δ)) → Log
  | .ok found _ => [lookupRecord offset found]
  | .error .. => []

/-! ## Scanning -/

/-- The bytes that a window can still give: those read ahead and those that the
source has left. -/
def reserve (w : Window) : Nat := w.unread.length + w.source.data.length

/-- What a scan finds, what it logs, and how it ends. -/
structure Scan (δ : Type) where
  found : List (Lookup δ)
  failure : Option Error
  window : Window
  log : Log

/-- Lookups one after the other, at most `count`, until the end or a failure. -/
def scanFor (ix : Index δ) (eager : Bool) : (count : Nat) → Window → Scan δ
  | 0, w => ⟨[], none, w, []⟩
  | count + 1, w =>
    let result := ix.lookup eager w
    let log := lookupLog w.totalRead result
    match result with
    | .error e w' => ⟨[], some e, w', log⟩
    | .ok none w' => ⟨[], none, w', log⟩
    | .ok (some l) w' =>
      let rest := ix.scanFor eager count w'
      { rest with found := l :: rest.found, log := log ++ rest.log }

/-- Lookups one after the other until the end or a failure.  Each takes at least
one byte, so their number is bounded. -/
def scan (ix : Index δ) (eager : Bool) (w : Window) : Scan δ :=
  ix.scanFor eager (reserve w + 1) w

end Disasm.Index
