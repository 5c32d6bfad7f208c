import Disasm.Bytes.Source
import Disasm.Error

/-!
# Files in memory

A file is a byte list that is not empty, taken from memory or read from a
source to its end.
-/

namespace Disasm

/-- The bytes of a file. -/
structure File where
  /-- All bytes. -/
  data : Bytes
  /-- An empty file is refused. -/
  data_ne_nil : data ≠ []
deriving DecidableEq

namespace File

/-- The number of bytes. -/
def length (f : File) : Nat := f.data.length

/-- The file of the given bytes. -/
def ofBytes (bs : Bytes) : Except Error File :=
  if h : bs ≠ [] then .ok ⟨bs, h⟩ else .error .empty

/-- The `count` bytes at `offset`. -/
def slice (f : File) (offset count : Nat) : Except Error Bytes :=
  match f.data.slice? offset count with
  | none => .error .outOfBounds
  | some bs => .ok bs

/-- The buffer of a file that is being read: `size` bytes are in it, `capacity`
fit, and one read asks for at most `chunk`. -/
structure Buffer where
  size : Nat
  capacity : Nat
  chunk : Nat
deriving DecidableEq

namespace Buffer

/-- The bytes that the first read asks for, and the least room before every
later one. -/
def probe : Nat := 32

/-- The buffer after the first read, of `count` bytes. -/
def first (count : Nat) : Buffer := ⟨count, max 8 count, 8192⟩

/-- The buffer with room for another read: one that has too little doubles, or
grows to what is needed if that is more. -/
def grown (b : Buffer) : Buffer :=
  if b.capacity < b.size + probe then
    { b with capacity := max (2 * b.capacity) (b.size + probe) }
  else b

theorem size_add_probe_le_capacity_grown (b : Buffer) : b.size + probe ≤ b.grown.capacity := by
  rw [grown]
  split
  · exact Nat.le_max_right _ _
  · omega

/-- The number of bytes that the next read asks for. -/
def request (b : Buffer) : Nat := min (b.capacity - b.size) b.chunk

/-- The buffer after a read of `count` bytes.  Reads grow as long as they are
filled. -/
def filled (b : Buffer) (count : Nat) : Buffer :=
  { b with
    size := b.size + count
    chunk := if b.chunk ≤ b.request ∧ count = b.request then 2 * b.chunk else b.chunk }

end Buffer

/-- The bytes up to the end of a source: `none` stands for a buffer before its
first read. -/
def readPlanned : List PlannedRead → Option Buffer → Bytes → Except Error Bytes
  | [], _, data => .ok data
  | .interrupt :: plan, buffer, data => readPlanned plan buffer data
  | .deny :: _, _, _ => .error .readDenied
  | .deliver n :: plan, buffer, data =>
    let buffer := buffer.map Buffer.grown
    let asked := match buffer with
      | none => Buffer.probe
      | some b => b.request
    match data.take (min n asked) with
    | [] => .ok []
    | taken =>
      let count := taken.length
      let next := match buffer with
        | none => Buffer.first count
        | some b => b.filled count
      (readPlanned plan (some next) (data.drop count)).map (taken ++ ·)

/-- The file that a source holds, read to its end. -/
def ofSource (s : Source) : Except Error File := do
  ofBytes (← readPlanned s.plan none s.data)

end File

end Disasm
