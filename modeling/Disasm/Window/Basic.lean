import Disasm.Bytes.Scalar
import Disasm.Bytes.Source
import Disasm.Error

/-!
# Windows on a byte source

A window reads a source once, from front to back.  The bytes that it has read
and not yet given up form its look-ahead; a cursor divides them into those that
were decoded and those that are still to come.  To commit is to give up the
decoded bytes, to discard is to move the cursor back over them.  With automatic
commits every decoded byte is given up at once.

A window may have a limit: a number of bytes beyond which it never reads.
-/

namespace Disasm

/-- A window on a source. -/
structure Window where
  /-- Where further bytes come from. -/
  source : Source
  /-- The byte order of scalars. -/
  order : ByteOrder := .little
  /-- Whether decoded bytes are given up at once. -/
  autoCommit : Bool := true
  /-- The bytes read and not given up. -/
  lookahead : Bytes := []
  /-- How many bytes of the look-ahead were decoded. -/
  cursor : Nat := 0
  /-- How many bytes were given up. -/
  committed : Nat := 0
  /-- How many bytes may be read at all. -/
  limit : Option Nat := none
  /-- Whether the source or the limit came to its end. -/
  exhausted : Bool := false
deriving DecidableEq

namespace Window

/-- Work on a window.  The window survives a failure. -/
abbrev Action := EStateM Error Window

/-- A window on plain bytes. -/
def ofBytes (bs : Bytes) (order : ByteOrder) : Window :=
  { source := { data := bs }, order }

/-- The number of bytes given up. -/
def position (w : Window) : Nat := w.committed

/-- The number of bytes decoded. -/
def totalRead (w : Window) : Nat := w.committed + w.cursor

/-- The number of bytes decoded and not given up. -/
def pending (w : Window) : Nat := w.cursor

/-- The bytes read and not decoded. -/
def unread (w : Window) : Bytes := w.lookahead.drop w.cursor

/-- How many bytes the limit still allows to read. -/
def room (w : Window) : Option Nat := w.limit.map (· - w.source.delivered)

/-! ## Commits -/

/-- Gives up the decoded bytes. -/
def commit (w : Window) : Window :=
  { w with
    lookahead := w.lookahead.drop w.cursor
    committed := w.committed + w.cursor
    cursor := 0 }

@[simp] theorem position_commit (w : Window) : w.commit.position = w.totalRead := rfl

@[simp] theorem pending_commit (w : Window) : w.commit.pending = 0 := rfl

@[simp] theorem totalRead_commit (w : Window) : w.commit.totalRead = w.totalRead := rfl

@[simp] theorem unread_commit (w : Window) : w.commit.unread = w.unread := rfl

/-- Moves back over the last `count` decoded bytes, or over all of them. -/
def discard (count : Option Nat) (w : Window) : Window :=
  { w with cursor := w.cursor - count.getD w.cursor }

/-- Switches automatic commits.  Switching them on commits. -/
def setAutoCommit (on : Bool) (w : Window) : Window :=
  { (if on && !w.autoCommit then w.commit else w) with autoCommit := on }

/-- Commits if that is automatic. -/
def settle (w : Window) : Window := if w.autoCommit then w.commit else w

@[simp] theorem totalRead_settle (w : Window) : w.settle.totalRead = w.totalRead := by
  rw [settle]
  split <;> rfl

@[simp] theorem unread_settle (w : Window) : w.settle.unread = w.unread := by
  rw [settle]
  split <;> rfl

/-! ## Transactions -/

/-- The window at the start of a transaction: nothing is given up inside. -/
def enter (w : Window) : Window := { w with autoCommit := false }

/-- The window at the end of a transaction that began at `before`.  A failure
moves the cursor back to where it began. -/
def leave (before : Window) (failed : Bool) (w : Window) : Window :=
  settle { w with
    cursor := if failed then min before.cursor w.cursor else w.cursor
    autoCommit := before.autoCommit }

/-- Runs an action as a transaction. -/
def transactional {α : Type} (action : Action α) : Action α := fun w ↦
  match action w.enter with
  | .ok a w' => .ok a (leave w false w')
  | .error e w' => .error e (leave w true w')

/-! ## Reading -/

/-- Reads until `wanted` bytes are unread, or as many as there are. -/
def fill (wanted : Nat) : Action Unit := fun w ↦
  let missing := wanted - (w.unread.take wanted).length
  if w.exhausted ∨ missing = 0 then .ok () w
  else
    let (taken, ending, source) := w.source.request missing w.room
    let w' := { w with source, lookahead := w.lookahead ++ taken }
    match ending with
    | .enough => .ok () w'
    | .exhausted => .ok () { w' with exhausted := true }
    | .denied => .error .readDenied w'

/-- The next `count` bytes, or as many as there are; they stay unread. -/
def peek (count : Nat) : Action Bytes := do
  fill count
  return (← get).unread.take count

/-- Whether a byte follows. -/
def hasRemaining : Action Bool := do
  return !(← peek 1).isEmpty

/-- Decodes the next `count` bytes without giving them up. -/
def take (count : Nat) : Action Bytes := do
  let bs ← peek count
  if bs.length < count then throw .outOfBounds
  modify fun w ↦ { w with cursor := w.cursor + count }
  return bs

/-- The next `count` bytes. -/
def bytes (count : Nat) : Action Bytes := do
  let bs ← take count
  modify settle
  return bs

/-- The bit pattern of a scalar. -/
def scalar (k : Scalar) : Action Nat := do
  let bs ← bytes k.size
  return (← get).order.value bs

/-- The values of `count` runs of `size` bytes. -/
def runs (order : ByteOrder) (size : Nat) : (count : Nat) → Bytes → List Nat
  | 0, _ => []
  | count + 1, bs => order.value (bs.take size) :: runs order size count (bs.drop size)

/-- The bit patterns of `count` scalars. -/
def scalars (k : Scalar) (count : Nat) : Action (List Nat) := do
  if addressBound ≤ k.size * count then throw .outOfBounds
  let bs ← bytes (k.size * count)
  return runs (← get).order k.size count bs

/-- A scalar that must have the bit pattern `expected`.  Another one is not
decoded. -/
def magic (k : Scalar) (expected : Nat) : Action Unit := do
  let bs ← take k.size
  let w ← get
  let found := w.order.value bs
  if found ≠ expected then
    set { w with cursor := w.cursor - k.size }
    throw (.magic expected found)
  modify settle

/-- The most bytes that are skipped at a time. -/
def skipSize : Nat := 4096

/-- Decodes a number of blocks of the skip size. -/
def skipBlocks : Nat → Action Unit
  | 0 => pure ()
  | blocks + 1 => do
    let _ ← bytes skipSize
    skipBlocks blocks

/-- Decodes `count` bytes and drops them, block by block: blocks that were
decoded before a failure stay decoded. -/
def skip (count : Nat) : Action Unit := do
  skipBlocks (count / skipSize)
  let _ ← bytes (count % skipSize)

/-- A window of its own on the next `count` bytes. -/
def slice (count : Nat) : Action Window := do
  let bs ← bytes count
  return { ofBytes bs (← get).order with limit := some bs.length }

/-- The window's state as text. -/
def describe (w : Window) : String :=
  let limit := match w.limit with
    | none => "None"
    | some n => s!"Some({n})"
  s!"DecodeBuffer \x7b order: {w.order.name}, auto_commit: {w.autoCommit}, "
    ++ s!"committed: {w.committed}, pending: {w.cursor}, "
    ++ s!"buffered: {w.lookahead.length}, limit: {limit} \x7d"

end Window

end Disasm
