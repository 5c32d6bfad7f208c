import Disasm.Error

/-!
# Bounded writers

A writer keeps the bytes that it is given.  It may have room for a certain
number of them only: a write that goes beyond keeps what still fits and fails.
-/

namespace Disasm

/-- A writer with all that was written to it. -/
structure Writer where
  /-- The most bytes it keeps, if there is a bound. -/
  capacity : Option Nat := none
  /-- Whether flushing fails. -/
  flushFails : Bool := false
  /-- The bytes written so far. -/
  contents : Bytes := []
deriving DecidableEq

namespace Writer

/-- A write, after a failure of which the writer keeps what fitted. -/
abbrev Write := EStateM Error Writer

/-- The bytes of a write that still fit. -/
def fitting (w : Writer) (bs : Bytes) : Bytes :=
  match w.capacity with
  | none => bs
  | some c => bs.take (c - w.contents.length)

/-- What is kept of a write is its beginning. -/
theorem fitting_isPrefix (w : Writer) (bs : Bytes) : w.fitting bs <+: bs := by
  cases h : w.capacity with
  | none => simp [fitting, h]
  | some c => simpa [fitting, h] using List.take_prefix _ _

@[simp] theorem fitting_of_unbounded {w : Writer} (h : w.capacity = none) (bs : Bytes) :
    w.fitting bs = bs := by
  rw [fitting, h]

/-- Writes all bytes, or those that fit. -/
def write (bs : Bytes) : Write Unit := fun w ↦
  let kept := w.fitting bs
  let w' := { w with contents := w.contents ++ kept }
  if kept.length < bs.length then .error .writerFull w' else .ok () w'

theorem write_of_unbounded {w : Writer} (h : w.capacity = none) (bs : Bytes) :
    write bs w = .ok () { w with contents := w.contents ++ bs } := by
  simp [write, h]

/-- Hands everything on. -/
def flush : Write Unit := fun w ↦
  if w.flushFails then .error .flushFailed w else .ok () w

end Writer

end Disasm
