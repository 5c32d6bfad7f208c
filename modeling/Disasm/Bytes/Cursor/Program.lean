import Disasm.Bytes.Cursor
import Disasm.Value

/-!
# Programs of cursor steps

A program is a sequence of reads and moves, some of them grouped into
transactions.  At the top level a program goes on after a failing step; inside
a transaction the first failure ends it and moves the cursor back.  A run
answers one record a step.
-/

namespace Disasm.Cursor

/-- A single step. -/
inductive Step
  /-- A scalar in the cursor's byte order. -/
  | scalar (kind : Scalar)
  /-- A scalar in a byte order of its own. -/
  | scalarIn (order : ByteOrder) (kind : Scalar)
  | uint (width : Nat)
  | int7
  | text
  | bytes (count : Nat)
  | seek (position : Nat)
  | advance (count : Nat)
  | peek
  | endOf (count : Nat)
  /-- The data and the byte order. -/
  | info
  /-- A step that only fails. -/
  | fail
deriving DecidableEq

/-- What a step does. -/
def Step.perform : Step → Read Value
  | scalar k => return .scalar k (← Cursor.scalar k)
  | scalarIn order k => return .scalar k (← Cursor.scalarIn order k)
  | uint width => return .number (← Cursor.uint width)
  | int7 => return .number (← Cursor.int7)
  | text => return .text (← Cursor.text)
  | bytes count => return .bytes (← Cursor.bytes count)
  | seek position => do Cursor.seek position; return .unit
  | advance count => do Cursor.advance count; return .unit
  | peek => return .count (← Cursor.peek).toNat
  | endOf count => return .count (← Cursor.endOf count)
  | info => do
    let c ← get
    return .data c.data c.order
  | fail => throw .empty

/-- A sequence of steps and transactions. -/
inductive Program
  | done
  | step (first : Step) (rest : Program)
  | transactional (body rest : Program)
deriving DecidableEq

/-- The record of a step: its outcome, the records inside a transaction, and
the cursor after it. -/
inductive Record
  | mk (outcome : Except Error Value) (inner : List Record) (after : Cursor)

/-- The outcome of a recorded step. -/
def Record.outcome : Record → Except Error Value
  | mk outcome _ _ => outcome

/-- The cursor after a recorded step. -/
def Record.after : Record → Cursor
  | mk _ _ after => after

/-- The end of a run: the records, the failure that ended it, and the cursor. -/
structure Trace where
  records : List Record
  failure : Option Error
  cursor : Cursor

/-- The trace with a record before it. -/
def Trace.cons (record : Record) (t : Trace) : Trace :=
  { t with records := record :: t.records }

/-- Runs a program.  With `halting` the first failure ends it. -/
def Program.run (halting : Bool) : Program → Cursor → Trace
  | done, c => ⟨[], none, c⟩
  | step first rest, c =>
    match first.perform c with
    | .ok value c' => (rest.run halting c').cons (.mk (.ok value) [] c')
    | .error e c' =>
      if halting then ⟨[.mk (.error e) [] c'], some e, c'⟩
      else (rest.run halting c').cons (.mk (.error e) [] c')
  | transactional body rest, c =>
    let inner := body.run true c
    match inner.failure with
    | none =>
      let c' := inner.cursor
      (rest.run halting c').cons (.mk (.ok .unit) inner.records c')
    | some e =>
      let c' := { inner.cursor with position := c.position }
      if halting then ⟨[.mk (.error e) inner.records c'], some e, c'⟩
      else (rest.run halting c').cons (.mk (.error e) inner.records c')

end Disasm.Cursor
