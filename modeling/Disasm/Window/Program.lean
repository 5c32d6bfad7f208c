import Disasm.Window.Basic
import Disasm.Value

/-!
# Programs of window steps

A program is a sequence of steps on a window, some of them grouped into
transactions or carried out on a slice of their own.  What else a step may do
is left open: a program over `ε` has steps of type `ε` beside the window's own,
and a `Performer` says what they do to the window and to a state `τ` beside it.

A program goes on after a failing step, except that inside a transaction the
first failure ends it.  A run answers one record a step.
-/

namespace Disasm.Window

/-- A step of the window itself. -/
inductive Step
  | scalar (kind : Scalar)
  | scalars (kind : Scalar) (count : Nat)
  | bytes (count : Nat)
  | magic (kind : Scalar) (expected : Nat)
  | skip (count : Nat)
  | peek (count : Nat)
  | hasRemaining
  | commit
  | discard (count : Option Nat)
  | autoCommit (on : Bool)
  | order (order : ByteOrder)
  | limit
  | describe
  /-- A step that only fails. -/
  | fail
deriving DecidableEq

/-- What a step does. -/
def Step.perform : Step → Action Value
  | scalar k => return .scalar k (← Window.scalar k)
  | scalars k count => return .scalars k (← Window.scalars k count)
  | bytes count => return .bytes (← Window.bytes count)
  | magic k expected => do Window.magic k expected; return .unit
  | skip count => do Window.skip count; return .unit
  | peek count => return .bytes (← Window.peek count)
  | hasRemaining => return .flag (← Window.hasRemaining)
  | commit => do modify Window.commit; return .unit
  | discard count => do modify (Window.discard count); return .unit
  | autoCommit on => do modify (Window.setAutoCommit on); return .unit
  | order o => do modify ({ · with order := o }); return .order o
  | limit => return .bound (← get).limit
  | describe => return .text (← get).describe
  | fail => throw .empty

/-- A sequence of steps, transactions and slices. -/
inductive Program (ε : Type)
  | done
  | step (first : Step) (rest : Program ε)
  | transactional (body rest : Program ε)
  | slice (count : Nat) (body rest : Program ε)
  /-- A step of another kind. -/
  | extra (first : ε) (rest : Program ε)

/-- What a step of another kind answers: whether it failed, and a report. -/
structure Answer (ρ : Type) where
  failure : Option Error := none
  report : ρ

/-- How steps of another kind act on a window and a state beside it. -/
abbrev Performer (ε ρ τ : Type) := ε → Window → τ → Answer ρ × Window × τ

/-- The record of a step, with the window after it. -/
inductive Record (ρ : Type)
  | step (outcome : Except Error Value) (after : Window)
  | transactional (failure : Option Error) (inner : List (Record ρ)) (after : Window)
  /-- A slice that was made: its limit, and the records inside. -/
  | slice (limit : Nat) (inner : List (Record ρ)) (after : Window)
  | extra (answer : Answer ρ) (after : Window)

/-- The end of a run: the records, the failure that ended it, the window and the
state beside it. -/
structure Trace (ρ τ : Type) where
  records : List (Record ρ)
  failure : Option Error
  window : Window
  state : τ

/-- The trace with a record before it. -/
def Trace.cons {ρ τ : Type} (record : Record ρ) (t : Trace ρ τ) : Trace ρ τ :=
  { t with records := record :: t.records }

variable {ε ρ τ : Type}

/-- Runs a program.  With `halting` the first failure ends it. -/
def Program.run (perform : Performer ε ρ τ) (halting : Bool) :
    Program ε → Window → τ → Trace ρ τ
  | done, w, t => ⟨[], none, w, t⟩
  | step first rest, w, t =>
    match first.perform w with
    | .ok value w' => (rest.run perform halting w' t).cons (.step (.ok value) w')
    | .error e w' =>
      if halting then ⟨[.step (.error e) w'], some e, w', t⟩
      else (rest.run perform halting w' t).cons (.step (.error e) w')
  | transactional body rest, w, t =>
    let inner := body.run perform true w.enter t
    let w' := leave w inner.failure.isSome inner.window
    let record := .transactional inner.failure inner.records w'
    if halting ∧ inner.failure.isSome then ⟨[record], inner.failure, w', inner.state⟩
    else (rest.run perform halting w' inner.state).cons record
  | slice count body rest, w, t =>
    match Window.slice count w with
    | .ok part w' =>
      let inner := body.run perform false part t
      (rest.run perform halting w' inner.state).cons
        (.slice (part.limit.getD 0) inner.records w')
    | .error e w' =>
      if halting then ⟨[.step (.error e) w'], some e, w', t⟩
      else (rest.run perform halting w' t).cons (.step (.error e) w')
  | extra first rest, w, t =>
    let (answer, w', t') := perform first w t
    if halting ∧ answer.failure.isSome then
      ⟨[.extra answer w'], answer.failure, w', t'⟩
    else (rest.run perform halting w' t').cons (.extra answer w')

/-- No steps but the window's own. -/
def noExtra : Performer Empty Empty Unit := fun e _ _ ↦ nomatch e

end Disasm.Window
