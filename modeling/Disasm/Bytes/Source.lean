import Disasm.Bytes.Order

/-!
# Byte sources

A source delivers bytes in order, as much at a time as it likes.  How much the
next reads deliver, and which of them fail, is given by a list of planned
reads; after the last of them a read delivers all that is asked for as long as
bytes are left.  A read that delivers nothing is taken for the end.
-/

namespace Disasm

/-- What one read of a source does. -/
inductive PlannedRead
  /-- Delivers at most this many bytes. -/
  | deliver (count : Nat)
  /-- Fails for the moment; the read is tried again. -/
  | interrupt
  /-- Fails for good. -/
  | deny
deriving DecidableEq

/-- A source of bytes. -/
structure Source where
  /-- The bytes that are left. -/
  data : Bytes
  /-- What the next reads do. -/
  plan : List PlannedRead := []
  /-- The number of bytes delivered so far. -/
  delivered : Nat := 0
deriving DecidableEq

namespace Source

/-- How a pull ends. -/
inductive Ending
  /-- All bytes asked for were delivered. -/
  | enough
  /-- The source or the room came to its end. -/
  | exhausted
  /-- A read failed. -/
  | denied
deriving DecidableEq

/-- What a pull delivers and what it leaves. -/
structure Pull where
  taken : Bytes
  rest : Bytes
  plan : List PlannedRead
  ending : Ending
deriving DecidableEq

/-- The most bytes that one read asks for. -/
def readSize : Nat := 4096

/-- The lesser of an amount and a bound. -/
def within (room : Option Nat) (n : Nat) : Nat :=
  match room with
  | none => n
  | some r => min n r

/-- Reads until `missing` bytes are there or the source ends, and never more
than `room` bytes. -/
def pull : List PlannedRead → (missing : Nat) → (room : Option Nat) → Bytes → Pull
  | [], missing, room, data =>
    let count := within room missing
    let taken := data.take count
    ⟨taken, data.drop count, [],
      if taken.length < missing then .exhausted else .enough⟩
  | event :: plan, missing, room, data =>
    if missing = 0 then ⟨[], data, event :: plan, .enough⟩
    else if room = some 0 then ⟨[], data, event :: plan, .exhausted⟩
    else
      match event with
      | .interrupt => pull plan missing room data
      | .deny => ⟨[], data, plan, .denied⟩
      | .deliver n =>
        let count := min n (min (within room missing) readSize)
        match data.take count with
        | [] => ⟨[], data, plan, .exhausted⟩
        | taken =>
          let got := taken.length
          let next := pull plan (missing - got) (room.map (· - got)) (data.drop got)
          { next with taken := taken ++ next.taken }

/-- A pull takes the bytes in order and loses none. -/
@[simp] theorem taken_append_rest (plan : List PlannedRead) (missing : Nat)
    (room : Option Nat) (data : Bytes) :
    (pull plan missing room data).taken ++ (pull plan missing room data).rest = data := by
  fun_induction pull plan missing room data with
  | case1 => exact List.take_append_drop _ _
  | case2 | case3 | case5 | case6 => rfl
  | case4 missing room data plan _ _ ih => exact ih
  | case7 plan missing room data _ _ n count _ got next ih =>
    have front : data.take count ++ data.drop got = data :=
      List.prefix_iff_eq_append.1 (List.take_prefix count data)
    exact (List.append_assoc ..).trans (ih ▸ front)

/-- Pulls `missing` bytes into the hands of the caller. -/
def request (s : Source) (missing : Nat) (room : Option Nat) : Bytes × Ending × Source :=
  let p := pull s.plan missing room s.data
  (p.taken, p.ending,
    { data := p.rest, plan := p.plan, delivered := s.delivered + p.taken.length })

end Source

end Disasm
