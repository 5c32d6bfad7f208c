import Disasm.Proofs.Index.Lookup
import Disasm.Proofs.Window.Progress

/-!
# How a lookup gets on

Over every source and with whatever table, a lookup moves on in the window, and
by at least one byte where it finds something.  So the bytes that a window can
still give are fewer after each lookup, and their number bounds how many can
follow.  Over a smooth window it moves on by as many bytes as it answers for.
-/

namespace Disasm.Index

open Window (Moves Moved)

variable {δ : Type} {ix : Index δ} {eager : Bool}

/-- What is consumed is no longer in reserve. -/
theorem reserve_of_moved {n : Nat} {w w' : Window} (moved : Moved n w w') (settled : w.Settled) :
    reserve w' + n = reserve w := by
  obtain ⟨taken, w₁, pulled, there, rfl⟩ := moved
  have unread := congrArg List.length (pulled.unread_eq settled.pending_le)
  have source := congrArg List.length pulled.source
  rw [List.length_append] at unread source
  rw [reserve, reserve, Window.unread_consume, Window.source_consume, List.length_drop]
  omega

theorem moves_lookup (ix : Index δ) (eager : Bool) : Moves (ix.lookup eager) := by
  refine .bind .get fun w ↦ (Window.moves_peek _).bind fun front ↦ ?_
  split
  · exact .pure none
  · split
    · refine (Window.moves_bytes _).bind fun bytes ↦ ?_
      split
      · exact .pure _
      · exact .throw _
    · exact (Window.moves_peek _).bind fun ahead ↦ (Window.moves_bytes _).bind fun bytes ↦ .pure _

/-- What is found at the front of some bytes is an opcode that they begin with, and no
empty one. -/
theorem longest?_begins {bs : Bytes} (nonempty : bs ≠ []) {length place : Nat}
    (found : ix.longest? bs length = some place) :
    ∃ e, ix.entries[place]? = some e ∧ e.opcode.bytes <+: bs ∧ e.opcode.bytes ≠ [] := by
  induction length with
  | zero => cases found
  | succ length ih =>
    rw [longest?] at found
    cases here : ix.find? (bs.take (length + 1)) with
    | none =>
      rw [here] at found
      exact ih found
    | some place' =>
      rw [here] at found
      cases found
      obtain ⟨e, there, same⟩ := getElem?_of_find? here
      refine ⟨e, there, same ▸ List.take_prefix _ _, ?_⟩
      rw [same]
      simpa using nonempty

theorem match?_begins {bs : Bytes} (nonempty : bs ≠ []) {place : Nat}
    (found : ix.match? eager bs = some place) :
    ∃ e, ix.entries[place]? = some e ∧ e.opcode.bytes <+: bs ∧ e.opcode.bytes ≠ [] := by
  rw [match?] at found
  split at found
  · exact longest?_begins nonempty found
  · exact longest?_begins nonempty found

theorem le_runLength (ix : Index δ) (eager : Bool) (more length : Nat) (bs : Bytes) :
    length ≤ ix.runLength eager more length bs := by
  induction more generalizing length bs with
  | zero => exact Nat.le_refl _
  | succ more ih =>
    cases bs with
    | nil => exact Nat.le_refl _
    | cons b bs =>
      rw [runLength]
      split
      · exact Nat.le_refl _
      · exact Nat.le_of_succ_le (ih (length + 1) bs)

/-- A run ends with the bytes. -/
theorem runLength_le (ix : Index δ) (eager : Bool) (more length : Nat) (bs : Bytes) :
    ix.runLength eager more length bs ≤ length + bs.length := by
  induction more generalizing length bs with
  | zero => exact Nat.le_add_right _ _
  | succ more ih =>
    cases bs with
    | nil => exact Nat.le_refl _
    | cons b bs =>
      rw [runLength]
      split
      · exact Nat.le_add_right _ _
      · have := ih (length + 1) bs
        rw [List.length_cons]
        omega

/-- Bytes that were taken were consumed. -/
theorem moved_of_bytes {count : Nat} {bs : Bytes} {w w' : Window} (settled : w.Settled)
    (taken : Window.bytes count w = .ok bs w') : Moved count w w' := by
  have moved := (Window.consumes_bytes count).moved settled
  rwa [taken] at moved

/-- Where something is found, at least one byte is consumed. -/
theorem exists_moved_of_lookup {l : Lookup δ} {w w' : Window} (settled : w.Settled)
    (looked : ix.lookup eager w = .ok (some l) w') : ∃ n, 1 ≤ n ∧ Moved n w w' := by
  obtain ⟨_, _, got, looked⟩ := Action.bind_eq_ok.1 looked
  cases got
  obtain ⟨front, w₁, peeked, looked⟩ := Action.bind_eq_ok.1 looked
  have first := Window.moved_peek (max ix.maxOpcodeLength 1) settled
  rw [peeked] at first
  split at looked
  next => cases looked
  next filled =>
    have nonempty : front ≠ [] := mt List.isEmpty_iff.2 filled
    cases matched : ix.match? eager front with
    | some place =>
      obtain ⟨e, there, -, some_bytes⟩ := match?_begins nonempty matched
      simp only [matched, there, Option.map_some, Option.getD_some] at looked
      obtain ⟨bytes, w₂, taken, looked⟩ := Action.bind_eq_ok.1 looked
      have second := moved_of_bytes (first.settled settled) taken
      refine ⟨0 + e.opcode.length, ?_, ?_⟩
      · have := List.length_pos_iff.2 some_bytes
        rw [Nat.zero_add]
        exact this
      · cases loaded : ix.load place with
        | error err =>
          rw [loaded] at looked
          cases looked
        | ok d =>
          rw [loaded] at looked
          cases looked
          exact first.trans second settled
    | none =>
      simp only [matched] at looked
      obtain ⟨ahead, w₂, peeked', looked⟩ := Action.bind_eq_ok.1 looked
      have second := Window.moved_peek
        (saturatingAdd ix.config.chunkSize ix.maxOpcodeLength) (first.settled settled)
      rw [Window.after, peeked'] at second
      obtain ⟨bytes, w₃, taken, looked⟩ := Action.bind_eq_ok.1 looked
      have both := first.trans second settled
      have third := moved_of_bytes (both.settled settled) taken
      cases looked
      refine ⟨_, ?_, both.trans third settled⟩
      have := ix.le_runLength eager (ix.config.chunkSize - 1) 1 ahead.tail
      omega

/-- A lookup on a smooth window answers what it must, by the bytes that the window
still gives, and moves on past what it found. -/
theorem finds_lookup (h : ix.Searchable) (eager : Bool) {w : Window} (smooth : w.Smooth)
    (countable : ix.config.chunkSize + ix.maxOpcodeLength < addressBound ∨
      w.remaining.length < addressBound) :
    ∃ n, ix.Finds eager w.totalRead w.remaining (Window.outcome (ix.lookup eager w)) n ∧
      Moved n w (Window.after (ix.lookup eager w)) := by
  obtain ⟨bs, n, -, same, answered⟩ :=
    lookup_finds h eager smooth.pending_le smooth.undenied countable
  cases same smooth.steady
  obtain ⟨m, moved⟩ := ix.moves_lookup eager w smooth.toSettled
  have total := answered.totalRead
  rw [moved.totalRead_eq] at total
  exact ⟨m, Nat.add_left_cancel total ▸ answered.answer, moved⟩

end Disasm.Index
