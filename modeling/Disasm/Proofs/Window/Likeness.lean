import Disasm.Proofs.Coupling
import Disasm.Proofs.Window.Progress

/-!
# Windows that cannot be told apart

A likeness of windows is a relation that reading keeps: windows that are alike
stand at one place, and show the same bytes to whoever looks ahead.  All reading
is made of looking ahead and consuming, so that it respects every likeness.

Two likenesses serve later: a window is like itself, and windows with the same
tape are alike, however their bytes arrived.
-/

namespace Disasm.Window

open Disasm.Action (Coupling)

/-! ## Reading by looking ahead -/

section Peek

variable {n : Nat} {bs : Bytes} {e : Error} {w w₁ : Window}

/-- What is seen ahead is unread. -/
theorem eq_take_of_peek (peeked : peek n w = .ok bs w₁) : bs = w₁.unread.take n := by
  obtain ⟨u, w₂, filled, seen⟩ := Action.bind_eq_ok.1 peeked
  cases seen
  rfl

/-- Bytes that are seen ahead are consumed, if they are enough. -/
theorem bytes_of_peek (peeked : peek n w = .ok bs w₁) :
    bytes n w = if bs.length < n then .error .outOfBounds w₁ else .ok bs (w₁.consume n) := by
  by_cases short : bs.length < n
  · have taken : take n w = .error .outOfBounds w₁ := by
      refine (Action.bind_of_ok peeked).trans ?_
      rw [if_pos short]
      rfl
    rw [if_pos short]
    exact Action.bind_of_error taken
  · have taken : take n w = .ok bs (w₁.advance n) := by
      refine (Action.bind_of_ok peeked).trans ?_
      rw [if_neg short]
      rfl
    rw [if_neg short]
    exact Action.bind_of_ok taken

theorem bytes_of_peek_error (peeked : peek n w = .error e w₁) : bytes n w = .error e w₁ :=
  Action.bind_of_error (Action.bind_of_error peeked)

/-- Enough bytes that are seen ahead are unread. -/
theorem le_unread_of_peek (peeked : peek n w = .ok bs w₁) (enough : ¬bs.length < n) :
    n ≤ w₁.unread.length := by
  rw [eq_take_of_peek peeked, List.length_take] at enough
  omega

end Peek

theorem Settled.discard {w : Window} (h : w.Settled) (count : Option Nat) :
    (w.discard count).Settled where
  pending_le := Nat.le_trans (Nat.sub_le _ _) h.pending_le
  settled on := Nat.le_zero.1 (Nat.le_trans (Nat.sub_le _ _) (Nat.le_zero.2 (h.settled on)))

/-! ## Likenesses -/

/-- A relation between windows that reading does not end. -/
structure Likeness where
  /-- The windows are alike. -/
  Like : Window → Window → Prop
  settled : ∀ {w w' : Window}, Like w w' → w.Settled ∧ w'.Settled
  order_eq : ∀ {w w' : Window}, Like w w' → w.order = w'.order
  totalRead_eq : ∀ {w w' : Window}, Like w w' → w.totalRead = w'.totalRead
  position_eq : ∀ {w w' : Window}, Like w w' → w.position = w'.position
  /-- The same bytes are seen ahead. -/
  peek : ∀ n, (Coupling.exact Like).Respects (peek n)
  consume : ∀ {n : Nat} {w w' : Window}, Like w w' → n ≤ w.unread.length →
    n ≤ w'.unread.length → Like (w.consume n) (w'.consume n)
  setAutoCommit : ∀ {w w' : Window} (on : Bool), Like w w' →
    Like (w.setAutoCommit on) (w'.setAutoCommit on)
  discard : ∀ {w w' : Window}, Like w w' → Like (w.discard none) (w'.discard none)

namespace Likeness

/-- Reading from windows that are alike never fails on one side alone. -/
def coupling (L : Likeness) : Coupling Error Window := .exact L.Like

variable (L : Likeness)

theorem respects_bytes (n : Nat) : L.coupling.Respects (bytes n) where
  paired w w' like := by
    have first := (L.peek n).paired w w' like
    generalize peeked : Window.peek n w = r at first
    generalize peeked' : Window.peek n w' = r' at first
    cases first with
    | @ok bs w₁ w₁' like' =>
      rw [bytes_of_peek peeked, bytes_of_peek peeked']
      by_cases short : bs.length < n
      · rw [if_pos short, if_pos short]
        exact .error like'
      · rw [if_neg short, if_neg short]
        exact .ok (L.consume like' (le_unread_of_peek peeked short)
          (le_unread_of_peek peeked' short))
    | error like' =>
      rw [bytes_of_peek_error peeked, bytes_of_peek_error peeked']
      exact .error like'
    | lost lost => exact lost.elim
  keeps _ _ _ lost := lost.elim

theorem respects_scalar (k : Scalar) : L.coupling.Respects (scalar k) := by
  refine (L.respects_bytes k.size).bind fun bs ↦ .get (fun w w' like ↦ ?_) fun w ↦ .pure _
  rw [L.order_eq like]

theorem respects_skipBlocks (blocks : Nat) : L.coupling.Respects (skipBlocks blocks) := by
  induction blocks with
  | zero => exact .pure ()
  | succ blocks ih => exact (L.respects_bytes skipSize).bind fun _ ↦ ih

theorem respects_skip (count : Nat) : L.coupling.Respects (skip count) :=
  (L.respects_skipBlocks _).bind fun _ ↦ (L.respects_bytes _).bind fun _ ↦ .pure ()

end Likeness

/-! ## The same window and the same tape -/

/-- A window is like itself. -/
def sameWindow : Likeness where
  Like w w' := w = w' ∧ w.Settled
  settled := by
    rintro w _ ⟨rfl, settled⟩
    exact ⟨settled, settled⟩
  order_eq like := congrArg order like.1
  totalRead_eq like := congrArg totalRead like.1
  position_eq like := congrArg position like.1
  peek n :=
    { paired := by
        rintro w _ ⟨rfl, settled⟩
        have moved := (moved_peek n settled).settled settled
        cases peeked : peek n w with
        | ok bs w₁ =>
          rw [peeked] at moved
          exact .ok ⟨rfl, moved⟩
        | error e w₁ =>
          rw [peeked] at moved
          exact .error ⟨rfl, moved⟩
      keeps := fun _ _ _ lost ↦ lost.elim }
  consume := by
    rintro n w _ ⟨rfl, settled⟩ there -
    exact ⟨rfl, settled.consume there⟩
  setAutoCommit on like := ⟨congrArg _ like.1, like.2.setAutoCommit on⟩
  discard like := ⟨congrArg _ like.1, like.2.discard none⟩

/-- Smooth windows with the same tape are alike. -/
def sameTape : Likeness where
  Like w w' := w.Smooth ∧ w'.Smooth ∧ w.tape = w'.tape
  settled like := ⟨like.1.toSettled, like.2.1.toSettled⟩
  order_eq like := congrArg Tape.order like.2.2
  totalRead_eq := by
    rintro w w' ⟨smooth, smooth', same⟩
    have places := congrArg Tape.place same
    rw [place_tape smooth.pending_le, place_tape smooth'.pending_le] at places
    exact congrArg Place.totalRead places
  position_eq like := congrArg Tape.position like.2.2
  peek n :=
    { paired := by
        rintro w w' ⟨smooth, smooth', same⟩
        obtain ⟨w₁, peeked, tape, smooth₁⟩ := peek_on_tape n smooth
        obtain ⟨w₁', peeked', tape', smooth₁'⟩ := peek_on_tape n smooth'
        have ahead : w.remaining = w'.remaining := congrArg Tape.remaining same
        rw [peeked, peeked', ahead]
        exact .ok ⟨smooth₁, smooth₁', tape.trans (same.trans tape'.symm)⟩
      keeps := fun _ _ _ lost ↦ lost.elim }
  consume := by
    rintro n w w' ⟨smooth, smooth', same⟩ there there'
    refine ⟨smooth.consume there, smooth'.consume there', ?_⟩
    rw [tape_consume smooth.pending_le there, tape_consume smooth'.pending_le there', same]
  setAutoCommit := by
    rintro w w' on ⟨smooth, smooth', same⟩
    refine ⟨smooth.setAutoCommit on, smooth'.setAutoCommit on, ?_⟩
    rw [tape_setAutoCommit smooth.pending_le, tape_setAutoCommit smooth'.pending_le, same]
  discard := by
    rintro w w' ⟨smooth, smooth', same⟩
    refine ⟨smooth.discard none, smooth'.discard none, ?_⟩
    rw [tape_discard smooth.pending_le, tape_discard smooth'.pending_le, same]

/-- Moving on shows on the tape as consuming. -/
theorem Moved.tape_eq {n : Nat} {w w' : Window} (moved : Moved n w w') (smooth : w.Smooth) :
    w'.tape = w.tape.consume n := by
  obtain ⟨taken, w₁, pulled, there, rfl⟩ := moved
  rw [tape_consume (smooth.pulled pulled).pending_le there, tape_pulled smooth pulled]

end Disasm.Window
