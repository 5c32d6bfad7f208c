import Disasm.Proofs.Window.Tape

/-!
# How a window gets on

Whatever is read from a window, in one step or in many, by success or failure,
comes to this: the window has read ahead and has consumed the next `n` bytes.
`Moved` says so, for every source and in either mode of commits.  It is closed
under going on, so that an action made of such actions is one of them.
-/

namespace Disasm.Window

/-- The cursor is inside the look-ahead, and nothing is pending where commits
are automatic. -/
structure Settled (w : Window) : Prop where
  pending_le : w.pending ≤ w.lookahead.length
  settled : w.autoCommit = true → w.pending = 0

theorem Smooth.toSettled {w : Window} (h : w.Smooth) : w.Settled := ⟨h.pending_le, h.settled⟩

/-! ## Consuming -/

section Consume

variable {w w' : Window} {m n : Nat}

theorem settle_eq_self (h : w.autoCommit = true → w.pending = 0) : w.settle = w := by
  obtain ⟨source, order, auto, lookahead, cursor, committed, limit, exhausted⟩ := w
  cases auto with
  | false => rfl
  | true =>
    cases (h rfl : cursor = 0)
    rfl

theorem position_settle (w : Window) :
    w.settle.position = if w.autoCommit then w.totalRead else w.position := by
  rw [settle]
  split <;> rfl

theorem consume_of_off (off : w.autoCommit = false) : w.consume n = w.advance n :=
  settle_eq_self fun on ↦ Bool.noConfusion (off.symm.trans on)

theorem consume_zero (h : w.Settled) : w.consume 0 = w := settle_eq_self h.settled

@[simp] theorem source_consume (n : Nat) (w : Window) : (w.consume n).source = w.source := by
  rw [consume, settle]
  split <;> rfl

@[simp] theorem limit_consume (n : Nat) (w : Window) : (w.consume n).limit = w.limit := by
  rw [consume, settle]
  split <;> rfl

@[simp] theorem exhausted_consume (n : Nat) (w : Window) :
    (w.consume n).exhausted = w.exhausted := by
  rw [consume, settle]
  split <;> rfl

@[simp] theorem autoCommit_consume (n : Nat) (w : Window) :
    (w.consume n).autoCommit = w.autoCommit := autoCommit_settle _

@[simp] theorem room_consume (n : Nat) (w : Window) : (w.consume n).room = w.room := by
  rw [room, room, limit_consume, source_consume]

@[simp] theorem unread_consume (n : Nat) (w : Window) :
    (w.consume n).unread = w.unread.drop n := by
  rw [consume, unread_settle, unread, unread, List.drop_drop]
  rfl

/-- Consuming in two goes is consuming in one. -/
theorem consume_consume (m n : Nat) (w : Window) :
    (w.consume m).consume n = w.consume (m + n) := by
  obtain ⟨source, order, auto, lookahead, cursor, committed, limit, exhausted⟩ := w
  cases auto with
  | false => simp [consume, settle, advance, Nat.add_assoc]
  | true => simp [consume, settle, advance, commit, List.drop_drop, Nat.add_assoc]

theorem settled_commit (w : Window) : w.commit.Settled := ⟨Nat.zero_le _, fun _ ↦ rfl⟩

theorem Settled.settle (inside : w.pending ≤ w.lookahead.length) : w.settle.Settled := by
  refine ⟨?_, pending_settle⟩
  rw [Window.settle]
  split
  · exact Nat.zero_le _
  · exact inside

theorem Settled.consume (h : w.Settled) (there : n ≤ w.unread.length) : (w.consume n).Settled :=
  .settle (pending_advance_le h.pending_le there)

theorem Settled.setAutoCommit (h : w.Settled) (on : Bool) : (w.setAutoCommit on).Settled := by
  rw [Window.setAutoCommit]
  cases on with
  | false => exact ⟨h.pending_le, fun on ↦ by cases on⟩
  | true =>
    cases auto : w.autoCommit with
    | true => exact ⟨h.pending_le, fun _ ↦ h.settled auto⟩
    | false => exact ⟨Nat.zero_le _, fun _ ↦ rfl⟩

theorem Settled.enter (h : w.Settled) : w.enter.Settled := ⟨h.pending_le, nofun⟩

theorem Settled.leave (h : w.Settled) (before : Window) (failed : Bool) :
    (Window.leave before failed w).Settled :=
  .settle (Nat.le_trans (cursor_leave_le before w failed) h.pending_le)

end Consume

/-! ## Reading ahead -/

namespace Pulled

variable {taken taken' : Bytes} {w w' w'' : Window}

theorem limit_eq (h : Pulled taken w w') : w'.limit = w.limit := by rw [h.frame]

theorem settled (h : Pulled taken w w') (settled : w.Settled) : w'.Settled where
  pending_le := h.pending_le settled.pending_le
  settled on := by
    rw [pending, h.cursor_eq]
    exact settled.settled (h.autoCommit_eq ▸ on)

theorem trans (h : Pulled taken w w') (h' : Pulled taken' w' w'') :
    Pulled (taken ++ taken') w w'' where
  frame := by
    rw [h'.frame, h.frame]
    simp only [List.append_assoc]
  source := by rw [List.append_assoc, h'.source, h.source]
  delivered := by rw [h'.delivered, h.delivered, List.length_append, Nat.add_assoc]
  plan := h'.plan.trans h.plan
  room r free := by
    have first := h.room r free
    have second := h'.room (r - taken.length) (by rw [h.room_eq, free]; rfl)
    rw [List.length_append]
    omega
  exhausted stopped := by
    have same := h.exhausted stopped
    rw [h'.exhausted (same ▸ stopped), same]
  steady steady := h'.steady (h.steady steady)
  ended steady going stopped := by
    cases early : w'.exhausted with
    | true =>
      rw [h'.exhausted early]
      exact h.ended steady going early
    | false => exact h'.ended (h.steady steady) early stopped

/-- Where the cursor stands and how commits are made does not matter to reading
ahead. -/
theorem refit (h : Pulled taken w w') (cursor : Nat) (auto : Bool) :
    Pulled taken { w with cursor, autoCommit := auto } { w' with cursor, autoCommit := auto } :=
  { h with
    frame := congrArg (fun v : Window ↦ { v with cursor, autoCommit := auto }) h.frame
    exhausted := fun stopped ↦
      congrArg (fun v : Window ↦ { v with cursor, autoCommit := auto }) (h.exhausted stopped) }

/-- What is read ahead after bytes were consumed could have been read before. -/
theorem before_consume {n : Nat} (h : Pulled taken (w.consume n) w')
    (inside : w.pending ≤ w.lookahead.length) (there : n ≤ w.unread.length) :
    ∃ w₁, Pulled taken w w₁ ∧ w' = w₁.consume n := by
  have fits : w.cursor + n ≤ w.lookahead.length := pending_advance_le inside there
  have nothing : w.exhausted = true → taken = [] := by
    intro stopped
    have same := h.exhausted ((exhausted_consume n w).trans stopped)
    have := h.lookahead_eq
    rw [same] at this
    exact List.self_eq_append_right.1 this
  refine ⟨{ w with
      source := w'.source, lookahead := w.lookahead ++ taken, exhausted := w'.exhausted }, ?_, ?_⟩
  · exact
      { frame := rfl
        source := by rw [h.source, source_consume]
        delivered := by rw [h.delivered, source_consume]
        plan := source_consume n w ▸ h.plan
        room := fun r free ↦ h.room r ((room_consume n w).trans free)
        exhausted := fun stopped ↦ by
          rw [nothing stopped, h.exhausted ((exhausted_consume n w).trans stopped),
            source_consume, exhausted_consume, List.append_nil]
        steady := fun steady ↦ h.steady (by rwa [source_consume])
        ended := fun steady going stopped ↦ by
          have := h.ended (by rwa [source_consume]) ((exhausted_consume n w).trans going) stopped
          rw [Window.room, h.limit_eq, limit_consume] at this
          exact this }
  · rw [h.frame]
    cases auto : w.autoCommit with
    | false => simp [Window.consume, settle, advance, auto]
    | true =>
      simp [Window.consume, settle, advance, commit, auto, List.drop_append_of_le_length fits]

end Pulled

/-! ## Moving on -/

/-- `w'` is `w` after it has read ahead and consumed the next `n` bytes. -/
def Moved (n : Nat) (w w' : Window) : Prop :=
  ∃ taken w₁, Pulled taken w w₁ ∧ n ≤ w₁.unread.length ∧ w' = w₁.consume n

theorem Pulled.moved {taken : Bytes} {w w' : Window} (h : Pulled taken w w') (settled : w.Settled) :
    Moved 0 w w' :=
  ⟨taken, w', h, Nat.zero_le _, (consume_zero (h.settled settled)).symm⟩

namespace Moved

variable {m n : Nat} {w w' w'' : Window}

theorem refl (h : w.Settled) : Moved 0 w w := (Pulled.refl w).moved h

theorem totalRead_eq (h : Moved n w w') : w'.totalRead = w.totalRead + n := by
  obtain ⟨taken, w₁, pulled, -, rfl⟩ := h
  rw [totalRead_consume, pulled.totalRead_eq]

theorem order_eq (h : Moved n w w') : w'.order = w.order := by
  obtain ⟨taken, w₁, pulled, -, rfl⟩ := h
  rw [order_consume, pulled.order_eq]

theorem limit_eq (h : Moved n w w') : w'.limit = w.limit := by
  obtain ⟨taken, w₁, pulled, -, rfl⟩ := h
  rw [limit_consume, pulled.limit_eq]

theorem autoCommit_eq (h : Moved n w w') : w'.autoCommit = w.autoCommit := by
  obtain ⟨taken, w₁, pulled, -, rfl⟩ := h
  rw [autoCommit_consume, pulled.autoCommit_eq]

theorem settled (h : Moved n w w') (settled : w.Settled) : w'.Settled := by
  obtain ⟨taken, w₁, pulled, there, rfl⟩ := h
  exact (pulled.settled settled).consume there

/-- With automatic commits what is consumed is given up. -/
theorem position_eq (h : Moved n w w') (settled : w.Settled) :
    w'.position = w.position + if w.autoCommit then n else 0 := by
  have total := h.totalRead_eq
  cases auto : w.autoCommit with
  | true =>
    have before : w.cursor = 0 := settled.settled auto
    have behind : w'.cursor = 0 := (h.settled settled).settled (h.autoCommit_eq.trans auto)
    simpa [totalRead, position, before, behind] using total
  | false =>
    obtain ⟨taken, w₁, pulled, -, rfl⟩ := h
    rw [consume_of_off (pulled.autoCommit_eq.trans auto)]
    exact pulled.committed_eq

theorem trans (h : Moved m w w') (h' : Moved n w' w'') (settled : w.Settled) :
    Moved (m + n) w w'' := by
  obtain ⟨taken, w₁, pulled, there, rfl⟩ := h
  obtain ⟨taken', w₂, pulled', there', rfl⟩ := h'
  have inside := (pulled.settled settled).pending_le
  obtain ⟨w₃, pulled₃, rfl⟩ := pulled'.before_consume inside there
  refine ⟨_, w₃, pulled.trans pulled₃, ?_, consume_consume m n w₃⟩
  have ahead : m ≤ w₃.unread.length := by
    rw [pulled₃.unread_eq inside, List.length_append]
    omega
  rw [unread_consume, List.length_drop] at there'
  omega

theorem smooth (h : Moved n w w') (smooth : w.Smooth) : w'.Smooth := by
  obtain ⟨taken, w₁, pulled, there, rfl⟩ := h
  exact (smooth.pulled pulled).consume there

theorem remaining_eq (h : Moved n w w') (smooth : w.Smooth) :
    w'.remaining = w.remaining.drop n := by
  obtain ⟨taken, w₁, pulled, there, rfl⟩ := h
  rw [remaining_consume (smooth.pulled pulled).pending_le there,
    pulled.remaining_eq smooth.pending_le smooth.steady]

theorem length_remaining_le (h : Moved n w w') (smooth : w.Smooth) :
    w'.remaining.length ≤ w.remaining.length := by
  rw [h.remaining_eq smooth, List.length_drop]
  exact Nat.sub_le _ _

theorem le_remaining (h : Moved n w w') (smooth : w.Smooth) : n ≤ w.remaining.length := by
  obtain ⟨taken, w₁, pulled, there, rfl⟩ := h
  rw [← pulled.remaining_eq smooth.pending_le smooth.steady, remaining, List.length_append]
  omega

end Moved

/-! ## Switching commits -/

section Switching

variable {n : Nat} {w w' : Window}

/-- Switching commits off does not matter to reading ahead. -/
theorem Pulled.switched {taken : Bytes} (on : w.autoCommit = true)
    (h : Pulled taken (w.setAutoCommit false) w') :
    Pulled taken w { w' with autoCommit := true } := by
  have refit := h.refit w.cursor true
  have same : w'.cursor = w.cursor := h.cursor_eq
  rw [← same] at refit
  obtain ⟨source, order, auto, lookahead, cursor, committed, limit, exhausted⟩ := w
  cases (on : auto = true)
  cases (same : _ = cursor)
  exact refit

/-- What is consumed while commits are off is given up when they are on again. -/
theorem Moved.commit_later (on : w.autoCommit = true) (h : Moved n (w.setAutoCommit false) w') :
    Moved n w (w'.setAutoCommit true) := by
  obtain ⟨taken, w₁, pulled, there, rfl⟩ := h
  have off : w₁.autoCommit = false := pulled.autoCommit_eq
  refine ⟨taken, { w₁ with autoCommit := true }, pulled.switched on, there, ?_⟩
  rw [consume_of_off off, setAutoCommit]
  simp [advance, off, consume, settle, commit]

/-- What is consumed while commits are off can be taken back. -/
theorem Moved.take_back (settled : w.Settled) (on : w.autoCommit = true)
    (h : Moved n (w.setAutoCommit false) w') :
    Moved 0 w ((w'.discard none).setAutoCommit true) := by
  obtain ⟨taken, w₁, pulled, there, rfl⟩ := h
  have off : w₁.autoCommit = false := pulled.autoCommit_eq
  have start : w₁.cursor = 0 := pulled.cursor_eq.trans (settled.settled on)
  have same : ((w₁.consume n).discard none).setAutoCommit true =
      { w₁ with autoCommit := true } := by
    rw [consume_of_off off, setAutoCommit]
    simp [advance, off, discard, commit, start]
  rw [same]
  exact (pulled.switched on).moved settled

end Switching

/-! ## Actions that move on -/

/-- Whether it succeeds or fails, the action moves on in the window. -/
def Moves {α : Type} (action : Action α) : Prop :=
  ∀ w : Window, w.Settled → ∃ n, Moved n w (after (action w))

namespace Moves

variable {α β : Type}

theorem pure (a : α) : Moves (Pure.pure a) := fun _ settled ↦ ⟨0, .refl settled⟩

theorem get : Moves (MonadState.get : Action Window) := fun _ settled ↦ ⟨0, .refl settled⟩

theorem throw (e : Error) : Moves (MonadExcept.throw e : Action α) :=
  fun _ settled ↦ ⟨0, .refl settled⟩

theorem bind {x : Action α} {f : α → Action β} (hx : Moves x) (hf : ∀ a, Moves (f a)) :
    Moves (x >>= f) := by
  intro w settled
  obtain ⟨m, first⟩ := hx w settled
  cases eq : x w with
  | error e w' =>
    rw [eq] at first
    rw [Action.bind_of_error eq]
    exact ⟨m, first⟩
  | ok a w' =>
    rw [eq] at first
    rw [Action.bind_of_ok eq]
    obtain ⟨n, second⟩ := hf a w' (first.settled settled)
    exact ⟨m + n, first.trans second settled⟩

end Moves

/-- Looking ahead consumes nothing. -/
theorem moved_peek (count : Nat) {w : Window} (settled : w.Settled) :
    Moved 0 w (after (peek count w)) := by
  obtain ⟨taken, w', pulled, ⟨eq, -⟩ | ⟨eq, -⟩⟩ := peek_spec count settled.pending_le
  · rw [eq]
    exact pulled.moved settled
  · rw [eq]
    exact pulled.moved settled

theorem moves_peek (count : Nat) : Moves (peek count) :=
  fun _ settled ↦ ⟨0, moved_peek count settled⟩

/-- An action of the common shape consumes its bytes or nothing. -/
theorem Consumes.moved {α : Type} {n : Nat} {look : ByteOrder → Bytes → Except Error α}
    {action : Action α} (consumes : Consumes n look action) {w : Window} (settled : w.Settled) :
    Moved (if (outcome (action w)).isOk then n else 0) w (after (action w)) := by
  obtain ⟨r, w', asked, eq⟩ := consumes w settled.pending_le
  obtain ⟨taken, pulled⟩ := asked.pulled
  rw [eq, outcome_conclude]
  cases asked with
  | short | denied => exact pulled.moved settled
  | enough _ there =>
    change Moved (if (look w.order (w'.unread.take n)).isOk then n else 0) w
      (after (conclude (Window.consume n) w' (look w.order (w'.unread.take n))))
    cases look w.order (w'.unread.take n) with
    | error e => exact pulled.moved settled
    | ok a => exact ⟨taken, w', pulled, there, rfl⟩

theorem moves_bytes (count : Nat) : Moves (bytes count) :=
  fun _ settled ↦ ⟨_, (consumes_bytes count).moved settled⟩

theorem moves_skipBlocks (blocks : Nat) : Moves (skipBlocks blocks) := by
  induction blocks with
  | zero => exact .pure ()
  | succ blocks ih => exact (moves_bytes skipSize).bind fun _ ↦ ih

theorem moves_skip (count : Nat) : Moves (skip count) :=
  (moves_skipBlocks _).bind fun _ ↦ (moves_bytes _).bind fun _ ↦ .pure ()

/-- Blocks that are all skipped are consumed. -/
theorem moved_skipBlocks (blocks : Nat) {w w' : Window} (settled : w.Settled)
    (done : skipBlocks blocks w = .ok () w') : Moved (skipSize * blocks) w w' := by
  induction blocks generalizing w with
  | zero =>
    cases done
    exact .refl settled
  | succ blocks ih =>
    have first := (consumes_bytes skipSize).moved settled
    cases eq : bytes skipSize w with
    | error e w₁ =>
      rw [skipBlocks, Action.bind_of_error eq] at done
      cases done
    | ok bs w₁ =>
      rw [skipBlocks, Action.bind_of_ok eq] at done
      rw [eq] at first
      rw [Nat.mul_succ, Nat.add_comm]
      exact first.trans (ih (first.settled settled) done) settled

/-- A skip that succeeds consumes all that it was asked to. -/
theorem moved_skip (count : Nat) {w w' : Window} (settled : w.Settled)
    (done : skip count w = .ok () w') : Moved count w w' := by
  cases blocks : skipBlocks (count / skipSize) w with
  | error e w₁ =>
    rw [skip, Action.bind_of_error blocks] at done
    cases done
  | ok u w₁ =>
    have first := moved_skipBlocks _ settled blocks
    have last := (consumes_bytes (count % skipSize)).moved (first.settled settled)
    cases eq : bytes (count % skipSize) w₁ with
    | error e w₂ =>
      rw [skip, Action.bind_of_ok blocks, Action.bind_of_error eq] at done
      cases done
    | ok bs w₂ =>
      rw [skip, Action.bind_of_ok blocks, Action.bind_of_ok eq] at done
      cases done
      rw [eq] at last
      rw [← Nat.div_add_mod count skipSize]
      exact first.trans last settled

end Disasm.Window
