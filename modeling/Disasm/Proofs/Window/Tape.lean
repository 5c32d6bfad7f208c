import Disasm.Proofs.Window.Reading

/-!
# The tape of a window

A tape has all its bytes at hand: those that were decoded and not given up and
those that are still to come.  A window over a steady source that denies no read
does what its tape does, whatever the chunks in which its bytes arrive and
whatever it has read ahead so far.  `Smooth` names such windows, `tape` is the
tape of a window, and `perform_eq` says that a step on the window is the step on
the tape.  On the tape the steps are easy to read: there is no filling, no limit
and no look-ahead.
-/

namespace Disasm.Window

/-- A window whose bytes are all at hand. -/
structure Tape where
  order : ByteOrder
  autoCommit : Bool
  /-- How many bytes were given up. -/
  position : Nat
  /-- The bytes decoded and not given up. -/
  kept : Bytes
  /-- The bytes to come. -/
  remaining : Bytes
deriving DecidableEq

namespace Tape

/-- Where a tape stands. -/
def place (t : Tape) : Place :=
  ⟨t.position, t.position + t.kept.length, t.kept.length, t.autoCommit⟩

def commit (t : Tape) : Tape := { t with position := t.position + t.kept.length, kept := [] }

def settle (t : Tape) : Tape := if t.autoCommit then t.commit else t

/-- Moves back until `count` decoded bytes are left. -/
def moveBack (count : Nat) (t : Tape) : Tape :=
  { t with kept := t.kept.take count, remaining := t.kept.drop count ++ t.remaining }

def discard (count : Option Nat) (t : Tape) : Tape :=
  t.moveBack (t.kept.length - count.getD t.kept.length)

def setAutoCommit (on : Bool) (t : Tape) : Tape :=
  { (if on && !t.autoCommit then t.commit else t) with autoCommit := on }

def enter (t : Tape) : Tape := { t with autoCommit := false }

/-- The end of a transaction that began at `before`. -/
def leave (before : Tape) (failed : Bool) (t : Tape) : Tape :=
  settle { (if failed then t.moveBack (min before.kept.length t.kept.length) else t) with
    autoCommit := before.autoCommit }

def advance (n : Nat) (t : Tape) : Tape :=
  { t with kept := t.kept ++ t.remaining.take n, remaining := t.remaining.drop n }

def consume (n : Nat) (t : Tape) : Tape := (t.advance n).settle

/-- The tape of a slice. -/
def ofBytes (bs : Bytes) (order : ByteOrder) : Tape := ⟨order, true, 0, [], bs⟩

/-- Looks at the next `n` bytes and consumes them, unless they are not there or
`look` rejects them. -/
def read {α : Type} (n : Nat) (look : ByteOrder → Bytes → Except Error α) (t : Tape) :
    Except Error α × Tape :=
  if t.remaining.length < n then (.error .outOfBounds, t)
  else
    match look t.order (t.remaining.take n) with
    | .ok a => (.ok a, t.consume n)
    | .error e => (.error e, t)

/-- What a step does.  The two steps that tell the limit answer nothing here. -/
def perform : Step → Tape → Except Error Value × Tape
  | .scalar k, t => t.read k.size fun order bs ↦ .ok (.scalar k (order.value bs))
  | .scalars k count, t =>
    if addressBound ≤ k.size * count then (.error .outOfBounds, t)
    else t.read (k.size * count) fun order bs ↦ .ok (.scalars k (runs order k.size count bs))
  | .bytes n, t => t.read n fun _ bs ↦ .ok (.bytes bs)
  | .magic k expected, t =>
    t.read k.size fun order bs ↦
      if order.value bs = expected then .ok .unit
      else .error (.magic expected (order.value bs))
  | .skip n, t =>
    if n ≤ t.remaining.length then (.ok .unit, t.consume n)
    else (.error .outOfBounds, t.consume (skipSize * (t.remaining.length / skipSize)))
  | .peek n, t => (.ok (.bytes (t.remaining.take n)), t)
  | .hasRemaining, t => (.ok (.flag !t.remaining.isEmpty), t)
  | .commit, t => (.ok .unit, t.commit)
  | .discard count, t => (.ok .unit, t.discard count)
  | .autoCommit on, t => (.ok .unit, t.setAutoCommit on)
  | .order o, t => (.ok (.order o), { t with order := o })
  | .limit, t | .describe, t => (.ok .unit, t)
  | .fail, t => (.error .empty, t)

/-- Consuming in two goes is consuming in one. -/
theorem consume_consume (m n : Nat) (t : Tape) :
    (t.consume m).consume n = t.consume (m + n) := by
  obtain ⟨order, auto, position, kept, remaining⟩ := t
  cases auto with
  | false =>
    simp only [consume, settle, advance, Bool.false_eq_true, if_false, List.append_assoc,
      List.take_add, List.drop_drop]
  | true =>
    simp only [consume, settle, advance, commit, if_true, List.take_add, List.drop_drop,
      List.length_append, List.nil_append, Nat.add_assoc]

/-- A tape that has settled does not change where nothing is consumed. -/
theorem consume_zero {t : Tape} (h : t.autoCommit = true → t.kept = []) : t.consume 0 = t := by
  obtain ⟨order, auto, position, kept, remaining⟩ := t
  cases auto with
  | false => simp [consume, settle, advance]
  | true =>
    cases h rfl
    simp [consume, settle, advance, commit]

@[simp] theorem remaining_consume (n : Nat) (t : Tape) :
    (t.consume n).remaining = t.remaining.drop n := by
  rw [consume, settle]
  split <;> rfl

end Tape

/-- The tape of a window. -/
def tape (w : Window) : Tape :=
  ⟨w.order, w.autoCommit, w.committed, w.lookahead.take w.cursor, w.remaining⟩

/-- A settled window over a steady source that denies no read. -/
structure Smooth (w : Window) : Prop where
  steady : w.source.Steady
  undenied : .deny ∉ w.source.plan
  pending_le : w.pending ≤ w.lookahead.length
  settled : w.autoCommit = true → w.pending = 0

/-! ## Windows and their tapes -/

section Tapes

variable {w w' : Window}

theorem length_kept (h : w.pending ≤ w.lookahead.length) : w.tape.kept.length = w.pending :=
  List.length_take_of_le h

theorem place_tape (h : w.pending ≤ w.lookahead.length) : w.tape.place = w.place := by
  rw [Tape.place, length_kept h]
  rfl

theorem tape_commit (h : w.pending ≤ w.lookahead.length) : w.commit.tape = w.tape.commit := by
  rw [Tape.commit, length_kept h]
  rfl

theorem tape_settle (h : w.pending ≤ w.lookahead.length) : w.settle.tape = w.tape.settle := by
  rw [settle, Tape.settle]
  change _ = if w.autoCommit then _ else _
  split
  · exact tape_commit h
  · rfl

theorem tape_moveBack {cursor : Nat} (h : cursor ≤ w.cursor) :
    ({ w with cursor } : Window).tape = w.tape.moveBack cursor := by
  have kept : w.lookahead.take cursor = (w.lookahead.take w.cursor).take cursor := by
    rw [List.take_take, Nat.min_eq_left h]
  have unread : w.lookahead.drop cursor =
      (w.lookahead.take w.cursor).drop cursor ++ w.unread := by
    have : w.unread = (w.lookahead.drop cursor).drop (w.cursor - cursor) := by
      rw [unread, List.drop_drop, Nat.add_sub_cancel' h]
    rw [this, List.drop_take, List.take_append_drop]
  change (⟨_, _, _, w.lookahead.take cursor, w.lookahead.drop cursor ++ w.upcoming⟩ : Tape) = _
  rw [kept, unread, List.append_assoc]
  rfl

theorem tape_discard (h : w.pending ≤ w.lookahead.length) (count : Option Nat) :
    (w.discard count).tape = w.tape.discard count := by
  rw [Tape.discard, length_kept h]
  exact tape_moveBack (Nat.sub_le _ _)

theorem tape_setAutoCommit (h : w.pending ≤ w.lookahead.length) (on : Bool) :
    (w.setAutoCommit on).tape = w.tape.setAutoCommit on := by
  rw [setAutoCommit, Tape.setAutoCommit, show w.tape.autoCommit = w.autoCommit from rfl]
  by_cases on : (on && !w.autoCommit) = true
  · rw [if_pos on, if_pos on, ← tape_commit h]
    rfl
  · rw [if_neg on, if_neg on]
    rfl

theorem tape_leave {before : Window} (inside : before.pending ≤ before.lookahead.length)
    (h : w.pending ≤ w.lookahead.length) (failed : Bool) :
    (leave before failed w).tape = before.tape.leave failed w.tape := by
  cases failed with
  | false => exact tape_settle (w := { w with autoCommit := before.autoCommit }) h
  | true =>
    have le : min before.cursor w.cursor ≤ w.cursor := Nat.min_le_right _ _
    have back := tape_moveBack le
    rw [Tape.leave, length_kept inside, length_kept h]
    calc (leave before true w).tape
        = Tape.settle { ({ w with cursor := min before.cursor w.cursor } : Window).tape with
            autoCommit := before.autoCommit } :=
          tape_settle (w := { w with
            cursor := min before.cursor w.cursor, autoCommit := before.autoCommit })
            (Nat.le_trans le h)
      _ = _ := by
        rw [back]
        rfl

theorem tape_advance {n : Nat} (there : n ≤ w.unread.length) :
    (w.advance n).tape = w.tape.advance n := by
  have kept : w.lookahead.take (w.cursor + n) =
      w.lookahead.take w.cursor ++ w.remaining.take n := by
    rw [List.take_add, remaining, List.take_append_of_le_length there, unread]
  have behind : w.lookahead.drop (w.cursor + n) ++ w.upcoming = w.remaining.drop n := by
    rw [← List.drop_drop, remaining, List.drop_append_of_le_length there, unread]
  change (⟨_, _, _, w.lookahead.take (w.cursor + n),
    w.lookahead.drop (w.cursor + n) ++ w.upcoming⟩ : Tape) = _
  rw [kept, behind]
  rfl

theorem pending_advance_le {n : Nat} (h : w.pending ≤ w.lookahead.length)
    (there : n ≤ w.unread.length) : (w.advance n).pending ≤ (w.advance n).lookahead.length := by
  have inside : w.cursor ≤ w.lookahead.length := h
  rw [unread, List.length_drop] at there
  change w.cursor + n ≤ w.lookahead.length
  omega

theorem tape_consume {n : Nat} (h : w.pending ≤ w.lookahead.length)
    (there : n ≤ w.unread.length) : (w.consume n).tape = w.tape.consume n := by
  rw [consume, tape_settle (pending_advance_le h there), tape_advance there, Tape.consume]

theorem remaining_consume {n : Nat} (h : w.pending ≤ w.lookahead.length)
    (there : n ≤ w.unread.length) : (w.consume n).remaining = w.remaining.drop n :=
  (congrArg Tape.remaining (tape_consume h there)).trans (Tape.remaining_consume n w.tape)

/-- Reading ahead does not show on the tape, over a steady source. -/
theorem tape_pulled_of_steady {taken : Bytes} (inside : w.pending ≤ w.lookahead.length)
    (steady : w.source.Steady) (pulled : Pulled taken w w') : w'.tape = w.tape := by
  have kept : (w.lookahead ++ taken).take w.cursor = w.lookahead.take w.cursor :=
    List.take_append_of_le_length inside
  rw [tape, tape, pulled.order_eq, pulled.autoCommit_eq, pulled.committed_eq, pulled.cursor_eq,
    pulled.lookahead_eq, kept, pulled.remaining_eq inside steady]

theorem tape_pulled {taken : Bytes} (h : w.Smooth) (pulled : Pulled taken w w') :
    w'.tape = w.tape :=
  tape_pulled_of_steady h.pending_le h.steady pulled

end Tapes

/-! ## Smooth windows -/

namespace Smooth

variable {w w' : Window}

/-- A window that was not used is smooth if its source is. -/
theorem fresh {data : Bytes} {plan : List PlannedRead} {order : ByteOrder} {limit : Option Nat}
    (steady : Source.Steady { data, plan }) (undenied : .deny ∉ plan) :
    Smooth { source := { data, plan }, order, limit } :=
  ⟨steady, undenied, Nat.le_refl 0, fun _ ↦ rfl⟩

theorem pulled {taken : Bytes} (h : w.Smooth) (pulled : Pulled taken w w') : w'.Smooth where
  steady := pulled.steady h.steady
  undenied m := h.undenied (pulled.plan.subset m)
  pending_le := pulled.pending_le h.pending_le
  settled on := by
    rw [pending, pulled.cursor_eq]
    exact h.settled (pulled.autoCommit_eq ▸ on)

theorem commit (h : w.Smooth) : w.commit.Smooth :=
  ⟨h.steady, h.undenied, Nat.zero_le _, fun _ ↦ rfl⟩

theorem enter (h : w.Smooth) : w.enter.Smooth := { h with settled := fun on ↦ by cases on }

theorem discard (h : w.Smooth) (count : Option Nat) : (w.discard count).Smooth :=
  { h with
    pending_le := Nat.le_trans (Nat.sub_le _ _) h.pending_le
    settled := fun on ↦ by
      have : w.cursor = 0 := h.settled on
      change w.cursor - _ = 0
      rw [this, Nat.zero_sub] }

/-- Settling makes a window smooth again. -/
theorem of_settle (steady : w.source.Steady) (undenied : .deny ∉ w.source.plan)
    (inside : w.pending ≤ w.lookahead.length) : w.settle.Smooth := by
  have eq : w.settle.source = w.source := by rw [settle]; split <;> rfl
  refine ⟨eq ▸ steady, eq ▸ undenied, ?_, pending_settle⟩
  rw [settle]
  split
  · exact Nat.zero_le _
  · exact inside

theorem consume {n : Nat} (h : w.Smooth) (there : n ≤ w.unread.length) : (w.consume n).Smooth :=
  of_settle h.steady h.undenied (pending_advance_le h.pending_le there)

theorem leave (h : w.Smooth) (before : Window) (failed : Bool) :
    (Window.leave before failed w).Smooth := by
  exact of_settle h.steady h.undenied
    (Nat.le_trans (cursor_leave_le before w failed) h.pending_le)

theorem setAutoCommit (h : w.Smooth) (on : Bool) : (w.setAutoCommit on).Smooth := by
  rw [Window.setAutoCommit]
  cases on with
  | false => exact { h with settled := fun on ↦ by cases on }
  | true =>
    cases auto : w.autoCommit with
    | true => exact { h with settled := fun _ ↦ h.settled auto }
    | false => exact { h.commit with settled := fun _ ↦ rfl }

theorem tape_settled (h : w.Smooth) (on : w.tape.autoCommit = true) : w.tape.kept = [] := by
  rw [← List.length_eq_zero_iff, length_kept h.pending_le]
  exact h.settled on

end Smooth

/-! ## Steps -/

section Steps

variable {α : Type} {n : Nat} {w w' : Window}

/-- A smooth window that is asked for bytes has them if its tape has. -/
theorem Asked.on_tape {r : Except Error Bytes} (asked : Asked n w r w') (h : w.Smooth) :
    w'.Smooth ∧ w'.tape = w.tape ∧
      ((w.remaining.length < n ∧ r = .error .outOfBounds) ∨
        (n ≤ w.remaining.length ∧ n ≤ w'.unread.length ∧ r = .ok (w.remaining.take n))) := by
  obtain ⟨taken, pulled⟩ := asked.pulled
  have same := pulled.remaining_eq h.pending_le h.steady
  refine ⟨h.pulled pulled, tape_pulled h pulled, ?_⟩
  rw [← same]
  cases asked with
  | enough _ there =>
    refine .inr ⟨?_, there, ?_⟩
    · rw [remaining, List.length_append]
      omega
    · rw [remaining, List.take_append_of_le_length there]
  | short _ few ended =>
    refine .inl ⟨?_, rfl⟩
    rw [remaining, upcoming, if_pos ended, List.append_nil]
    exact few
  | denied _ m => exact absurd m h.undenied

/-- An action of the common shape does on a smooth window what it does on the
tape. -/
theorem Consumes.on_tape {look : ByteOrder → Bytes → Except Error α} {action : Action α}
    (consumes : Consumes n look action) (h : w.Smooth) :
    (outcome (action w), (after (action w)).tape) = w.tape.read n look ∧
      (after (action w)).Smooth := by
  obtain ⟨r, w', asked, eq⟩ := consumes w h.pending_le
  obtain ⟨smooth, same, ⟨few, rfl⟩ | ⟨enough, there, rfl⟩⟩ := asked.on_tape h
  · rw [eq, Tape.read]
    refine ⟨?_, smooth⟩
    rw [if_pos (show w.tape.remaining.length < n from few), ← same]
    rfl
  · rw [eq, Tape.read, if_neg (show ¬w.tape.remaining.length < n from Nat.not_lt.2 enough)]
    change (outcome (conclude (consume n) w' (look w.order (w.remaining.take n))),
      (after (conclude (consume n) w' (look w.order (w.remaining.take n)))).tape) =
        (match look w.order (w.remaining.take n) with
          | .ok a => _
          | .error e => _) ∧
      (after (conclude (consume n) w' (look w.order (w.remaining.take n)))).Smooth
    cases look w.order (w.remaining.take n) with
    | error e => exact ⟨congrArg _ same, smooth⟩
    | ok a =>
      refine ⟨?_, smooth.consume there⟩
      rw [← same, ← tape_consume smooth.pending_le there]
      rfl

theorem peek_on_tape (n : Nat) (h : w.Smooth) :
    ∃ w', peek n w = .ok (w.remaining.take n) w' ∧ w'.tape = w.tape ∧ w'.Smooth := by
  obtain ⟨taken, w', pulled, ⟨peeked, enough⟩ | ⟨-, m⟩⟩ := peek_spec n h.pending_le
  · refine ⟨w', ?_, tape_pulled h pulled, h.pulled pulled⟩
    rw [peeked, ← pulled.remaining_eq h.pending_le h.steady, remaining]
    rcases enough with ended | enough
    · rw [upcoming, if_pos ended, List.append_nil]
    · rw [List.take_append_of_le_length enough]
  · exact absurd m h.undenied

/-- Blocks are skipped as long as there are whole blocks. -/
theorem skipBlocks_on_tape (blocks : Nat) (h : w.Smooth) :
    ∃ w', w'.Smooth ∧
      ((skipSize * blocks ≤ w.remaining.length ∧ skipBlocks blocks w = .ok () w' ∧
          w'.tape = w.tape.consume (skipSize * blocks)) ∨
        (w.remaining.length < skipSize * blocks ∧ skipBlocks blocks w = .error .outOfBounds w' ∧
          w'.tape = w.tape.consume (skipSize * (w.remaining.length / skipSize)))) := by
  induction blocks generalizing w with
  | zero =>
    refine ⟨w, h, .inl ⟨Nat.zero_le _, rfl, ?_⟩⟩
    rw [Nat.mul_zero, Tape.consume_zero h.tape_settled]
  | succ blocks ih =>
    obtain ⟨r, w₁, asked, eq⟩ := consumes_bytes skipSize w h.pending_le
    obtain ⟨smooth, same, ⟨few, rfl⟩ | ⟨enough, there, rfl⟩⟩ := asked.on_tape h
    · refine ⟨w₁, smooth, .inr ⟨by rw [Nat.mul_succ]; omega, ?_, ?_⟩⟩
      · rw [skipBlocks, Action.bind_of_error eq]
      · rw [Nat.div_eq_of_lt few, Nat.mul_zero, Tape.consume_zero h.tape_settled, same]
    · have next := tape_consume smooth.pending_le there
      have left : (w₁.consume skipSize).remaining = w.remaining.drop skipSize := by
        change (w₁.consume skipSize).tape.remaining = w.tape.remaining.drop skipSize
        rw [next, same, Tape.remaining_consume]
      have len : (w₁.consume skipSize).remaining.length = w.remaining.length - skipSize := by
        rw [left, List.length_drop]
      have pos : 0 < skipSize := by decide
      obtain ⟨w', smooth', ⟨room, eq', tape⟩ | ⟨room, eq', tape⟩⟩ := ih (smooth.consume there)
      · refine ⟨w', smooth', .inl ⟨by rw [Nat.mul_succ]; omega, ?_, ?_⟩⟩
        · rw [skipBlocks, Action.bind_of_ok eq, eq']
        · rw [tape, next, same, Tape.consume_consume, Nat.mul_succ, Nat.add_comm]
      · refine ⟨w', smooth', .inr ⟨by rw [Nat.mul_succ]; omega, ?_, ?_⟩⟩
        · rw [skipBlocks, Action.bind_of_ok eq, eq']
        · have : w.remaining.length / skipSize = (w.remaining.length - skipSize) / skipSize + 1 :=
            Nat.div_eq_sub_div pos enough
          rw [tape, next, same, Tape.consume_consume, len, this, Nat.mul_succ, Nat.add_comm]

/-- Skipping consumes all that was asked for, or else the whole blocks that
there are. -/
theorem skip_on_tape (n : Nat) (h : w.Smooth) :
    ∃ w', w'.Smooth ∧
      ((n ≤ w.remaining.length ∧ skip n w = .ok () w' ∧ w'.tape = w.tape.consume n) ∨
        (w.remaining.length < n ∧ skip n w = .error .outOfBounds w' ∧
          w'.tape = w.tape.consume (skipSize * (w.remaining.length / skipSize)))) := by
  have whole := Nat.div_add_mod n skipSize
  obtain ⟨w₁, smooth₁, ⟨room, eq, tape⟩ | ⟨room, eq, tape⟩⟩ := skipBlocks_on_tape (n / skipSize) h
  · have left : w₁.remaining = w.remaining.drop (skipSize * (n / skipSize)) := by
      change w₁.tape.remaining = w.tape.remaining.drop _
      rw [tape, Tape.remaining_consume]
    have len : w₁.remaining.length = w.remaining.length - skipSize * (n / skipSize) := by
      rw [left, List.length_drop]
    obtain ⟨r, w₂, asked, eq₂⟩ := consumes_bytes (n % skipSize) w₁ smooth₁.pending_le
    obtain ⟨smooth₂, same, ⟨few, rfl⟩ | ⟨enough, there, rfl⟩⟩ := asked.on_tape smooth₁
    · refine ⟨w₂, smooth₂, .inr ⟨by omega, ?_, ?_⟩⟩
      · rw [skip, Action.bind_of_ok eq, Action.bind_of_error eq₂]
      · have : n % skipSize < skipSize := Nat.mod_lt n (by decide)
        have : w.remaining.length / skipSize = n / skipSize := by
          refine Nat.div_eq_of_lt_le ?_ ?_
          · rw [Nat.mul_comm]
            exact room
          · rw [Nat.succ_mul, Nat.mul_comm]
            omega
        rw [same, tape, this]
    · refine ⟨w₂.consume (n % skipSize), smooth₂.consume there, .inl ⟨by omega, ?_, ?_⟩⟩
      · rw [skip, Action.bind_of_ok eq, Action.bind_of_ok eq₂]
        rfl
      · rw [tape_consume smooth₂.pending_le there, same, tape, Tape.consume_consume, whole]
  · refine ⟨w₁, smooth₁, .inr ⟨by omega, ?_, tape⟩⟩
    rw [skip, Action.bind_of_error eq]

end Steps

/-- An answer that does not tell the limit. -/
def blind : Value → Value
  | .bound _ | .text _ => .unit
  | v => v

/-- What is seen of a step: its outcome and the tape after it. -/
def seen (r : EStateM.Result Error Window Value) : Except Error Value × Tape :=
  ((outcome r).map blind, (after r).tape)

/-- A step of the common shape does on a smooth window what it does on the tape. -/
theorem Consumes.seen_eq {n : Nat} {look : ByteOrder → Bytes → Except Error Value} {s : Step}
    {w : Window} (consumes : Consumes n look s.perform) (h : w.Smooth)
    (told : ∀ order bs v, look order bs = .ok v → blind v = v) :
    seen (s.perform w) = w.tape.read n look ∧ (after (s.perform w)).Smooth := by
  obtain ⟨eq, smooth⟩ := consumes.on_tape h
  refine ⟨?_, smooth⟩
  rw [seen, ← eq]
  congr 1
  have : outcome (s.perform w) = (w.tape.read n look).1 := congrArg Prod.fst eq
  rw [this, Tape.read]
  split
  · rfl
  · cases looked : look w.tape.order (w.tape.remaining.take n) with
    | error e => rfl
    | ok v => exact congrArg Except.ok (told _ _ v looked)

/-- A step does on a smooth window what it does on the tape, and the window
stays smooth. -/
theorem perform_eq (s : Step) {w : Window} (h : w.Smooth) :
    seen (s.perform w) = w.tape.perform s ∧ (after (s.perform w)).Smooth := by
  cases s with
  | scalar k =>
    refine (consumes_perform_scalar k).seen_eq h ?_
    intro order bs v looked
    cases looked
    rfl
  | scalars k count =>
    rw [Tape.perform]
    by_cases fits : k.size * count < addressBound
    · rw [if_neg (Nat.not_le_of_lt fits)]
      refine (consumes_perform_scalars k fits).seen_eq h ?_
      intro order bs v looked
      cases looked
      rfl
    · rw [if_pos (Nat.le_of_not_lt fits), perform_scalars_of_le k (Nat.le_of_not_lt fits)]
      exact ⟨rfl, h⟩
  | bytes n =>
    refine (consumes_perform_bytes n).seen_eq h ?_
    intro order bs v looked
    cases looked
    rfl
  | magic k expected =>
    refine (consumes_perform_magic k expected).seen_eq h ?_
    intro order bs v looked
    split at looked
    · cases looked
      rfl
    · cases looked
  | skip n =>
    obtain ⟨w', smooth, ⟨room, eq, tape⟩ | ⟨room, eq, tape⟩⟩ := skip_on_tape n h
    · rw [Step.perform, Action.bind_of_ok eq, Tape.perform]
      refine ⟨?_, smooth⟩
      rw [if_pos (show n ≤ w.tape.remaining.length from room), ← tape]
      rfl
    · rw [Step.perform, Action.bind_of_error eq, Tape.perform]
      refine ⟨?_, smooth⟩
      rw [if_neg (show ¬n ≤ w.tape.remaining.length from Nat.not_le_of_lt room)]
      exact congrArg _ tape
  | peek n =>
    obtain ⟨w', eq, tape, smooth⟩ := peek_on_tape n h
    rw [Step.perform, Action.bind_of_ok eq]
    exact ⟨congrArg _ tape, smooth⟩
  | hasRemaining =>
    obtain ⟨w', eq, tape, smooth⟩ := peek_on_tape 1 h
    rw [Step.perform, hasRemaining, bind_assoc, Action.bind_of_ok eq]
    refine ⟨?_, smooth⟩
    have : (w.remaining.take 1).isEmpty = w.tape.remaining.isEmpty := by
      change _ = w.remaining.isEmpty
      cases w.remaining <;> rfl
    rw [Tape.perform, ← this, ← tape]
    rfl
  | commit => exact ⟨congrArg _ (tape_commit h.pending_le), h.commit⟩
  | discard count => exact ⟨congrArg _ (tape_discard h.pending_le count), h.discard count⟩
  | autoCommit on => exact ⟨congrArg _ (tape_setAutoCommit h.pending_le on), h.setAutoCommit on⟩
  | order o => exact ⟨rfl, { h with }⟩
  | limit | describe | fail => exact ⟨rfl, h⟩

end Disasm.Window
