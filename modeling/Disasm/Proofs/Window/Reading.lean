import Disasm.Window.Program
import Disasm.Proofs.Action
import Disasm.Proofs.Window.Fill

/-!
# Reading from a window

Every step that decodes bytes has one shape: it asks for the next `n` bytes,
and if they are there it may look at them, moves behind them and commits if
that is automatic.  `Asked` says how asking ends and `Consumes` says that an
action has this shape; what holds of all such actions is proved of the shape.
-/

namespace Disasm.Window

/-- What can be seen of a window from outside, the limit aside. -/
structure Place where
  position : Nat
  totalRead : Nat
  pending : Nat
  autoCommit : Bool
deriving DecidableEq

/-- Where a window stands. -/
def place (w : Window) : Place := ⟨w.position, w.totalRead, w.pending, w.autoCommit⟩

theorem Pulled.place_eq {taken : Bytes} {w w' : Window} (h : Pulled taken w w') :
    w'.place = w.place := by
  rw [h.frame]
  rfl

/-- The window `n` bytes further on. -/
def advance (n : Nat) (w : Window) : Window := { w with cursor := w.cursor + n }

@[simp] theorem totalRead_advance (n : Nat) (w : Window) :
    (w.advance n).totalRead = w.totalRead + n := (Nat.add_assoc ..).symm

/-- The window `n` bytes further on, where they are given up if that is
automatic. -/
def consume (n : Nat) (w : Window) : Window := (w.advance n).settle

@[simp] theorem totalRead_consume (n : Nat) (w : Window) :
    (w.consume n).totalRead = w.totalRead + n := by
  rw [consume, totalRead_settle, totalRead_advance]

@[simp] theorem order_settle (w : Window) : w.settle.order = w.order := by
  rw [settle]
  split <;> rfl

@[simp] theorem autoCommit_settle (w : Window) : w.settle.autoCommit = w.autoCommit := by
  rw [settle]
  split <;> rfl

@[simp] theorem order_consume (n : Nat) (w : Window) : (w.consume n).order = w.order :=
  order_settle _

/-- Nothing is pending where commits are automatic. -/
theorem pending_settle {w : Window} (h : w.settle.autoCommit = true) : w.settle.pending = 0 := by
  rw [autoCommit_settle] at h
  rw [settle, if_pos h, pending_commit]

/-- A transaction ends at most where its last step ended. -/
theorem cursor_leave_le (before w : Window) (failed : Bool) :
    (if failed then min before.cursor w.cursor else w.cursor) ≤ w.cursor := by
  split
  · exact Nat.min_le_right _ _
  · exact Nat.le_refl _

/-! ## Asking for bytes -/

/-- How a window `w` that is asked for its next `n` bytes ends as `w'`. -/
inductive Asked (n : Nat) (w : Window) : Except Error Bytes → Window → Prop
  /-- The bytes are there. -/
  | enough {taken : Bytes} {w' : Window} : Pulled taken w w' → n ≤ w'.unread.length →
      Asked n w (.ok (w'.unread.take n)) w'
  /-- The source or the limit comes to its end before them. -/
  | short {taken : Bytes} {w' : Window} : Pulled taken w w' → w'.unread.length < n →
      w'.exhausted = true → Asked n w (.error .outOfBounds) w'
  /-- The source refuses to be read. -/
  | denied {taken : Bytes} {w' : Window} : Pulled taken w w' → .deny ∈ w.source.plan →
      Asked n w (.error .readDenied) w'

theorem Asked.pulled {n : Nat} {w w' : Window} {r : Except Error Bytes} (h : Asked n w r w') :
    ∃ taken, Pulled taken w w' := by
  cases h with
  | enough p | short p | denied p => exact ⟨_, p⟩

/-- The end of an action: what it answers, and the window, changed if it
succeeds. -/
def conclude {α : Type} (change : Window → Window) (w : Window) :
    Except Error α → EStateM.Result Error Window α
  | .ok a => .ok a (change w)
  | .error e => .error e w

/-- What looking ahead ends with: all that is there counts as enough. -/
theorem peek_spec (n : Nat) {w : Window} (inside : w.pending ≤ w.lookahead.length) :
    ∃ taken w', Pulled taken w w' ∧
      ((peek n w = .ok (w'.unread.take n) w' ∧ (w'.exhausted = true ∨ n ≤ w'.unread.length)) ∨
        (peek n w = .error .readDenied w' ∧ .deny ∈ w.source.plan)) := by
  obtain ⟨taken, w', pulled, ⟨filled, enough⟩ | ⟨filled, denied⟩⟩ := fill_spec n inside
  · exact ⟨taken, w', pulled, .inl ⟨Action.bind_of_ok filled, enough⟩⟩
  · exact ⟨taken, w', pulled, .inr ⟨Action.bind_of_error filled, denied⟩⟩

/-- A source that denies no read can be looked at. -/
theorem peek_of_undenied (n : Nat) {w : Window} (inside : w.pending ≤ w.lookahead.length)
    (undenied : .deny ∉ w.source.plan) :
    ∃ taken w', Pulled taken w w' ∧ peek n w = .ok (w'.unread.take n) w' ∧
      (w'.exhausted = true ∨ n ≤ w'.unread.length) := by
  obtain ⟨taken, w', pulled, ⟨peeked, ready⟩ | ⟨-, denied⟩⟩ := peek_spec n inside
  · exact ⟨taken, w', pulled, peeked, ready⟩
  · exact absurd denied undenied

theorem take_spec (n : Nat) {w : Window} (inside : w.pending ≤ w.lookahead.length) :
    ∃ r w', Asked n w r w' ∧ take n w = conclude (advance n) w' r := by
  obtain ⟨taken, w', pulled, ⟨peeked, enough⟩ | ⟨peeked, denied⟩⟩ := peek_spec n inside
  · by_cases short : w'.unread.length < n
    · have ended := enough.resolve_right (by omega)
      refine ⟨_, w', .short pulled short ended, (Action.bind_of_ok peeked).trans ?_⟩
      rw [List.take_of_length_le (Nat.le_of_lt short), if_pos short]
      rfl
    · have there : n ≤ w'.unread.length := Nat.le_of_not_lt short
      refine ⟨_, w', .enough pulled there, (Action.bind_of_ok peeked).trans ?_⟩
      rw [if_neg (by rw [List.length_take]; omega)]
      rfl
  · exact ⟨_, w', .denied pulled denied, Action.bind_of_error peeked⟩

/-! ## Actions that consume -/

/-- The action asks for the next `n` bytes and answers what `look` makes of
them; they are consumed unless `look` rejects them. -/
def Consumes {α : Type} (n : Nat) (look : ByteOrder → Bytes → Except Error α)
    (action : Action α) : Prop :=
  ∀ w : Window, w.pending ≤ w.lookahead.length →
    ∃ r w', Asked n w r w' ∧ action w = conclude (consume n) w' (r >>= look w.order)

namespace Consumes

variable {α β : Type} {n : Nat} {look : ByteOrder → Bytes → Except Error α} {action : Action α}

theorem map (f : α → β) (h : Consumes n look action) :
    Consumes n (fun order bs ↦ (look order bs).map f) (do return f (← action)) := by
  intro w inside
  obtain ⟨r, w', asked, eq⟩ := h w inside
  refine ⟨r, w', asked, ?_⟩
  cases r with
  | error e => exact Action.bind_of_error eq
  | ok bs =>
    change action w = conclude (consume n) w' (look w.order bs) at eq
    change _ = conclude (consume n) w' ((look w.order bs).map f)
    cases looked : look w.order bs with
    | error e =>
      rw [looked] at eq
      exact Action.bind_of_error eq
    | ok a =>
      rw [looked] at eq
      exact Action.bind_of_ok eq

end Consumes

theorem consumes_bytes (n : Nat) : Consumes n (fun _ bs ↦ .ok bs) (bytes n) := by
  intro w inside
  obtain ⟨r, w', asked, eq⟩ := take_spec n inside
  refine ⟨r, w', asked, ?_⟩
  cases r with
  | error e => exact Action.bind_of_error eq
  | ok bs => exact Action.bind_of_ok eq

/-- Bytes that are unread are consumed without another read. -/
theorem bytes_of_le {n : Nat} {w : Window} (there : n ≤ w.unread.length) :
    bytes n w = .ok (w.unread.take n) (w.consume n) := by
  have peeked : peek n w = .ok (w.unread.take n) w := Action.bind_of_ok (fill_of_le there)
  have taken : take n w = .ok (w.unread.take n) (w.advance n) := by
    refine (Action.bind_of_ok peeked).trans ?_
    rw [if_neg (by rw [List.length_take]; omega)]
    rfl
  exact Action.bind_of_ok taken

/-- The byte order may be asked for after the bytes were consumed. -/
theorem consumes_ordered {α : Type} (n : Nat) (f : ByteOrder → Bytes → α) :
    Consumes n (fun order bs ↦ .ok (f order bs))
      (do let bs ← bytes n; return f (← get).order bs) := by
  intro w inside
  obtain ⟨r, w', asked, eq⟩ := consumes_bytes n w inside
  obtain ⟨taken, pulled⟩ := asked.pulled
  refine ⟨r, w', asked, ?_⟩
  cases r with
  | error e => exact Action.bind_of_error eq
  | ok bs =>
    refine (Action.bind_of_ok eq).trans ?_
    change EStateM.Result.ok (f (w'.consume n).order bs) _ = .ok (f w.order bs) _
    rw [order_consume, pulled.order_eq]

theorem consumes_scalar (k : Scalar) :
    Consumes k.size (fun order bs ↦ .ok (order.value bs)) (scalar k) :=
  consumes_ordered k.size ByteOrder.value

theorem consumes_slice (n : Nat) :
    Consumes n (fun order bs ↦ .ok { ofBytes bs order with limit := some bs.length }) (slice n) :=
  consumes_ordered n fun order bs ↦ { ofBytes bs order with limit := some bs.length }

theorem consumes_scalars (k : Scalar) {count : Nat} (h : k.size * count < addressBound) :
    Consumes (k.size * count) (fun order bs ↦ .ok (runs order k.size count bs))
      (scalars k count) := by
  have : scalars k count = (do
      let bs ← bytes (k.size * count)
      return runs (← get).order k.size count bs) := by
    rw [scalars, if_neg (Nat.not_le_of_lt h)]
  rw [this]
  exact consumes_ordered _ fun order bs ↦ runs order k.size count bs

theorem consumes_magic (k : Scalar) (expected : Nat) :
    Consumes k.size
      (fun order bs ↦
        if order.value bs = expected then .ok ()
        else .error (.magic expected (order.value bs)))
      (magic k expected) := by
  intro w inside
  obtain ⟨r, w', asked, eq⟩ := take_spec k.size inside
  obtain ⟨taken, pulled⟩ := asked.pulled
  refine ⟨r, w', asked, ?_⟩
  cases r with
  | error e => exact Action.bind_of_error eq
  | ok bs =>
    have order : (w'.advance k.size).order = w.order := pulled.order_eq
    have back : { w'.advance k.size with cursor := (w'.advance k.size).cursor - k.size } = w' := by
      simp only [advance, Nat.add_sub_cancel]
    refine (Action.bind_of_ok eq).trans ?_
    change _ = conclude (consume k.size) w' (if w.order.value bs = expected then _ else _)
    rw [← order]
    by_cases same : (w'.advance k.size).order.value bs = expected
    · rw [if_pos same]
      refine (Action.bind_of_ok rfl).trans ?_
      dsimp only
      rw [if_neg (not_not_intro same)]
      rfl
    · rw [if_neg same]
      refine (Action.bind_of_ok rfl).trans ?_
      dsimp only
      rw [if_pos same]
      exact congrArg _ back

/-! ## Steps that consume -/

theorem consumes_perform_scalar (k : Scalar) :
    Consumes k.size (fun order bs ↦ .ok (.scalar k (order.value bs))) (Step.scalar k).perform :=
  (consumes_scalar k).map (Value.scalar k)

theorem consumes_perform_scalars (k : Scalar) {count : Nat} (h : k.size * count < addressBound) :
    Consumes (k.size * count) (fun order bs ↦ .ok (.scalars k (runs order k.size count bs)))
      (Step.scalars k count).perform :=
  (consumes_scalars k h).map (Value.scalars k)

/-- So many scalars that their size is no address are not there. -/
theorem perform_scalars_of_le (k : Scalar) {count : Nat} (h : addressBound ≤ k.size * count)
    (w : Window) : (Step.scalars k count).perform w = .error .outOfBounds w := by
  have : scalars k count w = .error .outOfBounds w := by
    rw [scalars, if_pos h]
    rfl
  exact Action.bind_of_error this

theorem consumes_perform_bytes (n : Nat) :
    Consumes n (fun _ bs ↦ .ok (.bytes bs)) (Step.bytes n).perform :=
  (consumes_bytes n).map Value.bytes

theorem consumes_perform_magic (k : Scalar) (expected : Nat) :
    Consumes k.size
      (fun order bs ↦
        if order.value bs = expected then .ok .unit
        else .error (.magic expected (order.value bs)))
      (Step.magic k expected).perform := by
  have unit : ∀ order bs,
      (if ByteOrder.value order bs = expected then .ok ()
        else .error (.magic expected (order.value bs)) : Except Error Unit).map
          (fun _ ↦ Value.unit) =
      if order.value bs = expected then .ok .unit
      else .error (.magic expected (order.value bs)) := by
    intro order bs
    split <;> rfl
  simp only [← unit]
  exact (consumes_magic k expected).map fun _ ↦ Value.unit

/-! ## How actions end -/

/-- Whether an action succeeded, and with what answer. -/
def outcome {α : Type} : EStateM.Result Error Window α → Except Error α
  | .ok a _ => .ok a
  | .error e _ => .error e

/-- The window after an action. -/
def after {α : Type} : EStateM.Result Error Window α → Window
  | .ok _ w | .error _ w => w

@[simp] theorem outcome_conclude {α : Type} (change : Window → Window) (w : Window)
    (r : Except Error α) : outcome (conclude change w r) = r := by
  cases r <;> rfl

end Disasm.Window
