import Disasm.Proofs.Window.Delivery
import Disasm.Proofs.Window.Progress

/-!
# Closures

What is run as a transaction is a closure: it takes one step after another on
the window, chooses the next by what the last one answered, goes on after a
failure if it likes, cuts slices and runs transactions of its own.  A closure is
*speculative* if none of its steps moves back, commits, or changes how the window
is read.  Such a closure only moves on, and so a transaction of it comes to one
of two things: it moves the window on by what the closure decoded, or it fails
and the window has at most read ahead.
-/

namespace Disasm.Window

/-- Work on a window that ends with an answer of type `α`. -/
inductive Closure : Type → Type 1
  | done {α : Type} (result : Except Error α) : Closure α
  | step {α : Type} (first : Step) (next : Except Error Value → Closure α) : Closure α
  /-- The window on a slice is a value of its own. -/
  | slice {α : Type} (count : Nat) (next : Except Error Window → Closure α) : Closure α
  | transactional {α β : Type} (body : Closure β) (next : Except Error β → Closure α) : Closure α

variable {α : Type}

namespace Closure

/-- Runs a closure. -/
def run {α : Type} : Closure α → Action α
  | done (.ok a), w => .ok a w
  | done (.error e), w => .error e w
  | step first next, w =>
    (next (outcome (first.perform w))).run (after (first.perform w))
  | slice count next, w =>
    (next (outcome (Window.slice count w))).run (after (Window.slice count w))
  | transactional body next, w =>
    (next (outcome (Window.transactional body.run w))).run
      (after (Window.transactional body.run w))

/-- Every step of the closure, also of those inside its transactions, satisfies
`p`. -/
def Only {α : Type} (p : Step → Prop) : Closure α → Prop
  | done _ => True
  | step first next => p first ∧ ∀ r, (next r).Only p
  | slice _ next => ∀ r, (next r).Only p
  | transactional body next => body.Only p ∧ ∀ r, (next r).Only p

end Closure

/-! ## Speculation -/

/-- Whether a step leaves what was decoded where it is: it neither commits nor
moves back, and it does not change how the window is read. -/
def Step.speculative : Step → Bool
  | commit | discard _ | autoCommit _ | order _ => false
  | _ => true

/-- The closure only reads. -/
def Closure.Speculative (f : Closure α) : Prop := f.Only (·.speculative)

/-- The number of bytes that a step decodes: its amount if it succeeds, and
otherwise what it has skipped before it failed. -/
def Step.decoded (s : Step) (w : Window) : Nat :=
  if (outcome (s.perform w)).isOk then s.amount.getD 0
  else (after (s.perform w)).totalRead - w.totalRead

/-- The number of bytes that a closure decodes at `w`: those of its steps, of its
slices and of those transactions inside that succeed. -/
def Closure.decoded {α : Type} : Closure α → Window → Nat
  | done _, _ => 0
  | step first next, w =>
    first.decoded w + (next (outcome (first.perform w))).decoded (after (first.perform w))
  | slice count next, w =>
    (if (outcome (Window.slice count w)).isOk then count else 0) +
      (next (outcome (Window.slice count w))).decoded (after (Window.slice count w))
  | transactional body next, w =>
    (if (outcome (body.run w.enter)).isOk then body.decoded w.enter else 0) +
      (next (outcome (Window.transactional body.run w))).decoded
        (after (Window.transactional body.run w))

/-- What is made of an answer does not change the window. -/
theorem after_map {β : Type} (action : Action α) (f : α → β) (w : Window) :
    after ((do return f (← action)) w) = after (action w) := by
  simp only [bind, EStateM.bind]
  cases action w <;> rfl

section Steps

variable {w : Window} {s : Step} {n : Nat}

/-- To see how far a step moves it is enough to know it for its success. -/
theorem moved_decoded (moved : Moved n w (after (s.perform w)))
    (exactly : (outcome (s.perform w)).isOk = true → n = s.amount.getD 0) :
    Moved (s.decoded w) w (after (s.perform w)) := by
  rw [Step.decoded]
  split
  next done => exact exactly done ▸ moved
  next => rwa [moved.totalRead_eq, Nat.add_sub_cancel_left]

theorem Consumes.moved_decoded {look : ByteOrder → Bytes → Except Error Value}
    (consumes : Consumes n look s.perform) (amount : s.amount = some n) (settled : w.Settled) :
    Moved (s.decoded w) w (after (s.perform w)) := by
  refine Window.moved_decoded (consumes.moved settled) fun done ↦ ?_
  rw [if_pos done, amount]
  rfl

/-- A speculative step moves on by what it decodes. -/
theorem moved_perform (spec : s.speculative) (settled : w.Settled) :
    Moved (s.decoded w) w (after (s.perform w)) := by
  cases s with
  | scalar k => exact (consumes_perform_scalar k).moved_decoded rfl settled
  | scalars k count =>
    by_cases fits : k.size * count < addressBound
    · exact (consumes_perform_scalars k fits).moved_decoded rfl settled
    · refine moved_decoded (n := 0) ?_ ?_
      · rw [perform_scalars_of_le k (Nat.le_of_not_lt fits)]
        exact .refl settled
      · rw [perform_scalars_of_le k (Nat.le_of_not_lt fits)]
        intro ok
        cases ok
  | bytes count => exact (consumes_perform_bytes count).moved_decoded rfl settled
  | magic k expected => exact (consumes_perform_magic k expected).moved_decoded rfl settled
  | skip count =>
    cases skipped : Window.skip count w with
    | ok u w' =>
      refine moved_decoded (n := count) ?_ fun _ ↦ rfl
      rw [Step.perform, Action.bind_of_ok skipped]
      exact moved_skip count settled skipped
    | error e w' =>
      obtain ⟨n, moved⟩ := moves_skip count w settled
      rw [skipped] at moved
      refine moved_decoded (n := n) ?_ ?_
      · rw [Step.perform, Action.bind_of_error skipped]
        exact moved
      · rw [Step.perform, Action.bind_of_error skipped]
        intro ok
        cases ok
  | peek count =>
    refine moved_decoded (n := 0) ?_ fun _ ↦ rfl
    rw [Step.perform, after_map]
    exact moved_peek count settled
  | hasRemaining =>
    refine moved_decoded (n := 0) ?_ fun _ ↦ rfl
    rw [Step.perform, after_map, Window.hasRemaining, after_map]
    exact moved_peek 1 settled
  | limit | describe => exact moved_decoded (.refl settled) fun _ ↦ rfl
  | fail => exact moved_decoded (n := 0) (.refl settled) fun ok ↦ by cases ok
  | commit | discard | autoCommit | order => cases spec

end Steps

/-! ## Transactions -/

theorem outcome_transactional (action : Action α) (w : Window) :
    outcome (transactional action w) = outcome (action w.enter) := by
  rw [transactional]
  cases action w.enter <;> rfl

/-- A transaction that succeeds consumes, in its own mode of commits, what was
moved over inside. -/
theorem leave_advance {before w : Window} (n : Nat) (same : w.cursor = before.cursor) :
    leave before false (w.advance n) =
      consume n { w with cursor := before.cursor, autoCommit := before.autoCommit } := by
  rw [← same]
  rfl

/-- A transaction that fails goes back to where it began. -/
theorem leave_failed_advance {before w : Window} (n : Nat) (same : w.cursor = before.cursor) :
    leave before true (w.advance n) =
      consume 0 { w with cursor := before.cursor, autoCommit := before.autoCommit } := by
  have back : min before.cursor (w.cursor + n) = before.cursor := by omega
  simp only [leave, consume, advance, if_true, back, Nat.add_zero]

/-- A transaction whose work only moves on: if it succeeds the window moves on by
as much, and if it fails the window has at most read ahead. -/
theorem moved_transactional {action : Action α} {w : Window} {n : Nat}
    (moved : Moved n w.enter (after (action w.enter))) :
    Moved (if (outcome (action w.enter)).isOk then n else 0) w
      (after (transactional action w)) := by
  obtain ⟨taken, w₁, pulled, there, eq⟩ := moved
  rw [consume_of_off pulled.autoCommit_eq] at eq
  have cursor : w₁.cursor = w.cursor := pulled.cursor_eq
  have back : Pulled taken w { w₁ with cursor := w.cursor, autoCommit := w.autoCommit } :=
    pulled.refit w.cursor w.autoCommit
  rw [transactional]
  cases ran : action w.enter with
  | ok a w' =>
    rw [show w' = w₁.advance n from (congrArg after ran).symm.trans eq]
    refine ⟨taken, _, back, ?_, leave_advance n cursor⟩
    rwa [← cursor]
  | error e w' =>
    rw [show w' = w₁.advance n from (congrArg after ran).symm.trans eq]
    exact ⟨taken, _, back, Nat.zero_le _, leave_failed_advance n cursor⟩

/-- A speculative closure moves on by what it decodes, in either mode of commits. -/
theorem moved_run (f : Closure α) (spec : f.Speculative) {w : Window} (settled : w.Settled) :
    Moved (f.decoded w) w (after (f.run w)) := by
  induction f generalizing w with
  | done r => cases r <;> exact .refl settled
  | step s next ih =>
    have first := moved_perform spec.1 settled
    exact first.trans (ih _ (spec.2 _) (first.settled settled)) settled
  | slice count next ih =>
    have first := (consumes_slice count).moved settled
    exact first.trans (ih _ (spec _) (first.settled settled)) settled
  | transactional body next ihBody ihNext =>
    have first := moved_transactional (ihBody spec.1 settled.enter)
    exact first.trans (ihNext _ (spec.2 _) (first.settled settled)) settled

/-- A transaction of a speculative closure moves on by what the closure decoded,
or by nothing. -/
theorem moved_transactional_run (f : Closure α) (spec : f.Speculative) {w : Window}
    (settled : w.Settled) :
    Moved (if (outcome (transactional f.run w)).isOk then f.decoded w.enter else 0) w
      (after (transactional f.run w)) := by
  rw [outcome_transactional]
  exact moved_transactional (moved_run f spec settled.enter)

end Disasm.Window
