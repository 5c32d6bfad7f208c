import Disasm.Proofs.Window.Progress

/-!
# How far a skip gets

A skip goes block by block.  Where the bytes end before it does, the whole blocks that were
there are consumed and what is left of the bytes is not: how far a failed skip got is told by
the number of bytes that there were, and not by the number that it was asked for.

Over a steady source the bytes that there are can be told beforehand.  Another source may end
early, and where it does can depend on how it is asked; there they are told afterwards, as
those that were consumed and those that are still to come.
-/

namespace Disasm.Window

variable {α β : Type} {count n : Nat} {w w' : Window}

/-! ## What moving on leaves -/

theorem length_unread_le_remaining (w : Window) : w.unread.length ≤ w.remaining.length := by
  rw [remaining, List.length_append]
  exact Nat.le_add_right _ _

/-- What is consumed and what remains are no more than what remained before. -/
theorem Moved.add_remaining_le (moved : Moved n w w') (settled : w.Settled) :
    n + w'.remaining.length ≤ w.remaining.length := by
  obtain ⟨taken, w₁, pulled, there, rfl⟩ := moved
  have inside := (pulled.settled settled).pending_le
  have shorter := (pulled.remaining_isPrefix settled.pending_le).length_le
  have ahead := w₁.length_unread_le_remaining
  rw [remaining_consume inside there, List.length_drop]
  omega

/-- Over a steady source nothing else is lost. -/
theorem Moved.add_remaining_eq (moved : Moved n w w') (settled : w.Settled)
    (steady : w.source.Steady) : n + w'.remaining.length = w.remaining.length := by
  obtain ⟨taken, w₁, pulled, there, rfl⟩ := moved
  have inside := (pulled.settled settled).pending_le
  have ahead := w₁.length_unread_le_remaining
  rw [← pulled.remaining_eq settled.pending_le steady, remaining_consume inside there,
    List.length_drop]
  omega

theorem Moved.undenied (moved : Moved n w w') (undenied : .deny ∉ w.source.plan) :
    .deny ∉ w'.source.plan := by
  obtain ⟨taken, w₁, pulled, -, rfl⟩ := moved
  rw [source_consume]
  exact fun denied ↦ undenied (pulled.plan.subset denied)

/-- Of an exhausted window the unread bytes remain. -/
theorem remaining_of_exhausted (ended : w.exhausted = true) : w.remaining = w.unread := by
  rw [remaining, upcoming, if_pos ended, List.append_nil]

/-! ## Blocks -/

/-- How a window `w` that is to skip `count` bytes may end. -/
inductive Skipped (count : Nat) (w : Window) : EStateM.Result Error Window α → Prop
  /-- All of them are consumed. -/
  | whole {a : α} {w' : Window} : Moved count w w' → Skipped count w (.ok a w')
  /-- The bytes end in front of a whole block and of the last byte to be skipped. -/
  | short {blocks : Nat} {w' : Window} : Moved (skipSize * blocks) w w' → w'.exhausted = true →
      w'.unread.length < skipSize → skipSize * blocks + w'.unread.length < count →
      Skipped count w (.error .outOfBounds w')

namespace Skipped

variable {r : EStateM.Result Error Window α} {blocks : Nat}

/-- Whole blocks that were consumed before count as skipped. -/
theorem behind (first : Moved (skipSize * blocks) w w') (second : Skipped n w' r)
    (settled : w.Settled) : Skipped (skipSize * blocks + n) w r := by
  cases second with
  | whole moved => exact .whole (first.trans moved settled)
  | short moved ended few before =>
    have both := first.trans moved settled
    rw [← Nat.mul_add] at both
    refine .short both ended few ?_
    rw [Nat.mul_add, Nat.add_assoc]
    exact Nat.add_lt_add_left before _

/-- A skip goes on where it has skipped whole blocks. -/
theorem bind {x : Action α} {f : α → Action β} (first : Skipped (skipSize * blocks) w (x w))
    (second : ∀ a w', Moved (skipSize * blocks) w w' → Skipped n w' (f a w'))
    (settled : w.Settled) : Skipped (skipSize * blocks + n) w ((x >>= f) w) := by
  generalize ran : x w = r at first
  cases first with
  | @whole a w' moved =>
    rw [Action.bind_of_ok ran]
    exact (second a w' moved).behind moved settled
  | short moved ended few before =>
    rw [Action.bind_of_error ran]
    exact .short moved ended few (Nat.lt_add_right n before)

/-- What is answered does not matter. -/
theorem map {x : Action α} (g : α → β) (skipped : Skipped n w (x w)) :
    Skipped n w ((do return g (← x)) w) := by
  generalize ran : x w = r at skipped
  cases skipped with
  | whole moved =>
    rw [Action.bind_of_ok ran]
    exact .whole moved
  | short moved ended few before =>
    rw [Action.bind_of_error ran]
    exact .short moved ended few before

end Skipped

/-- One block or a part of it. -/
theorem skipped_bytes (le : n ≤ skipSize) (settled : w.Settled)
    (undenied : .deny ∉ w.source.plan) : Skipped n w (bytes n w) := by
  have moved := (consumes_bytes n).moved settled
  obtain ⟨r, w', asked, eq⟩ := consumes_bytes n w settled.pending_le
  rw [eq] at moved ⊢
  cases asked with
  | enough => exact .whole moved
  | @short _ w' _ few ended =>
    have none : Moved (skipSize * 0) w w' := moved
    refine .short none ended (Nat.lt_of_lt_of_le few le) ?_
    rwa [Nat.mul_zero, Nat.zero_add]
  | denied _ denied => exact absurd denied undenied

theorem skipped_skipBlocks (blocks : Nat) (settled : w.Settled)
    (undenied : .deny ∉ w.source.plan) :
    Skipped (skipSize * blocks) w (skipBlocks blocks w) := by
  induction blocks generalizing w with
  | zero => exact .whole (.refl settled)
  | succ blocks ih =>
    have first : Skipped (skipSize * 1) w (bytes skipSize w) :=
      skipped_bytes (Nat.le_refl skipSize) settled undenied
    rw [Nat.mul_add, Nat.add_comm]
    refine first.bind (fun bs w' moved ↦ ?_) settled
    exact ih (moved.settled settled) (moved.undenied undenied)

/-- The bytes that are left over come after the blocks. -/
theorem skipped_skip (count : Nat) (settled : w.Settled) (undenied : .deny ∉ w.source.plan) :
    Skipped count w (skip count w) := by
  have blocks := skipped_skipBlocks (count / skipSize) settled undenied
  have rest : count % skipSize ≤ skipSize := Nat.le_of_lt (Nat.mod_lt count (by decide))
  have all : Skipped (skipSize * (count / skipSize) + count % skipSize) w (skip count w) := by
    refine blocks.bind (fun _ w' moved ↦ ?_) settled
    have last := skipped_bytes rest (moved.settled settled) (moved.undenied undenied)
    exact last.map fun _ ↦ ()
  rwa [Nat.div_add_mod] at all

/-! ## What a skip consumes -/

/-- `w'` is `n` bytes behind `w`: they are given up where commits are automatic, and pending
elsewhere. -/
structure Consumed (n : Nat) (w w' : Window) : Prop where
  totalRead_eq : w'.totalRead = w.totalRead + n
  position_eq : w'.position = w.position + if w.autoCommit then n else 0
  pending_eq : w'.pending = w.pending + if w.autoCommit then 0 else n

theorem Moved.consumed (moved : Moved n w w') (settled : w.Settled) : Consumed n w w' where
  totalRead_eq := moved.totalRead_eq
  position_eq := moved.position_eq settled
  pending_eq := by
    have total := moved.totalRead_eq
    have position := moved.position_eq settled
    rw [totalRead, totalRead, ← pending, ← pending] at total
    change w'.committed = w.committed + _ at position
    cases auto : w.autoCommit with
    | true =>
      rw [auto, if_pos rfl] at position
      rw [if_pos rfl]
      omega
    | false =>
      rw [auto, if_neg Bool.false_ne_true] at position
      rw [if_neg Bool.false_ne_true]
      omega

/-- Blocks that are all that fits are counted by a division. -/
theorem mul_blocks_eq {blocks left there : Nat} (few : left < skipSize)
    (all : skipSize * blocks + left = there) :
    skipSize * blocks = skipSize * (there / skipSize) := by
  rw [← all, Nat.mul_add_div (by decide), Nat.div_eq_of_lt few, Nat.add_zero]

/-- A skip consumes what it was asked to, if that many bytes are there; otherwise it fails and
has consumed the whole blocks that are there.  The source denies no read.  `there` is the
number of bytes that the window gives up to the end of the source or its limit: all that
remain if the source is steady, and in any case those that were consumed and those that
remain afterwards. -/
theorem skip_consumes (count : Nat) (settled : w.Settled) (undenied : .deny ∉ w.source.plan) :
    ∃ there ≤ w.remaining.length,
      (w.source.Steady → there = w.remaining.length) ∧
      w.totalRead + there =
        (after (skip count w)).totalRead + (after (skip count w)).remaining.length ∧
      (outcome (skip count w) = .ok () ↔ count ≤ there) ∧
      (count ≤ there → Consumed count w (after (skip count w))) ∧
      (there < count → outcome (skip count w) = .error .outOfBounds ∧
        Consumed (4096 * (there / 4096)) w (after (skip count w))) := by
  have skipped := skipped_skip count settled undenied
  generalize skip count w = result at skipped
  cases skipped with
  | @whole _ w' moved =>
    have total := moved.totalRead_eq
    have enough : count ≤ count + w'.remaining.length := Nat.le_add_right _ _
    refine ⟨count + w'.remaining.length, moved.add_remaining_le settled,
      moved.add_remaining_eq settled, ?_, iff_of_true rfl enough,
      fun _ ↦ moved.consumed settled, fun few ↦ absurd enough (Nat.not_le_of_lt few)⟩
    change _ = w'.totalRead + w'.remaining.length
    rw [total, Nat.add_assoc]
  | @short blocks w' moved ended few before =>
    have total := moved.totalRead_eq
    have left := remaining_of_exhausted ended
    rw [← left] at few before
    refine ⟨skipSize * blocks + w'.remaining.length, moved.add_remaining_le settled,
      moved.add_remaining_eq settled, ?_, iff_of_false nofun (Nat.not_le_of_lt before),
      fun enough ↦ absurd before (Nat.not_lt_of_le enough), fun _ ↦ ⟨rfl, ?_⟩⟩
    · change _ = w'.totalRead + w'.remaining.length
      rw [total, Nat.add_assoc]
    · exact mul_blocks_eq few rfl ▸ moved.consumed settled

/-- Of four thousand five hundred bytes that the limit leaves behind two pending ones, a skip
of one more consumes one block. -/
theorem skip_consumes_one_block :
    let w : Window :=
      { source :=
          { data := List.replicate 5000 7, plan := [.deliver 9, .interrupt], delivered := 3 }
        lookahead := [1, 2, 3], cursor := 2, limit := some 4502, autoCommit := false }
    (w.Settled ∧ .deny ∉ w.source.plan) ∧
      outcome (skip 4501 w) = .error .outOfBounds ∧
      Consumed 4096 w (after (skip 4501 w)) := by
  intro w
  have settled : w.Settled := ⟨by decide, nofun⟩
  have undenied : .deny ∉ w.source.plan := by decide
  have steady : w.source.Steady := Source.steady_of_forall (by decide)
  have length : w.remaining.length = 4500 := by
    change ([3] ++ (List.replicate 5000 (7 : UInt8)).take 4499).length = 4500
    rw [List.length_append, List.length_take, List.length_replicate]
    rfl
  obtain ⟨there, -, all, -, -, -, short⟩ := skip_consumes 4501 settled undenied
  rw [all steady, length] at short
  exact ⟨⟨settled, undenied⟩, short (by decide)⟩

end Disasm.Window
