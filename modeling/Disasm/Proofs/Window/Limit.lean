import Disasm.Proofs.Window.Likeness

/-!
# Limits and sources cut short

A limit is enforced where a window reads from its source.  Whoever reads from the
window cannot tell it from the end of the source: a window with a limit is like a
window without one whose source has only the bytes that the limit allows.

Reads of the two sources differ only after the last byte.  There the limit spares
the source a read, which could have failed; therefore no read is denied here.
-/

namespace Disasm

namespace Source

variable {plan : List PlannedRead} {missing : Nat} {room : Option Nat} {data : Bytes}

theorem take_visible (room : Option Nat) (n : Nat) (data : Bytes) :
    (visible room data).take n = data.take (within room n) := by
  cases room with
  | none => rfl
  | some r => rw [visible, within, List.take_take]

theorem drop_visible (room : Option Nat) (k : Nat) (data : Bytes) :
    (visible room data).drop k = visible (room.map (· - k)) (data.drop k) := by
  cases room with
  | none => rfl
  | some r => exact List.drop_take

/-- One read of what is visible. -/
theorem read_visible (n missing : Nat) (room : Option Nat) (data : Bytes) :
    (visible room data).take (min n (min missing readSize)) =
      data.take (min n (min (within room missing) readSize)) := by
  cases room with
  | none => rfl
  | some r =>
    rw [visible, List.take_take, within]
    congr 1
    omega

/-- A source without data comes to its end, if no read is denied. -/
theorem ending_of_nil (undenied : .deny ∉ plan) (asked : missing ≠ 0) :
    (pull plan missing none []).taken = [] ∧ (pull plan missing none []).ending = .exhausted := by
  induction plan with
  | nil => simp [pull, within, Nat.pos_of_ne_zero asked]
  | cons event plan ih =>
    rw [pull_of_missing asked (Option.some_ne_none 0).symm]
    cases event with
    | interrupt => exact ih fun m ↦ undenied (List.mem_cons_of_mem _ m)
    | deny => exact absurd List.mem_cons_self undenied
    | deliver n => simp

/-- A pull within some room takes what a pull of the visible data takes.  It leaves the
same plan, unless it came to the end. -/
theorem pull_visible (missing : Nat) (room : Option Nat) (data : Bytes)
    (undenied : .deny ∉ plan) :
    (pull plan missing none (visible room data)).taken = (pull plan missing room data).taken ∧
      (pull plan missing none (visible room data)).ending =
        (pull plan missing room data).ending ∧
      ((pull plan missing room data).ending = .enough →
        (pull plan missing none (visible room data)).plan =
          (pull plan missing room data).plan) := by
  fun_induction pull plan missing room data with
  | case1 missing room data count taken =>
    have same : (visible room data).take missing = taken := take_visible room missing data
    rw [pull, within, same]
    exact ⟨rfl, rfl, fun _ ↦ rfl⟩
  | case2 room data event plan =>
    rw [pull.eq_def]
    exact ⟨rfl, rfl, fun _ ↦ rfl⟩
  | case3 missing data event plan asked =>
    -- the limit spares the source this read
    obtain ⟨taken, ending⟩ := ending_of_nil undenied asked
    rw [visible, List.take_zero]
    exact ⟨taken, ending, fun enough ↦ by cases enough⟩
  | case4 missing room data plan asked free ih =>
    rw [pull_of_missing asked (Option.some_ne_none 0).symm]
    exact ih fun m ↦ undenied (List.mem_cons_of_mem _ m)
  | case5 => exact absurd List.mem_cons_self undenied
  | case6 plan missing room data asked free n count empty =>
    have same : (visible room data).take (min n (min missing readSize)) = [] :=
      (read_visible n missing room data).trans empty
    rw [pull_of_missing asked (Option.some_ne_none 0).symm]
    simp [within, same]
  | case7 plan missing room data asked free n count filled got next ih =>
    have same : (visible room data).take (min n (min missing readSize)) = data.take count :=
      read_visible n missing room data
    have rest := drop_visible room got data
    obtain ⟨taken, ending, left⟩ := ih fun m ↦ undenied (List.mem_cons_of_mem _ m)
    rw [pull_of_missing asked (Option.some_ne_none 0).symm]
    dsimp only [within]
    rw [same]
    split
    · exact absurd ‹_› filled
    · rw [← rest] at taken ending left
      exact ⟨congrArg _ taken, ending, left⟩

/-- What a pull within some room leaves visible. -/
theorem rest_visible (missing : Nat) (room : Option Nat) (data : Bytes)
    (undenied : .deny ∉ plan) :
    (pull plan missing none (visible room data)).rest =
      visible (room.map (· - (pull plan missing room data).taken.length))
        (pull plan missing room data).rest := by
  have allowed : ∀ r, room = some r → (pull plan missing room data).taken.length ≤ r := by
    rintro r rfl
    exact length_taken_le_room plan missing data
  apply List.append_cancel_left
  calc (pull plan missing room data).taken ++ (pull plan missing none (visible room data)).rest
      = visible room data := by
        rw [← (pull_visible missing room data undenied).1, taken_append_rest]
    _ = visible room
          ((pull plan missing room data).taken ++ (pull plan missing room data).rest) := by
        rw [taken_append_rest]
    _ = _ := visible_append allowed

end Source

namespace Window

open Disasm.Action (Coupling)
open Source (visible)

/-- The window over another source and without a limit. -/
def unlimited (source : Source) (w : Window) : Window := { w with source, limit := none }

theorem consume_unlimited (n : Nat) (source : Source) (w : Window) :
    (w.unlimited source).consume n = (w.consume n).unlimited source := by
  obtain ⟨_, _, auto, _, _, _, _, _⟩ := w
  cases auto <;> rfl

theorem setAutoCommit_unlimited (on : Bool) (source : Source) (w : Window) :
    (w.unlimited source).setAutoCommit on = (w.setAutoCommit on).unlimited source := by
  obtain ⟨_, _, auto, _, _, _, _, _⟩ := w
  cases on <;> cases auto <;> rfl

section SetAutoCommit

variable (on : Bool) (w : Window)

@[simp] theorem source_setAutoCommit : (w.setAutoCommit on).source = w.source := by
  rw [setAutoCommit]
  split <;> rfl

@[simp] theorem limit_setAutoCommit : (w.setAutoCommit on).limit = w.limit := by
  rw [setAutoCommit]
  split <;> rfl

@[simp] theorem exhausted_setAutoCommit : (w.setAutoCommit on).exhausted = w.exhausted := by
  rw [setAutoCommit]
  split <;> rfl

end SetAutoCommit

/-- The source has the bytes that the window may still read from its own within the
bound, and no others. -/
structure Allowed (bound : Nat) (w : Window) (source : Source) : Prop where
  settled : w.Settled
  undenied : .deny ∉ w.source.plan
  limit_eq : w.limit = some bound
  /-- The limit was kept so far. -/
  delivered_le : w.source.delivered ≤ bound
  plan_eq : w.exhausted = false → source.plan = w.source.plan
  data_eq : w.exhausted = false → source.data = visible w.room w.source.data

/-- `w'` is `w` without its limit, over a source that ends where the limit is. -/
def Cut (bound : Nat) (w w' : Window) : Prop :=
  ∃ source, w' = w.unlimited source ∧ w.Allowed bound source

namespace Allowed

variable {bound : Nat} {w : Window} {source : Source}

theorem settled_unlimited (allowed : w.Allowed bound source) : (w.unlimited source).Settled :=
  ⟨allowed.settled.pending_le, allowed.settled.settled⟩

/-- A change of the window that leaves its source alone. -/
theorem changed {w' : Window} (allowed : w.Allowed bound source) (settled : w'.Settled)
    (source_eq : w'.source = w.source) (limit_eq : w'.limit = w.limit)
    (exhausted_eq : w'.exhausted = w.exhausted) : w'.Allowed bound source := by
  have room : w'.room = w.room := by rw [Window.room, Window.room, limit_eq, source_eq]
  refine ⟨settled, source_eq ▸ allowed.undenied, limit_eq.trans allowed.limit_eq,
    source_eq ▸ allowed.delivered_le, ?_, ?_⟩
  · rw [exhausted_eq, source_eq]
    exact allowed.plan_eq
  · rw [exhausted_eq, source_eq, room]
    exact allowed.data_eq

/-- A pull from the source alone is a pull within the limit. -/
theorem received (allowed : w.Allowed bound source) (going : w.exhausted = false)
    (missing : Nat) :
    let p := Source.pull w.source.plan missing w.room w.source.data
    let q := Source.pull source.plan missing none source.data
    Cut bound (w.received p) ((w.unlimited source).received q) := by
  intro p q
  have pulled : Pulled p.taken w (w.received p) := pulled_received missing going
  have q_eq : q = Source.pull w.source.plan missing none (visible w.room w.source.data) := by
    rw [← allowed.plan_eq going, ← allowed.data_eq going]
  obtain ⟨taken, ending, plan⟩ :=
    Source.pull_visible missing w.room w.source.data allowed.undenied
  have rest := Source.rest_visible missing w.room w.source.data allowed.undenied
  rw [← q_eq] at taken ending plan rest
  have frame : (w.unlimited source).received q = (w.received p).unlimited
      { data := q.rest, plan := q.plan, delivered := source.delivered + q.taken.length } := by
    rw [Window.received, taken, ending]
    rfl
  refine ⟨_, frame, pulled.settled allowed.settled,
    fun m ↦ allowed.undenied (pulled.plan.subset m), allowed.limit_eq, ?_, fun going' ↦ ?_,
    fun _ ↦ ?_⟩
  · have before := allowed.delivered_le
    have inside := pulled.room (bound - w.source.delivered)
      (congrArg (Option.map _) allowed.limit_eq)
    change w.source.delivered + p.taken.length ≤ bound
    omega
  · have unended : p.ending ≠ .exhausted := of_decide_eq_false going'
    have undenied : p.ending ≠ .denied := Source.ending_ne_denied allowed.undenied
    refine plan ?_
    cases last : p.ending with
    | enough => rfl
    | exhausted => exact absurd last unended
    | denied => exact absurd last undenied
  · exact rest.trans (congrArg (visible · p.rest) pulled.room_eq.symm)

end Allowed

/-! ## The likeness -/

theorem fill_of_undenied {wanted : Nat} {w : Window}
    (missing : ¬(w.exhausted = true ∨ wanted - w.unread.length = 0))
    (undenied : .deny ∉ w.source.plan) :
    fill wanted w = .ok () (w.received
      (Source.pull w.source.plan (wanted - w.unread.length) w.room w.source.data)) := by
  rw [fill_of_missing missing]
  split
  · rfl
  · rfl
  · exact absurd ‹_› (Source.ending_ne_denied undenied)

theorem paired_fill_of_cut {bound : Nat} (n : Nat) {w w' : Window} (cut : Cut bound w w') :
    (Coupling.exact (Cut bound)).Paired (fill n w) (fill n w') := by
  obtain ⟨source, rfl, allowed⟩ := cut
  by_cases idle : w.exhausted = true ∨ n - w.unread.length = 0
  · rw [fill_of_idle idle, fill_of_idle (w := w.unlimited source) idle]
    exact .ok ⟨source, rfl, allowed⟩
  · have going : w.exhausted = false := by simpa using fun h ↦ idle (.inl h)
    have undenied' : .deny ∉ (w.unlimited source).source.plan :=
      allowed.plan_eq going ▸ allowed.undenied
    rw [fill_of_undenied idle allowed.undenied,
      fill_of_undenied (w := w.unlimited source) idle undenied']
    exact .ok (allowed.received going (n - w.unread.length))

/-- A window with a limit is like one over a source cut short. -/
def cutSource (bound : Nat) : Likeness where
  Like := Cut bound
  settled := by
    rintro w _ ⟨source, rfl, allowed⟩
    exact ⟨allowed.settled, allowed.settled_unlimited⟩
  order_eq := by
    rintro w _ ⟨source, rfl, allowed⟩
    rfl
  totalRead_eq := by
    rintro w _ ⟨source, rfl, allowed⟩
    rfl
  position_eq := by
    rintro w _ ⟨source, rfl, allowed⟩
    rfl
  peek n :=
    { paired := by
        intro w w' cut
        refine (paired_fill_of_cut n cut).bind ?_ ?_
        · rintro - w _ ⟨source, rfl, allowed⟩
          exact .ok ⟨source, rfl, allowed⟩
        · intro _ _ _ _ lost
          exact lost.elim
      keeps := fun _ _ _ lost ↦ lost.elim }
  consume := by
    rintro n w _ ⟨source, rfl, allowed⟩ there -
    exact ⟨source, consume_unlimited n source w,
      allowed.changed (allowed.settled.consume there) (by simp) (by simp) (by simp)⟩
  setAutoCommit := by
    rintro w _ on ⟨source, rfl, allowed⟩
    exact ⟨source, setAutoCommit_unlimited on source w,
      allowed.changed (allowed.settled.setAutoCommit on) (by simp) (by simp) (by simp)⟩
  discard := by
    rintro w _ ⟨source, rfl, allowed⟩
    exact ⟨source, rfl, allowed.changed (allowed.settled.discard none) rfl rfl rfl⟩

/-- A window on a fresh source is like one on the front of it. -/
theorem cut_fresh {data : Bytes} {plan : List PlannedRead} (undenied : .deny ∉ plan)
    (order : ByteOrder) (bound : Nat) :
    Cut bound { source := { data, plan }, order, limit := some bound }
      { source := { data := data.take bound, plan }, order } :=
  ⟨{ data := data.take bound, plan }, rfl, ⟨Nat.le_refl 0, fun _ ↦ rfl⟩, undenied, rfl,
    Nat.zero_le bound, fun _ ↦ rfl, fun _ ↦ rfl⟩

/-! ## Running out of bytes -/

/-- As long as no read is denied, the action fails only where bytes run out. -/
def RunsOut {α : Type} (action : Action α) : Prop :=
  ∀ w e w', w.Settled → .deny ∉ w.source.plan → action w = .error e w' → e = .outOfBounds

theorem Moved.plan_isSuffix {n : Nat} {w w' : Window} (moved : Moved n w w') :
    w'.source.plan <:+ w.source.plan := by
  obtain ⟨taken, w₁, pulled, -, rfl⟩ := moved
  rw [source_consume]
  exact pulled.plan

namespace RunsOut

variable {α β : Type}

theorem pure (a : α) : RunsOut (Pure.pure a) := fun _ _ _ _ _ ↦ nofun

theorem bind {x : Action α} {f : α → Action β} (moves : Moves x) (hx : RunsOut x)
    (hf : ∀ a, RunsOut (f a)) : RunsOut (x >>= f) := by
  intro w e w' settled undenied failed
  cases ran : x w with
  | error e₁ w₁ =>
    rw [Action.bind_of_error ran] at failed
    cases failed
    exact hx w e w' settled undenied ran
  | ok a w₁ =>
    rw [Action.bind_of_ok ran] at failed
    obtain ⟨n, moved⟩ := moves w settled
    rw [ran] at moved
    exact hf a w₁ e w' (moved.settled settled)
      (fun m ↦ undenied (moved.plan_isSuffix.subset m)) failed

end RunsOut

theorem runsOut_bytes (n : Nat) : RunsOut (bytes n) := by
  intro w e w' settled undenied failed
  obtain ⟨r, w₁, asked, eq⟩ := consumes_bytes n w settled.pending_le
  rw [eq] at failed
  cases asked with
  | enough => cases failed
  | short =>
    cases failed
    rfl
  | denied _ denied => exact absurd denied undenied

theorem runsOut_skip (count : Nat) : RunsOut (skip count) := by
  have blocks : ∀ n, RunsOut (skipBlocks n) := by
    intro n
    induction n with
    | zero => exact .pure ()
    | succ n ih => exact .bind (moves_bytes skipSize) (runsOut_bytes skipSize) fun _ ↦ ih
  exact .bind (moves_skipBlocks _) (blocks _) fun _ ↦
    .bind (moves_bytes _) (runsOut_bytes _) fun _ ↦ .pure ()

end Window

end Disasm
