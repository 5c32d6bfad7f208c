import Disasm.Proofs.Window.Reading

/-!
# What a window has received

A window over a source that held `data` has received some beginning `G` of
them.  The look-ahead is the part of `G` from the position on, and what comes
next is the part from the decoded bytes on.  This holds over every source, also
one that refuses reads or ends early.

`Received` is the invariant, and `Accounted` adds that nothing is pending where
commits are automatic.  An action that consumes `n` bytes keeps the account; it
answers what the next `n` bytes of `G` spell, or it leaves the window where it
was.
-/

namespace Disasm.Window

/-- The window has received the bytes `G` of a source that held `data`. -/
structure Received (data G : Bytes) (w : Window) : Prop where
  /-- What was received and what is left make up the data. -/
  left : G ++ w.source.data = data
  delivered : w.source.delivered = G.length
  position_add : w.position + w.lookahead.length = G.length
  lookahead_eq : w.lookahead = G.drop w.position
  pending_le : w.pending ≤ w.lookahead.length

/-- A window that has received `G` and has settled. -/
structure Accounted (data G : Bytes) (w : Window) : Prop extends Received data G w where
  /-- Nothing is pending where commits are automatic. -/
  settled : w.autoCommit = true → w.pending = 0

/-- A window that was not used has received nothing. -/
theorem accounted_fresh (data : Bytes) (plan : List PlannedRead) (order : ByteOrder)
    (limit : Option Nat) : Accounted data [] { source := { data, plan }, order, limit } where
  left := rfl
  delivered := rfl
  position_add := rfl
  lookahead_eq := rfl
  pending_le := Nat.le_refl 0
  settled _ := rfl

variable {data G taken : Bytes} {w w' : Window}

namespace Received

theorem unread_eq (h : Received data G w) : w.unread = G.drop w.totalRead := by
  rw [unread, h.lookahead_eq, List.drop_drop]
  rfl

theorem totalRead_le (h : Received data G w) : w.totalRead ≤ G.length := by
  rw [← h.position_add]
  exact Nat.add_le_add_left h.pending_le _

/-- What a window reads comes behind what it has received. -/
theorem pulled (h : Received data G w) (p : Pulled taken w w') :
    Received data (G ++ taken) w' where
  left := by rw [List.append_assoc, p.source, h.left]
  delivered := by rw [p.delivered, h.delivered, List.length_append]
  position_add := by
    have := h.position_add
    rw [position, p.committed_eq, p.lookahead_eq, List.length_append, List.length_append, ← this,
      position, Nat.add_assoc]
  lookahead_eq := by
    have : w.committed ≤ G.length := h.position_add ▸ Nat.le_add_right _ _
    rw [position, p.committed_eq, p.lookahead_eq, List.drop_append_of_le_length this,
      h.lookahead_eq, position]
  pending_le := p.pending_le h.pending_le

theorem advance {n : Nat} (h : Received data G w) (there : n ≤ w.unread.length) :
    Received data G (w.advance n) :=
  { h with
    pending_le := by
      have inside : w.cursor ≤ w.lookahead.length := h.pending_le
      rw [unread, List.length_drop] at there
      change w.cursor + n ≤ w.lookahead.length
      omega }

theorem commit (h : Received data G w) : Received data G w.commit where
  left := h.left
  delivered := h.delivered
  position_add := by
    have inside : w.cursor ≤ w.lookahead.length := h.pending_le
    have all : w.committed + w.lookahead.length = G.length := h.position_add
    change w.committed + w.cursor + (w.lookahead.drop w.cursor).length = _
    rw [List.length_drop]
    omega
  lookahead_eq := h.unread_eq
  pending_le := Nat.zero_le _

/-- Any move back keeps what was received. -/
theorem moveBack (h : Received data G w) {cursor : Nat} (le : cursor ≤ w.cursor) :
    Received data G { w with cursor } :=
  { h with pending_le := Nat.le_trans le h.pending_le }

theorem settle (h : Received data G w) : Accounted data G w.settle where
  toReceived := by
    rw [Window.settle]
    split
    · exact h.commit
    · exact h
  settled := pending_settle

theorem setAutoCommit (h : Received data G w) (on : Bool) :
    Received data G { w with autoCommit := on } := { h with }

/-- The end of a transaction keeps what was received. -/
theorem leave (h : Received data G w) (before : Window) (failed : Bool) :
    Accounted data G (leave before failed w) :=
  ((h.moveBack (cursor_leave_le before w failed)).setAutoCommit before.autoCommit).settle

end Received

namespace Accounted

/-- Where a window stands decides whether it has settled. -/
theorem of_place_eq (h : Received data G w') (settled : w.autoCommit = true → w.pending = 0)
    (same : w'.place = w.place) : Accounted data G w' where
  toReceived := h
  settled on := by
    obtain ⟨-, -, pending, auto⟩ := Place.mk.inj same
    rw [pending]
    exact settled (auto ▸ on)

theorem pulled (h : Accounted data G w) (p : Pulled taken w w') :
    Accounted data (G ++ taken) w' :=
  of_place_eq (h.toReceived.pulled p) h.settled p.place_eq

theorem enter (h : Accounted data G w) : Accounted data G w.enter where
  toReceived := h.toReceived.setAutoCommit false
  settled on := by cases on

theorem discard (h : Accounted data G w) (count : Option Nat) :
    Accounted data G (w.discard count) where
  toReceived := h.toReceived.moveBack (Nat.sub_le _ _)
  settled on := by
    have : w.cursor = 0 := h.settled on
    change w.cursor - _ = 0
    rw [this, Nat.zero_sub]

theorem commit (h : Accounted data G w) : Accounted data G w.commit where
  toReceived := h.toReceived.commit
  settled _ := rfl

theorem setAutoCommit (h : Accounted data G w) (on : Bool) :
    Accounted data G (w.setAutoCommit on) := by
  rw [Window.setAutoCommit]
  cases on with
  | false => exact ⟨h.toReceived.setAutoCommit false, fun on ↦ by cases on⟩
  | true =>
    cases auto : w.autoCommit with
    | true => exact ⟨h.toReceived.setAutoCommit true, fun _ ↦ h.settled auto⟩
    | false => exact ⟨h.toReceived.commit.setAutoCommit true, fun _ ↦ rfl⟩

end Accounted

/-! ## Consuming -/

/-- The number of bytes that a step consumes if it succeeds. -/
def Step.amount : Step → Option Nat
  | scalar k | magic k _ => some k.size
  | scalars k count => some (k.size * count)
  | bytes n | skip n => some n
  | _ => none

/-- What asking for bytes brings about, whether it succeeds or not. -/
theorem Asked.received {n : Nat} {r : Except Error Bytes} (asked : Asked n w r w')
    (h : Accounted data G w) :
    ∃ G', Accounted data G' w' ∧ w'.place = w.place ∧ w'.order = w.order ∧
      ∀ bs, r = .ok bs → bs = (G'.drop w.totalRead).take n ∧ bs.length = n ∧
        Accounted data G' (w'.consume n) := by
  obtain ⟨taken, pulled⟩ := asked.pulled
  have now := h.pulled pulled
  refine ⟨_, now, pulled.place_eq, pulled.order_eq, ?_⟩
  cases asked with
  | short | denied => exact fun bs e ↦ by cases e
  | enough _ there =>
    intro bs e
    cases e
    refine ⟨?_, ?_, (now.toReceived.advance there).settle⟩
    · rw [now.toReceived.unread_eq, pulled.totalRead_eq]
    · rw [List.length_take]
      exact Nat.min_eq_left there

/-- What an action of the common shape does: it consumes the next bytes and
answers what they spell, or it leaves the window where it was. -/
theorem Consumes.spec {α : Type} {n : Nat} {look : ByteOrder → Bytes → Except Error α}
    {action : Action α} (consumes : Consumes n look action) (h : Accounted data G w) :
    ∃ G', Accounted data G' (after (action w)) ∧
      match outcome (action w) with
      | .ok a => ((G'.drop w.totalRead).take n).length = n ∧
          look w.order ((G'.drop w.totalRead).take n) = .ok a ∧
          (after (action w)).totalRead = w.totalRead + n
      | .error _ => (after (action w)).place = w.place := by
  obtain ⟨r, w', asked, eq⟩ := consumes w h.pending_le
  obtain ⟨G', now, place, order, got⟩ := asked.received h
  refine ⟨G', ?_⟩
  rw [eq, outcome_conclude]
  cases r with
  | error e => exact ⟨now, place⟩
  | ok bs =>
    obtain ⟨rfl, len, behind⟩ := got bs rfl
    rw [show (Except.ok ((G'.drop w.totalRead).take n) >>= look w.order) =
      look w.order ((G'.drop w.totalRead).take n) from rfl]
    cases look w.order ((G'.drop w.totalRead).take n) with
    | error e => exact ⟨now, place⟩
    | ok a =>
      refine ⟨behind, len, rfl, ?_⟩
      rw [← (Place.mk.inj place).2.1]
      exact totalRead_consume n w'

end Disasm.Window
