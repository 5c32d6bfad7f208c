import Disasm.Window.Basic
import Disasm.Proofs.Bytes.Source

/-!
# Filling a window

All reading goes through `fill`, and this file says once what `fill` can do: it
puts a run of bytes from the front of the source behind the look-ahead and
touches nothing else that can be seen.  Everything later rests on `fill_spec`.

The bytes that a window *still gives* are those it has read ahead and those
that its source has left, up to the limit.  Over a steady source filling does
not change them; over any other it may cut them short, where the source turns
out to have ended.
-/

namespace Disasm.Window

open Source (visible)

/-- The bytes that a window can still read from its source. -/
def upcoming (w : Window) : Bytes :=
  if w.exhausted then [] else visible w.room w.source.data

/-- The bytes that a window still gives, up to the end of its source or its
limit. -/
def remaining (w : Window) : Bytes := w.unread ++ w.upcoming

/-- `w'` is `w` after it has read the bytes `taken` from its source. -/
structure Pulled (taken : Bytes) (w w' : Window) : Prop where
  /-- Nothing else changes. -/
  frame : w' = { w with
    source := w'.source, lookahead := w.lookahead ++ taken, exhausted := w'.exhausted }
  /-- The bytes come from the front of the source. -/
  source : taken ++ w'.source.data = w.source.data
  delivered : w'.source.delivered = w.source.delivered + taken.length
  plan : w'.source.plan <:+ w.source.plan
  /-- The limit is kept. -/
  room : ∀ r, w.room = some r → taken.length ≤ r
  /-- After its end a source is not read again. -/
  exhausted : w.exhausted = true → w' = w
  steady : w.source.Steady → w'.source.Steady
  /-- A steady source ends with its last byte. -/
  ended : w.source.Steady → w.exhausted = false → w'.exhausted = true →
    visible w'.room w'.source.data = []

namespace Pulled

variable {taken : Bytes} {w w' : Window}

theorem refl (w : Window) : Pulled [] w w where
  frame := by rw [List.append_nil]
  source := rfl
  delivered := rfl
  plan := List.suffix_rfl
  room _ _ := Nat.zero_le _
  exhausted _ := rfl
  steady h := h
  ended _ h h' := by rw [h] at h'; cases h'

theorem order_eq (h : Pulled taken w w') : w'.order = w.order := by rw [h.frame]

theorem autoCommit_eq (h : Pulled taken w w') : w'.autoCommit = w.autoCommit := by rw [h.frame]

theorem cursor_eq (h : Pulled taken w w') : w'.cursor = w.cursor := by rw [h.frame]

theorem committed_eq (h : Pulled taken w w') : w'.committed = w.committed := by rw [h.frame]

theorem lookahead_eq (h : Pulled taken w w') : w'.lookahead = w.lookahead ++ taken := by
  rw [h.frame]

theorem totalRead_eq (h : Pulled taken w w') : w'.totalRead = w.totalRead := by
  rw [totalRead, totalRead, h.committed_eq, h.cursor_eq]

theorem pending_le (h : Pulled taken w w') (inside : w.pending ≤ w.lookahead.length) :
    w'.pending ≤ w'.lookahead.length := by
  rw [pending, h.cursor_eq, h.lookahead_eq, List.length_append]
  exact Nat.le_add_right_of_le inside

theorem unread_eq (h : Pulled taken w w') (inside : w.pending ≤ w.lookahead.length) :
    w'.unread = w.unread ++ taken := by
  rw [unread, unread, h.cursor_eq, h.lookahead_eq]
  exact List.drop_append_of_le_length inside

theorem room_eq (h : Pulled taken w w') : w'.room = w.room.map (· - taken.length) := by
  have : w'.limit = w.limit := by rw [h.frame]
  rw [Window.room, Window.room, this, h.delivered, Option.map_map]
  congr 1
  funext n
  exact Nat.sub_add_eq n w.source.delivered taken.length

/-- What was read and what is left make up what was left before. -/
theorem visible_eq (h : Pulled taken w w') :
    visible w.room w.source.data = taken ++ visible w'.room w'.source.data := by
  rw [← h.source, Source.visible_append h.room, h.room_eq]

/-- Reading loses nothing, but it may show that the source has ended. -/
theorem remaining_isPrefix (h : Pulled taken w w') (inside : w.pending ≤ w.lookahead.length) :
    w'.remaining <+: w.remaining := by
  cases stopped : w.exhausted with
  | true => exact h.exhausted stopped ▸ List.prefix_rfl
  | false =>
    rw [remaining, remaining, h.unread_eq inside, List.append_assoc]
    refine (List.prefix_append_right_inj _).2 ?_
    rw [upcoming, upcoming, stopped, if_neg Bool.false_ne_true, h.visible_eq]
    refine (List.prefix_append_right_inj _).2 ?_
    split
    · exact List.nil_prefix
    · exact List.prefix_rfl

/-- Over a steady source the bytes to come stay the same. -/
theorem remaining_eq (h : Pulled taken w w') (inside : w.pending ≤ w.lookahead.length)
    (steady : w.source.Steady) : w'.remaining = w.remaining := by
  cases stopped : w.exhausted with
  | true => rw [h.exhausted stopped]
  | false =>
    have later : w'.upcoming = visible w'.room w'.source.data := by
      rw [upcoming]
      split
      · exact (h.ended steady stopped ‹_›).symm
      · rfl
    rw [remaining, remaining, h.unread_eq inside, later, upcoming, stopped,
      if_neg Bool.false_ne_true, h.visible_eq, List.append_assoc]

/-- A window that has `n` bytes unread, or all that there are, keeps them. -/
theorem ready (h : Pulled taken w w') (inside : w.pending ≤ w.lookahead.length) {n : Nat}
    (ready : w.exhausted = true ∨ n ≤ w.unread.length) :
    (w'.exhausted = true ∨ n ≤ w'.unread.length) ∧ w'.unread.take n = w.unread.take n := by
  rcases ready with stopped | there
  · rw [h.exhausted stopped]
    exact ⟨.inl stopped, rfl⟩
  · rw [h.unread_eq inside, List.length_append]
    exact ⟨.inr (Nat.le_add_right_of_le there), List.take_append_of_le_length there⟩

end Pulled

/-- What is unread is what comes next. -/
theorem take_remaining {w : Window} {n : Nat}
    (ready : w.exhausted = true ∨ n ≤ w.unread.length) :
    w.remaining.take n = w.unread.take n := by
  rw [remaining]
  rcases ready with stopped | there
  · rw [upcoming, if_pos stopped, List.append_nil]
  · exact List.take_append_of_le_length there

/-- The window after a pull. -/
def received (p : Source.Pull) (w : Window) : Window :=
  { w with
    source :=
      { data := p.rest, plan := p.plan, delivered := w.source.delivered + p.taken.length }
    lookahead := w.lookahead ++ p.taken
    exhausted := p.ending = .exhausted }

theorem pulled_received {w : Window} (missing : Nat) (going : w.exhausted = false) :
    Pulled (Source.pull w.source.plan missing w.room w.source.data).taken w
      (w.received (Source.pull w.source.plan missing w.room w.source.data)) where
  frame := rfl
  source := Source.taken_append_rest ..
  delivered := rfl
  plan := Source.plan_isSuffix ..
  room r h := h ▸ Source.length_taken_le_room ..
  exhausted h := by rw [going] at h; cases h
  steady h := Source.steadyPlan_pull h
  ended steady _ ended := by
    have room : (w.received (Source.pull w.source.plan missing w.room w.source.data)).room
        = w.room.map (· - (Source.pull w.source.plan missing w.room w.source.data).taken.length) := by
      rw [Window.room, Window.room, Option.map_map]
      congr 1
      funext n
      exact Nat.sub_add_eq ..
    rw [room]
    exact Source.visible_rest_of_exhausted steady (of_decide_eq_true ended)

/-- What is missing is counted from the unread bytes. -/
theorem missing_eq (wanted : Nat) (w : Window) :
    wanted - (w.unread.take wanted).length = wanted - w.unread.length := by
  rw [List.length_take]
  omega

theorem fill_of_idle {wanted : Nat} {w : Window}
    (idle : w.exhausted = true ∨ wanted - w.unread.length = 0) : fill wanted w = .ok () w := by
  rw [fill, missing_eq]
  exact if_pos idle

theorem fill_of_le {wanted : Nat} {w : Window} (there : wanted ≤ w.unread.length) :
    fill wanted w = .ok () w :=
  fill_of_idle (.inr (Nat.sub_eq_zero_of_le there))

/-- Where bytes are missing and the source has not ended, they are asked for. -/
theorem fill_of_missing {wanted : Nat} {w : Window}
    (missing : ¬(w.exhausted = true ∨ wanted - w.unread.length = 0)) :
    fill wanted w =
      match (Source.pull w.source.plan (wanted - w.unread.length) w.room
        w.source.data).ending with
      | .enough | .exhausted =>
        .ok () (w.received
          (Source.pull w.source.plan (wanted - w.unread.length) w.room w.source.data))
      | .denied => .error .readDenied (w.received
          (Source.pull w.source.plan (wanted - w.unread.length) w.room w.source.data)) := by
  rw [fill, missing_eq]
  refine (if_neg missing).trans ?_
  simp only [Source.request, received]
  split <;> simp_all

/-- Filling reads from the front of the source.  It ends when enough bytes are
unread, when the source ends, or with a denial that was planned. -/
theorem fill_spec (wanted : Nat) {w : Window} (inside : w.pending ≤ w.lookahead.length) :
    ∃ taken w', Pulled taken w w' ∧
      ((fill wanted w = .ok () w' ∧ (w'.exhausted = true ∨ wanted ≤ w'.unread.length)) ∨
        (fill wanted w = .error .readDenied w' ∧ .deny ∈ w.source.plan)) := by
  by_cases idle : w.exhausted = true ∨ wanted - w.unread.length = 0
  · exact ⟨[], w, .refl w, .inl ⟨fill_of_idle idle, idle.imp_right (by omega)⟩⟩
  · have going : w.exhausted = false := by simpa using fun h ↦ idle (.inl h)
    have pulled := pulled_received (wanted - w.unread.length) going
    refine ⟨_, _, pulled, ?_⟩
    have filled := fill_of_missing idle
    cases ending : (Source.pull w.source.plan (wanted - w.unread.length) w.room
      w.source.data).ending with
    | enough =>
      rw [ending] at filled
      refine .inl ⟨filled, .inr ?_⟩
      rw [pulled.unread_eq inside, List.length_append, Source.length_taken_of_enough ending]
      omega
    | exhausted =>
      rw [ending] at filled
      exact .inl ⟨filled, .inl (decide_eq_true ending)⟩
    | denied =>
      rw [ending] at filled
      refine .inr ⟨filled, ?_⟩
      exact Decidable.by_contra fun h ↦ Source.ending_ne_denied h ending

end Disasm.Window
