import Disasm.Proofs.Window.Closure
import Disasm.Proofs.Window.Drawing
import Disasm.Proofs.Window.Skip

/-!
# What a step does with the bytes

A window over a source that held `data` has received some beginning `G` of
them, and its look-ahead is the part of `G` from the position on.  A *faithful*
step keeps this account, and what can be seen of the window behind it follows from
what could be seen before.

A step that consumes `n` bytes answers what the next `n` bytes of `G` spell in
the byte order of the window, and moves on by `n`.  A step that looks at bytes
shows the next ones and leaves them to be decoded.  A discard takes back pending
bytes, and nothing else moves back.  A commit gives up what was decoded, and so
does every step where commits are automatic, but no other.  The byte order is
changed by the step for it.  A step that fails has a cause and leaves the window
where it was; only a skip may have moved on before.

`faithful_perform` says that all steps are faithful, over every source.
-/

namespace Disasm.Window

variable {α β : Type} {data G taken : Bytes} {w w' : Window} {m n : Nat} {s : Step}

namespace Step

/-- The number of bytes that a step asks for, to consume or to look at them. -/
def asked : Step → Option Nat
  | peek n => some n
  | hasRemaining => some 1
  | s => s.amount

/-- How many of the pending bytes a step takes back. -/
def takenBack (pending : Nat) : Step → Nat
  | discard count => min (count.getD pending) pending
  | _ => 0

/-- The byte order behind a step. -/
def orderAfter (before : ByteOrder) : Step → ByteOrder
  | order o => o
  | _ => before

/-- Whether commits are automatic behind a step. -/
def autoCommitAfter (before : Bool) : Step → Bool
  | autoCommit on => on
  | _ => before

/-- What a step answers that asks for bytes and is given `bs`.  Only those that
look ahead may be given fewer than they ask for. -/
inductive Reads (order : ByteOrder) (bs : Bytes) : Step → Value → Prop
  | scalar {k : Scalar} : bs.length = k.size →
      Reads order bs (.scalar k) (.scalar k (order.value bs))
  | scalars {k : Scalar} {count : Nat} : bs.length = k.size * count →
      Reads order bs (.scalars k count) (.scalars k ((List.range count).map fun i ↦
        order.value ((bs.drop (k.size * i)).take k.size)))
  | bytes {n : Nat} : bs.length = n → Reads order bs (.bytes n) (.bytes bs)
  | magic {k : Scalar} : bs.length = k.size → Reads order bs (.magic k (order.value bs)) .unit
  | skip {n : Nat} : bs.length = n → Reads order bs (.skip n) .unit
  | peek {n : Nat} : Reads order bs (.peek n) (.bytes bs)
  | hasRemaining : Reads order bs .hasRemaining (.flag !bs.isEmpty)

/-- How a step fails that rejects the bytes `bs`. -/
inductive Rejects (order : ByteOrder) (bs : Bytes) : Step → Error → Prop
  | magic {k : Scalar} {expected : Nat} : bs.length = k.size → order.value bs ≠ expected →
      Rejects order bs (.magic k expected) (.magic expected (order.value bs))

/-- What becomes of a window by a step that succeeds. -/
structure Effect (s : Step) (w w' : Window) : Prop where
  /-- What is consumed is decoded, and what is taken back is not. -/
  totalRead_add : w'.totalRead + s.takenBack w.pending = w.totalRead + s.amount.getD 0
  /-- A commit gives up what was decoded, and so does every step where commits are
  automatic. -/
  position_eq : w'.position = if s = .commit ∨ w'.autoCommit then w'.totalRead else w.position
  order_eq : w'.order = s.orderAfter w.order
  autoCommit_eq : w'.autoCommit = s.autoCommitAfter w.autoCommit

/-- A step that succeeds with the answer `v`, where the window has then received
`G`. -/
structure Succeeds (s : Step) (G : Bytes) (w : Window) (v : Value) (w' : Window) : Prop
    extends Effect s w w' where
  /-- The answer is what the next bytes spell. -/
  reads : ∀ n, s.asked = some n → s.Reads w.order ((G.drop w.totalRead).take n) v
  /-- There are fewer than it asks for only at the end. -/
  ended : ∀ n, s.asked = some n → ((G.drop w.totalRead).take n).length < n →
    w'.exhausted = true

/-- Why a step fails, where the window has then received `G`. -/
inductive Cause (G : Bytes) (w w' : Window) : Step → Error → Prop
  /-- The source or the limit ends before the bytes that the step asks for. -/
  | short {s : Step} {n : Nat} : s.asked = some n → ((G.drop w.totalRead).take n).length < n →
      w'.exhausted = true → Cause G w w' s .outOfBounds
  /-- The source refuses to be read. -/
  | denied {s : Step} : .deny ∈ w.source.plan → Cause G w w' s .readDenied
  /-- The bytes are not the ones that were expected. -/
  | rejected {s : Step} {n : Nat} {e : Error} : s.asked = some n →
      s.Rejects w.order ((G.drop w.totalRead).take n) e → Cause G w w' s e
  /-- The scalars would take more bytes than have addresses. -/
  | unaddressed {k : Scalar} {count : Nat} : addressBound ≤ k.size * count →
      Cause G w w' (.scalars k count) .outOfBounds
  | fail : Cause G w w' .fail .empty

/-- A step that fails with `e`, where the window has then received `G`. -/
structure Fails (s : Step) (G : Bytes) (w : Window) (e : Error) (w' : Window) : Prop where
  cause : Cause G w w' s e
  order_eq : w'.order = w.order
  autoCommit_eq : w'.autoCommit = w.autoCommit
  place_eq : (∀ n, s ≠ .skip n) → w'.place = w.place
  /-- A skip may have consumed bytes before it failed. -/
  skipped : ∀ n, s = .skip n → ∃ m ≤ n, Consumed m w w'

end Step

/-- `w'` is fed by the source of `w`, which may have delivered more by then. -/
structure Fed (w w' : Window) : Prop where
  /-- What was delivered stays delivered. -/
  delivered_le : w.source.delivered ≤ w'.source.delivered
  plan : w'.source.plan <:+ w.source.plan
  limit_eq : w'.limit = w.limit
  /-- A window comes to its end behind the last byte of the source, at its limit, or
  where the source delivers nothing. -/
  ended : w'.exhausted = true → w.exhausted = true ∨ .deliver 0 ∈ w.source.plan ∨
    w'.source.data = [] ∨ ∃ bound, w'.limit = some bound ∧ bound ≤ w'.source.delivered

/-- A step from `w` to `w'` over a source that held `data`. -/
def Step.Faithful (data : Bytes) (s : Step) (w : Window) (outcome : Except Error Value)
    (w' : Window) : Prop :=
  ∃ G, Accounted data G w' ∧ Fed w w' ∧
    match outcome with
    | .ok v => s.Succeeds G w v w'
    | .error e => s.Fails G w e w'

namespace Step

theorem asked_of_amount (amount : s.amount = some n) : s.asked = some n := by
  cases s with
  | peek | hasRemaining => cases amount
  | _ => exact amount

theorem speculative_of_amount (amount : s.amount = some n) : s.speculative := by
  cases s with
  | commit | discard | autoCommit | order => cases amount
  | _ => rfl

end Step

/-! ## Feeding -/

/-- Where nothing can be read any more the data or the limit have come to their
end. -/
theorem ended_of_visible_eq_nil (none : Source.visible w.room w.source.data = []) :
    w.source.data = [] ∨ ∃ bound, w.limit = some bound ∧ bound ≤ w.source.delivered := by
  cases limit : w.limit with
  | none =>
    rw [room, limit] at none
    exact .inl none
  | some bound =>
    rw [room, limit] at none
    change w.source.data.take (bound - w.source.delivered) = [] at none
    obtain full | empty := List.take_eq_nil_iff.1 none
    · exact .inr ⟨bound, rfl, Nat.le_of_sub_eq_zero full⟩
    · exact .inl empty

namespace Fed

theorem refl (w : Window) : Fed w w :=
  ⟨Nat.le_refl _, List.suffix_rfl, rfl, .inl⟩

/-- Only the feed of a window matters to how it is fed. -/
theorem congr {w₁ : Window} (fed : Fed w w₁) (same : w'.feed = w₁.feed) : Fed w w' := by
  obtain ⟨source, limit, exhausted⟩ := Feed.mk.inj same
  refine ⟨?_, ?_, limit.trans fed.limit_eq, ?_⟩
  · rw [source]
    exact fed.delivered_le
  · rw [source]
    exact fed.plan
  · rw [source, limit, exhausted]
    exact fed.ended

theorem pulled (pulled : Pulled taken w w') : Fed w w' where
  delivered_le := pulled.delivered ▸ Nat.le_add_right _ _
  plan := pulled.plan
  limit_eq := pulled.limit_eq
  ended ended := by
    by_cases early : .deliver 0 ∈ w.source.plan
    · exact .inr (.inl early)
    · cases going : w.exhausted with
      | true => exact .inl rfl
      | false =>
        have steady := Source.steady_of_forall early
        exact .inr (.inr (ended_of_visible_eq_nil (pulled.ended steady going ended)))

theorem moved (moved : Moved n w w') : Fed w w' := by
  obtain ⟨taken, w₁, pulled, -, rfl⟩ := moved
  exact (Fed.pulled pulled).congr (feed_consume n w₁)

end Fed

/-! ## Moving on -/

theorem Accounted.toSettled (h : Accounted data G w) : w.Settled := ⟨h.pending_le, h.settled⟩

/-- Moving on keeps the account. -/
theorem Accounted.moved (h : Accounted data G w) (moved : Moved n w w') :
    ∃ G', Accounted data G' w' := by
  obtain ⟨taken, w₁, pulled, there, rfl⟩ := moved
  exact ⟨_, ((h.pulled pulled).toReceived.advance there).settle⟩

/-- The next bytes are those that are unread by then. -/
theorem Received.take_eq (h : Received data G w') (same : w'.totalRead = w.totalRead) (n : Nat) :
    (G.drop w.totalRead).take n = w'.unread.take n := by
  rw [h.unread_eq, same]

theorem Received.length_eq (h : Received data G w) :
    G.length = w.totalRead + w.unread.length := by
  rw [h.unread_eq, List.length_drop]
  exact (Nat.add_sub_cancel' h.totalRead_le).symm

/-- Where commits are automatic all that is decoded is given up. -/
theorem Settled.position_eq (h : w.Settled) (on : w.autoCommit = true) :
    w.position = w.totalRead := by
  have none : w.cursor = 0 := h.settled on
  rw [totalRead, none]
  rfl

/-- A step other than a commit gives nothing up where commits are not automatic. -/
theorem Settled.position_eq_ite (h : w'.Settled) (other : s ≠ .commit)
    (kept : w'.autoCommit = false → w'.position = w.position) :
    w'.position = if s = .commit ∨ w'.autoCommit then w'.totalRead else w.position := by
  simp only [other, false_or]
  split
  next on => exact h.position_eq on
  next off => exact kept (Bool.eq_false_of_not_eq_true off)

namespace Moved

/-- A window that has consumed nothing stands where it stood. -/
theorem place_eq (moved : Moved 0 w w') (settled : w.Settled) : w'.place = w.place := by
  have none := moved.consumed settled
  rw [place, place, moved.autoCommit_eq, none.totalRead_eq, none.position_eq, none.pending_eq,
    ite_self, Nat.add_zero, Nat.add_zero, Nat.add_zero]

/-- A speculative step only moves on. -/
theorem effect (moved : Moved n w w') (amount : s.amount.getD 0 = n) (spec : s.speculative)
    (settled : w.Settled) : s.Effect w w' := by
  have still : s ≠ .commit ∧ s.takenBack w.pending = 0 ∧ s.orderAfter w.order = w.order ∧
      s.autoCommitAfter w.autoCommit = w.autoCommit := by
    cases s with
    | commit | discard | autoCommit | order => cases spec
    | _ => exact ⟨(fun same ↦ by cases same), rfl, rfl, rfl⟩
  obtain ⟨other, back, order, auto⟩ := still
  refine ⟨?_, ?_, moved.order_eq.trans order.symm, moved.autoCommit_eq.trans auto.symm⟩
  · rw [back, amount, moved.totalRead_eq, Nat.add_zero]
  · refine (moved.settled settled).position_eq_ite other fun off ↦ ?_
    rw [moved.position_eq settled, ← moved.autoCommit_eq, off, if_neg Bool.false_ne_true,
      Nat.add_zero]

/-- A step succeeds that has moved over the bytes that it consumes and answers
what they spell. -/
theorem succeeds {v : Value} (moved : Moved n w w') (settled : w.Settled)
    (amount : s.amount = some n) (len : ((G.drop w.totalRead).take n).length = n)
    (reads : s.Reads w.order ((G.drop w.totalRead).take n) v) : s.Succeeds G w v w' where
  toEffect := by
    refine moved.effect ?_ (Step.speculative_of_amount amount) settled
    rw [amount, Option.getD_some]
  reads m asked := by
    cases (Step.asked_of_amount amount).symm.trans asked
    exact reads
  ended m asked short := by
    cases (Step.asked_of_amount amount).symm.trans asked
    exact absurd len (Nat.ne_of_lt short)

/-- A step that fails after it has consumed `m` bytes, which only a skip does. -/
theorem fails {e : Error} (moved : Moved m w w') (settled : w.Settled)
    (still : (∀ n, s ≠ .skip n) → m = 0) (few : ∀ n, s = .skip n → m ≤ n)
    (cause : Step.Cause G w w' s e) : s.Fails G w e w' where
  cause := cause
  order_eq := moved.order_eq
  autoCommit_eq := moved.autoCommit_eq
  place_eq other := by
    cases still other
    exact moved.place_eq settled
  skipped n same := ⟨m, few n same, moved.consumed settled⟩

end Moved

/-- A step is faithful that fails and has at most read ahead. -/
theorem Pulled.faithful {e : Error} (pulled : Pulled taken w w') (h : Accounted data G w)
    (cause : Step.Cause (G ++ taken) w w' s e) : s.Faithful data w (.error e) w' := by
  have settled := h.toSettled
  refine ⟨_, h.pulled pulled, .pulled pulled, ?_⟩
  exact (pulled.moved settled).fails settled (fun _ ↦ rfl) (fun n _ ↦ Nat.zero_le n) cause

/-! ## Steps that consume -/

theorem runs_eq_map (order : ByteOrder) (size count : Nat) (bs : Bytes) :
    runs order size count bs =
      (List.range count).map fun i ↦ order.value ((bs.drop (size * i)).take size) := by
  induction count generalizing bs with
  | zero => rfl
  | succ count ih =>
    rw [runs, ih, List.range_succ_eq_map, List.map_cons, List.map_map]
    congr 1
    apply List.map_congr_left
    intro i _
    simp only [Function.comp_apply, List.drop_drop, Nat.mul_succ, Nat.add_comm]

/-- Every step of the common shape is faithful. -/
theorem Consumes.faithful {look : ByteOrder → Bytes → Except Error Value}
    (consumes : Consumes n look s.perform) (amount : s.amount = some n)
    (reads : ∀ order bs v, bs.length = n → look order bs = .ok v → s.Reads order bs v)
    (rejects : ∀ order bs e, bs.length = n → look order bs = .error e → s.Rejects order bs e)
    (h : Accounted data G w) :
    s.Faithful data w (outcome (s.perform w)) (after (s.perform w)) := by
  have asks := Step.asked_of_amount amount
  obtain ⟨r, w', asked, eq⟩ := consumes w h.pending_le
  rw [eq]
  cases asked with
  | short pulled few ended =>
    refine pulled.faithful h (.short asks ?_ ended)
    rw [(h.pulled pulled).take_eq pulled.totalRead_eq, List.length_take]
    exact Nat.lt_of_le_of_lt (Nat.min_le_right _ _) few
  | denied pulled denied => exact pulled.faithful h (.denied denied)
  | enough pulled there =>
    have now := h.pulled pulled
    have next := now.take_eq pulled.totalRead_eq n
    have len : (w'.unread.take n).length = n := by
      rw [List.length_take]
      exact Nat.min_eq_left there
    -- the bytes are there, and it is left to the step whether it takes them
    change Step.Faithful data s w (outcome (conclude _ _ (look _ _)))
      (after (conclude _ _ (look _ _)))
    cases looked : look w.order (w'.unread.take n) with
    | error e =>
      refine pulled.faithful h (.rejected asks ?_)
      rw [next]
      exact rejects _ _ e len looked
    | ok v =>
      have moved : Moved n w (w'.consume n) := ⟨_, w', pulled, there, rfl⟩
      have behind := (now.toReceived.advance there).settle
      rw [← next] at len looked
      exact ⟨_, behind, .moved moved,
        moved.succeeds h.toSettled amount len (reads _ _ v len looked)⟩

/-! ## Skips -/

/-- How an action ends at `w` that is to consume `n` bytes and may fail on the way,
over a source that may refuse. -/
inductive Ends (n : Nat) (w : Window) : EStateM.Result Error Window α → Prop
  | whole {a : α} {w' : Window} : Moved n w w' → Ends n w (.ok a w')
  | short {m : Nat} {w' : Window} : Moved m w w' → m + w'.unread.length < n →
      w'.exhausted = true → Ends n w (.error .outOfBounds w')
  | denied {m : Nat} {w' : Window} : Moved m w w' → m ≤ n → .deny ∈ w.source.plan →
      Ends n w (.error .readDenied w')

namespace Ends

/-- Bytes that were consumed before count. -/
theorem behind {r : EStateM.Result Error Window α} (first : Moved m w w') (second : Ends n w' r)
    (settled : w.Settled) : Ends (m + n) w r := by
  cases second with
  | whole moved => exact .whole (first.trans moved settled)
  | short moved few ended => exact .short (first.trans moved settled) (by omega) ended
  | denied moved few denied =>
    have plan := (Fed.moved first).plan
    exact .denied (first.trans moved settled) (by omega) (plan.subset denied)

theorem bind {x : Action α} {f : α → Action β} (first : Ends m w (x w))
    (second : ∀ a w', Moved m w w' → Ends n w' (f a w')) (settled : w.Settled) :
    Ends (m + n) w ((x >>= f) w) := by
  generalize ran : x w = r at first
  cases first with
  | @whole a w' moved =>
    rw [Action.bind_of_ok ran]
    exact .behind moved (second a w' moved) settled
  | short moved few ended =>
    rw [Action.bind_of_error ran]
    exact .short moved (by omega) ended
  | denied moved few denied =>
    rw [Action.bind_of_error ran]
    exact .denied moved (by omega) denied

end Ends

theorem ends_bytes (n : Nat) (settled : w.Settled) : Ends n w (bytes n w) := by
  obtain ⟨r, w', asked, eq⟩ := consumes_bytes n w settled.pending_le
  rw [eq]
  cases asked with
  | enough pulled there => exact .whole ⟨_, w', pulled, there, rfl⟩
  | short pulled few ended =>
    exact .short (pulled.moved settled) (by omega) ended
  | denied pulled denied => exact .denied (pulled.moved settled) (Nat.zero_le n) denied

theorem ends_skipBlocks (blocks : Nat) (settled : w.Settled) :
    Ends (skipSize * blocks) w (skipBlocks blocks w) := by
  induction blocks generalizing w with
  | zero => exact .whole (.refl settled)
  | succ blocks ih =>
    rw [Nat.mul_succ, Nat.add_comm]
    exact (ends_bytes skipSize settled).bind (fun _ _ moved ↦ ih (moved.settled settled)) settled

theorem ends_skip (n : Nat) (settled : w.Settled) : Ends n w (skip n w) := by
  have all : Ends (skipSize * (n / skipSize) + (n % skipSize + 0)) w (skip n w) := by
    refine (ends_skipBlocks _ settled).bind (fun _ w' moved ↦ ?_) settled
    have settled' := moved.settled settled
    exact (ends_bytes _ settled').bind
      (fun _ _ last ↦ .whole (.refl (last.settled settled'))) settled'
  rwa [Nat.add_zero, Nat.div_add_mod] at all

/-- A skip is faithful that fails after it has consumed some of its bytes. -/
theorem Moved.faithful_skip {e : Error} (moved : Moved m w w') (few : m ≤ n)
    (h : Accounted data G w)
    (cause : ∀ G', Accounted data G' w' → Step.Cause G' w w' (.skip n) e) :
    (Step.skip n).Faithful data w (.error e) w' := by
  obtain ⟨G', now⟩ := h.moved moved
  refine ⟨G', now, .moved moved, moved.fails h.toSettled ?_ ?_ (cause G' now)⟩
  · exact fun other ↦ absurd rfl (other n)
  · intro count same
    cases same
    exact few

theorem faithful_skip (n : Nat) (h : Accounted data G w) :
    (Step.skip n).Faithful data w (outcome ((Step.skip n).perform w))
      (after ((Step.skip n).perform w)) := by
  have settled := h.toSettled
  have ends := ends_skip n settled
  generalize ran : skip n w = result at ends
  -- a success answers nothing, but it tells that all the bytes were there
  cases ends with
  | @whole _ w' moved =>
    obtain ⟨G', now⟩ := h.moved moved
    have all := now.length_eq
    have len : ((G'.drop w.totalRead).take n).length = n := by
      rw [moved.totalRead_eq] at all
      rw [List.length_take, List.length_drop]
      omega
    rw [Step.perform, Action.bind_of_ok ran]
    exact ⟨G', now, .moved moved, moved.succeeds settled rfl len (.skip len)⟩
  | @short m w' moved few ended =>
    rw [Step.perform, Action.bind_of_error ran]
    refine moved.faithful_skip (by omega) h fun G' now ↦ .short rfl ?_ ended
    have all := now.length_eq
    rw [moved.totalRead_eq] at all
    rw [List.length_take, List.length_drop]
    omega
  | denied moved few denied =>
    rw [Step.perform, Action.bind_of_error ran]
    exact moved.faithful_skip few h fun _ _ ↦ .denied denied

/-! ## Steps that look ahead -/

/-- A step that looks at the next bytes shows them and leaves them. -/
theorem faithful_look {answer : Bytes → Value} (asks : s.asked = some n)
    (amount : s.amount.getD 0 = 0) (spec : s.speculative)
    (perform : s.perform = do return answer (← peek n))
    (reads : ∀ order bs, s.Reads order bs (answer bs)) (h : Accounted data G w) :
    s.Faithful data w (outcome (s.perform w)) (after (s.perform w)) := by
  rw [perform]
  obtain ⟨taken, w', pulled, ⟨peeked, ready⟩ | ⟨peeked, denied⟩⟩ := peek_spec n h.pending_le
  · have now := h.pulled pulled
    have next := now.take_eq pulled.totalRead_eq n
    have effect := (pulled.moved h.toSettled).effect amount spec h.toSettled
    rw [Action.bind_of_ok peeked]
    refine ⟨_, now, .pulled pulled, effect, ?_, ?_⟩
    · intro m asks'
      cases asks.symm.trans asks'
      rw [next]
      exact reads w.order _
    · intro m asks' short
      cases asks.symm.trans asks'
      rw [next, List.length_take] at short
      exact ready.resolve_right (by omega)
  · rw [Action.bind_of_error peeked]
    exact pulled.faithful h (.denied denied)

/-! ## Steps that ask for nothing -/

/-- A step is faithful that asks for no bytes and has its effect. -/
theorem Step.Effect.faithful {v : Value} (effect : s.Effect w w') (asks : s.asked = none)
    (now : Accounted data G w') (same : w'.feed = w.feed) : s.Faithful data w (.ok v) w' := by
  refine ⟨G, now, .congr (.refl w) same, effect, ?_, ?_⟩
  · intro n asks'
    cases asks.symm.trans asks'
  · intro n asks'
    cases asks.symm.trans asks'

theorem effect_commit (w : Window) : Step.commit.Effect w w.commit where
  totalRead_add := rfl
  position_eq := by
    rw [if_pos (.inl rfl)]
    rfl
  order_eq := rfl
  autoCommit_eq := rfl

theorem effect_discard (count : Option Nat) (settled : (w.discard count).Settled) :
    (Step.discard count).Effect w (w.discard count) where
  totalRead_add := by
    change w.committed + (w.cursor - count.getD w.cursor) + min (count.getD w.cursor) w.cursor =
      w.committed + w.cursor
    omega
  position_eq := settled.position_eq_ite (fun same ↦ by cases same) fun _ ↦ rfl
  order_eq := rfl
  autoCommit_eq := rfl

theorem effect_setAutoCommit (on : Bool) (settled : (w.setAutoCommit on).Settled) :
    (Step.autoCommit on).Effect w (w.setAutoCommit on) where
  totalRead_add := by
    rw [setAutoCommit]
    split <;> rfl
  position_eq := by
    refine settled.position_eq_ite (fun same ↦ by cases same) fun off ↦ ?_
    cases (off : on = false)
    rfl
  order_eq := by
    rw [setAutoCommit]
    split <;> rfl
  autoCommit_eq := rfl

theorem effect_order (o : ByteOrder) (settled : w.Settled) :
    (Step.order o).Effect w { w with order := o } where
  totalRead_add := rfl
  position_eq := by
    have now : Settled { w with order := o } := ⟨settled.pending_le, settled.settled⟩
    exact now.position_eq_ite (fun same ↦ by cases same) fun _ ↦ rfl
  order_eq := rfl
  autoCommit_eq := rfl

/-! ## Every step -/

/-- Every step is faithful. -/
theorem faithful_perform (s : Step) (h : Accounted data G w) :
    s.Faithful data w (outcome (s.perform w)) (after (s.perform w)) := by
  have settled := h.toSettled
  cases s with
  | scalar k =>
    refine (consumes_perform_scalar k).faithful rfl ?_ (fun _ _ _ _ no ↦ by cases no) h
    intro order bs v len looked
    cases looked
    exact .scalar len
  | scalars k count =>
    by_cases fits : k.size * count < addressBound
    · refine (consumes_perform_scalars k fits).faithful rfl ?_ (fun _ _ _ _ no ↦ by cases no) h
      intro order bs v len looked
      cases looked
      rw [runs_eq_map]
      exact .scalars len
    · have many := Nat.le_of_not_lt fits
      rw [perform_scalars_of_le k many]
      exact (Pulled.refl w).faithful h (.unaddressed many)
  | bytes n =>
    refine (consumes_perform_bytes n).faithful rfl ?_ (fun _ _ _ _ no ↦ by cases no) h
    intro order bs v len looked
    cases looked
    exact .bytes len
  | magic k expected =>
    refine (consumes_perform_magic k expected).faithful rfl ?_ ?_ h
    · intro order bs v len looked
      split at looked
      · cases looked
        subst expected
        exact .magic len
      · cases looked
    · intro order bs e len looked
      split at looked
      · cases looked
      · cases looked
        exact .magic len ‹_›
  | skip n => exact faithful_skip n h
  | peek n => exact faithful_look rfl rfl rfl rfl (fun _ _ ↦ .peek) h
  | hasRemaining =>
    refine faithful_look rfl rfl rfl ?_ (fun _ _ ↦ .hasRemaining) h
    rw [Step.perform, hasRemaining, bind_assoc]
    simp only [pure_bind]
  | commit => exact (effect_commit w).faithful rfl h.commit rfl
  | discard count =>
    have now := h.discard count
    exact (effect_discard count now.toSettled).faithful rfl now rfl
  | autoCommit on =>
    have now := h.setAutoCommit on
    exact (effect_setAutoCommit on now.toSettled).faithful rfl now (feed_setAutoCommit on w)
  | order o => exact (effect_order o settled).faithful rfl { h with } rfl
  | limit | describe =>
    exact ((Moved.refl settled).effect rfl rfl settled).faithful rfl h rfl
  | fail => exact (Pulled.refl w).faithful h .fail

end Disasm.Window
