import Disasm.Proofs.Bytes.Reads
import Disasm.Proofs.Window.Delivery

/-!
# How far a window draws on its source

A source goes only forward, and whoever holds it may go on with what a window has not read:
bytes that are read too early are lost to him.  A window asks its source for no more bytes
than are missing to what a step requests, and what is missing shrinks with what was read
ahead.  So the source has never delivered more than the farthest request reached, counted
from where its step stood, however the cursor was moved back and forth between.

`Drawn` says this of one stretch of reading, together with the replies of the source, its
limit and its end; it is closed under going on.  `Course` strings such stretches together, one
for each visit to the source.
-/

namespace Disasm.Window

open Source (Reply Reads Ceasing)

variable {α β : Type} {data G : Bytes} {w : Window} {m n : Nat}

/-! ## Feeds -/

/-- What reading from the source depends on and changes, beside the look-ahead. -/
structure Feed where
  source : Source
  limit : Option Nat
  exhausted : Bool

/-- The feed of a window. -/
def feed (w : Window) : Feed := ⟨w.source, w.limit, w.exhausted⟩

@[simp] theorem feed_settle (w : Window) : w.settle.feed = w.feed := by
  rw [settle]
  split <;> rfl

@[simp] theorem feed_consume (n : Nat) (w : Window) : (w.consume n).feed = w.feed :=
  feed_settle _

@[simp] theorem feed_leave (before w : Window) (failed : Bool) :
    (leave before failed w).feed = w.feed :=
  feed_settle _

theorem feed_setAutoCommit (on : Bool) (w : Window) : (w.setAutoCommit on).feed = w.feed := by
  rw [setAutoCommit]
  split <;> rfl

/-- From one feed to another the source gave `replies` and was not read beyond its first
`reach` bytes, nor beyond those that it had delivered before. -/
structure Drawn (reach : Nat) (replies : List Reply) (f f' : Feed) : Prop where
  limit_eq : f'.limit = f.limit
  reads : Reads f.source replies f'.source
  delivered_le : f'.source.delivered ≤ max f.source.delivered reach
  /-- The limit is kept. -/
  within : ∀ bound, f.limit = some bound → f.source.delivered ≤ bound →
    f'.source.delivered ≤ bound
  /-- A source that has ended is left alone. -/
  quiet : f.exhausted = true → replies = [] ∧ f'.exhausted = true
  ceasing : Ceasing replies
  /-- An empty read is taken for the end. -/
  ended : .delivered [] ∈ replies → f'.exhausted = true

namespace Drawn

variable {replies replies' : List Reply} {f f' f'' : Feed}

theorem refl (reach : Nat) (f : Feed) : Drawn reach [] f f where
  limit_eq := rfl
  reads := .nil
  delivered_le := Nat.le_max_left _ _
  within _ _ le := le
  quiet ended := ⟨rfl, ended⟩
  ceasing := .nil
  ended := nofun

theorem mono (h : Drawn m replies f f') (le : m ≤ n) : Drawn n replies f f' :=
  { h with delivered_le := Nat.le_trans h.delivered_le (max_le_max_left _ le) }

theorem trans (h : Drawn m replies f f') (h' : Drawn n replies' f' f'') :
    Drawn (max m n) (replies ++ replies') f f'' where
  limit_eq := h'.limit_eq.trans h.limit_eq
  reads := h.reads.append h'.reads
  delivered_le := by
    have first := h.delivered_le
    have second := h'.delivered_le
    omega
  within bound limit le := h'.within bound (h.limit_eq.trans limit) (h.within bound limit le)
  quiet ended := by
    obtain ⟨rfl, ended'⟩ := h.quiet ended
    exact h'.quiet ended'
  ceasing := h.ceasing.append h'.ceasing fun given ↦ (h'.quiet (h.ended given)).1
  ended given := by
    rcases List.mem_append.1 given with first | second
    · exact (h'.quiet (h.ended first)).2
    · exact h'.ended second

end Drawn

/-! ## Filling -/

/-- The replies of the source while the window is filled. -/
def fillReplies (wanted : Nat) (w : Window) : List Reply :=
  if w.exhausted then []
  else (w.source.exchange (wanted - w.unread.length) w.room).replies

/-- Where the source has not ended, filling is an exchange for what is missing. -/
theorem feed_fill (wanted : Nat) (going : w.exhausted = false) :
    let e := w.source.exchange (wanted - w.unread.length) w.room
    (after (fill wanted w)).feed = ⟨e.source, w.limit, decide (e.ending = .exhausted)⟩ := by
  by_cases enough : wanted - w.unread.length = 0
  · rw [fill_of_idle (.inr enough), enough, Source.exchange, if_pos rfl]
    exact congrArg (Feed.mk w.source w.limit) going
  · have missing : ¬(w.exhausted = true ∨ wanted - w.unread.length = 0) := by
      rw [going]
      exact not_or.2 ⟨Bool.false_ne_true, enough⟩
    rw [fill, missing_eq]
    simp only [if_neg missing, Source.request_eq_exchange]
    cases (w.source.exchange (wanted - w.unread.length) w.room).ending with
    | enough => exact congrArg (Feed.mk _ w.limit) going
    | exhausted => rfl
    | denied => exact congrArg (Feed.mk _ w.limit) going

/-- What is missing is counted from the end of what was delivered. -/
theorem delivered_add_missing (h : Accounted data G w) (wanted : Nat) :
    w.source.delivered + (wanted - w.unread.length) =
      max w.source.delivered (w.totalRead + wanted) := by
  have unread := congrArg List.length h.unread_eq
  have total := h.totalRead_le
  rw [List.length_drop] at unread
  rw [h.delivered]
  omega

theorem drawn_fill (wanted : Nat) (h : Accounted data G w) :
    Drawn (w.totalRead + wanted) (w.fillReplies wanted) w.feed (after (fill wanted w)).feed := by
  cases stopped : w.exhausted with
  | true =>
    rw [fill_of_idle (.inl stopped), fillReplies, if_pos stopped]
    exact .refl _ _
  | false =>
    have most := Source.delivered_exchange_le w.source (wanted - w.unread.length) w.room
    rw [fillReplies, stopped, if_neg Bool.false_ne_true, feed_fill wanted stopped]
    exact
      { limit_eq := rfl
        reads := Source.reads_exchange ..
        delivered_le := by
          change _ ≤ max w.source.delivered _
          rw [← delivered_add_missing h]
          exact Nat.le_trans most (Nat.add_le_add_left (Source.within_le ..) _)
        within := by
          intro bound limit le
          change w.limit = some bound at limit
          change w.source.delivered ≤ bound at le
          have free : Source.within w.room (wanted - w.unread.length) ≤
              bound - w.source.delivered := by
            rw [room, limit]
            exact Nat.min_le_right _ _
          change (w.source.exchange _ _).source.delivered ≤ bound
          omega
        quiet := fun ended ↦ Bool.noConfusion (stopped.symm.trans ended)
        ceasing := Source.ceasing_exchange ..
        ended := fun given ↦ decide_eq_true (Source.exchange_of_empty given) }

/-! ## Actions that fill once -/

/-- The action leaves the source alone. -/
def Idle (action : Action α) : Prop := ∀ w, (after (action w)).feed = w.feed

/-- The action reads from the source only to have `n` bytes unread. -/
def Fetches (n : Nat) (action : Action α) : Prop :=
  ∀ w, (after (action w)).feed = (after (fill n w)).feed

theorem Idle.pure (a : α) : Idle (Pure.pure a) := fun _ ↦ rfl

theorem Idle.fetches {action : Action α} (idle : Idle action) : Fetches 0 action := by
  intro w
  rw [fill_of_le (Nat.zero_le _)]
  exact idle w

/-- What follows does not read. -/
theorem feed_bind {x : Action α} {f : α → Action β} (rest : ∀ a, Idle (f a)) (w : Window) :
    (after ((x >>= f) w)).feed = (after (x w)).feed := by
  cases ran : x w with
  | error e w' =>
    rw [Action.bind_of_error ran]
    rfl
  | ok a w' =>
    rw [Action.bind_of_ok ran]
    exact rest a w'

theorem Fetches.bind {x : Action α} {f : α → Action β} (first : Fetches n x)
    (rest : ∀ a, Idle (f a)) : Fetches n (x >>= f) :=
  fun w ↦ (feed_bind rest w).trans (first w)

theorem fetches_peek (n : Nat) : Fetches n (peek n) :=
  Fetches.bind (fun _ ↦ rfl) fun _ _ ↦ rfl

theorem fetches_take (n : Nat) : Fetches n (take n) := by
  refine (fetches_peek n).bind fun bs w ↦ ?_
  by_cases short : bs.length < n
  · rw [if_pos short]
    rfl
  · rw [if_neg short]
    rfl

theorem fetches_bytes (n : Nat) : Fetches n (bytes n) :=
  (fetches_take n).bind fun _ w ↦ feed_settle w

theorem fetches_magic (k : Scalar) (expected : Nat) : Fetches k.size (magic k expected) := by
  refine (fetches_take k.size).bind fun bs w ↦ ?_
  refine (congrArg (fun r ↦ (after r).feed) (Action.bind_of_ok rfl)).trans ?_
  dsimp only
  -- a scalar that is not the expected one moves the cursor back, and reads nothing
  by_cases other : w.order.value bs ≠ expected
  · rw [if_pos other]
    rfl
  · rw [if_neg other]
    exact feed_settle w

theorem fetches_scalar (k : Scalar) : Fetches k.size (scalar k) :=
  (fetches_bytes k.size).bind fun _ _ ↦ rfl

theorem fetches_slice (n : Nat) : Fetches n (slice n) :=
  (fetches_bytes n).bind fun _ _ ↦ rfl

theorem fetches_scalars (k : Scalar) (count : Nat) :
    Fetches (if addressBound ≤ k.size * count then 0 else k.size * count) (scalars k count) := by
  rw [scalars]
  split
  · exact Idle.fetches fun _ ↦ rfl
  · exact (fetches_bytes (k.size * count)).bind fun _ _ ↦ rfl

theorem fetches_hasRemaining : Fetches 1 hasRemaining := (fetches_peek 1).bind fun _ ↦ .pure _

/-! ## Steps -/

/-- The number of bytes that a step requests. -/
def Step.requested : Step → Nat
  | scalar k | magic k _ => k.size
  | scalars k count => if addressBound ≤ k.size * count then 0 else k.size * count
  | bytes n | skip n | peek n => n
  | hasRemaining => 1
  | _ => 0

/-- The replies of the source while blocks are skipped, and then the bytes that are left. -/
def skipReplies : (blocks rest : Nat) → Window → List Reply
  | 0, rest, w => w.fillReplies rest
  | blocks + 1, rest, w =>
    w.fillReplies skipSize ++
      match bytes skipSize w with
      | .ok _ w' => skipReplies blocks rest w'
      | .error _ _ => []

/-- The replies of the source to a step. -/
def Step.replies (s : Step) (w : Window) : List Reply :=
  match s with
  | skip n => skipReplies (n / skipSize) (n % skipSize) w
  | s => w.fillReplies s.requested

/-- All steps but a skip fill the window once. -/
theorem fetches_perform (s : Step) (whole : ∀ n, s ≠ .skip n) : Fetches s.requested s.perform := by
  cases s with
  | scalar k => exact (fetches_scalar k).bind fun _ ↦ .pure _
  | scalars k count => exact (fetches_scalars k count).bind fun _ ↦ .pure _
  | bytes n => exact (fetches_bytes n).bind fun _ ↦ .pure _
  | magic k expected => exact (fetches_magic k expected).bind fun _ ↦ .pure _
  | skip n => exact absurd rfl (whole n)
  | peek n => exact (fetches_peek n).bind fun _ ↦ .pure _
  | hasRemaining => exact fetches_hasRemaining.bind fun _ ↦ .pure _
  | commit => exact Idle.fetches fun _ ↦ rfl
  | discard count => exact Idle.fetches fun _ ↦ rfl
  | autoCommit on => exact Idle.fetches fun w ↦ feed_setAutoCommit on w
  | order o => exact Idle.fetches fun _ ↦ rfl
  | limit | describe | fail => exact Idle.fetches fun _ ↦ rfl

theorem Fetches.drawn {action : Action α} (fetches : Fetches n action) (h : Accounted data G w) :
    Drawn (w.totalRead + n) (w.fillReplies n) w.feed (after (action w)).feed :=
  fetches w ▸ drawn_fill n h

/-- Each block is requested from where the last one ended. -/
theorem drawn_skipBlocks (blocks rest : Nat) (h : Accounted data G w) :
    Drawn (w.totalRead + (skipSize * blocks + rest)) (skipReplies blocks rest w) w.feed
      (after ((do skipBlocks blocks; let _ ← bytes rest) w)).feed := by
  induction blocks generalizing w G with
  | zero =>
    have fetches := (fetches_bytes rest).bind fun _ ↦ .pure ()
    rw [Nat.mul_zero, Nat.zero_add]
    exact fetches.drawn h
  | succ blocks ih =>
    have first := (fetches_bytes skipSize).drawn h
    obtain ⟨G', now, told⟩ := (consumes_bytes skipSize).spec h
    rw [skipBlocks, skipReplies, bind_assoc]
    cases block : bytes skipSize w with
    | error e w' =>
      rw [block] at first
      rw [Action.bind_of_error block, List.append_nil]
      refine first.mono ?_
      rw [Nat.mul_succ]
      omega
    | ok bs w' =>
      rw [block] at first now told
      have total : w'.totalRead = w.totalRead + skipSize := told.2.2
      rw [Action.bind_of_ok block]
      refine (first.trans (ih now)).mono ?_
      rw [after, total, Nat.mul_succ]
      omega

/-- A step draws on the source for what it requests. -/
theorem drawn_perform (s : Step) (h : Accounted data G w) :
    Drawn (w.totalRead + s.requested) (s.replies w) w.feed (after (s.perform w)).feed := by
  cases s with
  | skip n =>
    have drawn := drawn_skipBlocks (n / skipSize) (n % skipSize) h
    rw [Nat.div_add_mod] at drawn
    rw [Step.perform, feed_bind fun _ ↦ .pure _]
    exact drawn
  | _ =>
    refine (fetches_perform _ ?_).drawn h
    rintro n ⟨⟩

/-! ## Requests at one place -/

/-- The window after looks ahead from one place. -/
def ahead : List Nat → Window → Window
  | [], w => w
  | n :: requests, w => ahead requests (after (peek n w))

/-- The replies of the source to looks ahead from one place. -/
def aheadReplies : List Nat → Window → List Reply
  | [], _ => []
  | n :: requests, w => w.fillReplies n ++ aheadReplies requests (after (peek n w))

/-- Looks ahead from one place draw on the source for the largest request. -/
theorem drawn_ahead (requests : List Nat) (h : Accounted data G w) :
    Drawn (w.totalRead + requests.foldr max 0) (aheadReplies requests w) w.feed
      (ahead requests w).feed := by
  induction requests generalizing w G with
  | nil => exact .refl _ _
  | cons n requests ih =>
    have first := (fetches_peek n).drawn h
    obtain ⟨G', now, place⟩ : ∃ G', Accounted data G' (after (peek n w)) ∧
        (after (peek n w)).totalRead = w.totalRead := by
      obtain ⟨taken, w', pulled, ⟨peeked, -⟩ | ⟨peeked, -⟩⟩ := peek_spec n h.pending_le
      · rw [peeked]
        exact ⟨_, h.pulled pulled, pulled.totalRead_eq⟩
      · rw [peeked]
        exact ⟨_, h.pulled pulled, pulled.totalRead_eq⟩
    refine (first.trans (ih now)).mono ?_
    rw [place, Nat.add_max_add_left, List.foldr_cons]

/-! ## Visits -/

/-- A visit to the source: the window before it, the numbers of bytes that are requested
there, the replies of the source, and the window after it. -/
structure Visit where
  before : Window
  requests : List Nat
  replies : List Reply
  after : Window

/-- How far a visit reaches: to the end of its largest request. -/
def Visit.reach (v : Visit) : Nat := v.before.totalRead + v.requests.foldr max 0

/-- How far the farthest of some visits reaches. -/
def farthest : List Visit → Nat
  | [] => 0
  | v :: visits => max v.reach (farthest visits)

/-- All replies of the source to some visits. -/
def repliesOf (visits : List Visit) : List Reply := visits.flatMap Visit.replies

/-- From one feed to another the source was visited as told. -/
inductive Course : List Visit → Feed → Feed → Prop
  | nil {f : Feed} : Course [] f f
  | cons {v : Visit} {visits : List Visit} {f f' : Feed} :
      Drawn v.reach v.replies f v.after.feed → Course visits v.after.feed f' →
      Course (v :: visits) f f'

namespace Course

variable {v : Visit} {visits visits' : List Visit} {f f' f'' : Feed}

theorem append (first : Course visits f f') (second : Course visits' f' f'') :
    Course (visits ++ visits') f f'' := by
  induction first with
  | nil => exact second
  | cons drawn _ ih => exact .cons drawn (ih second)

theorem single (drawn : Drawn v.reach v.replies f v.after.feed) : Course [v] f v.after.feed :=
  .cons drawn .nil

/-- A visit with one request. -/
theorem request {replies : List Reply} {w' : Window}
    (drawn : Drawn (w.totalRead + n) replies w.feed w'.feed) :
    Course [⟨w, [n], replies, w'⟩] w.feed w'.feed :=
  .single (drawn.mono (Nat.add_le_add_left (Nat.le_max_left n 0) _))

theorem drawn (h : Course visits f f') : Drawn (farthest visits) (repliesOf visits) f f' := by
  induction h with
  | nil => exact .refl 0 _
  | cons first _ ih => exact first.trans ih

/-- The visits up to one of them. -/
theorem upTo (h : Course visits f f') {i : Nat} (there : visits[i]? = some v) :
    Course (visits.take (i + 1)) f v.after.feed := by
  induction h generalizing i with
  | nil => cases there
  | cons first rest ih =>
    cases i with
    | zero =>
      cases there
      exact .single first
    | succ i => exact .cons first (ih there)

end Course

end Disasm.Window
