import Disasm.Index.Program
import Disasm.Proofs.Index.Retry
import Disasm.Proofs.Window.Likeness
import Disasm.Proofs.Window.Drawing
import Disasm.Proofs.Window.Steps

/-!
# How far lookups draw on the source

A lookup looks ahead twice at most, and what it then decodes it has read by then: it requests
as many bytes as the longest opcode has, and only where none stands a chunk with another
opcode behind it.  With this a whole program can be followed from visit to visit to the
source, along the records of its run.
-/

namespace Disasm

open Source (Ceasing)

namespace Window

variable {data G : Bytes} {n : Nat} {w w' : Window}

/-- Unread bytes stay unread while the window looks ahead. -/
theorem unread_ne_nil_of_peek {bs : Bytes} (there : w.unread ≠ []) (peeked : peek n w = .ok bs w') :
    w'.unread ≠ [] := by
  have inside : w.pending ≤ w.lookahead.length := by
    by_contra outside
    exact there (List.drop_of_length_le (Nat.le_of_not_le outside))
  obtain ⟨taken, w₁, pulled, ⟨ended, -⟩ | ⟨ended, -⟩⟩ := peek_spec n inside
  · cases peeked.symm.trans ended
    rw [pulled.unread_eq inside]
    exact List.append_ne_nil_of_left_ne_nil there taken
  · cases peeked.symm.trans ended

end Window

namespace Index

open Window (Accounted Course Program Record Visit after farthest outcome repliesOf)

variable {δ : Type} {ix : Index δ} {eager : Bool} {data G : Bytes} {w : Window}

/-! ## Lookups -/

/-- The numbers of bytes that a lookup requests: those of the longest opcode, and where no
opcode stands in front of the bytes, those of a chunk and an opcode behind it. -/
def requests (ix : Index δ) (eager : Bool) (w : Window) : List Nat :=
  max ix.maxOpcodeLength 1 ::
    match outcome (Window.peek (max ix.maxOpcodeLength 1) w) with
    | .ok front =>
      if front ≠ [] ∧ ix.match? eager front = none then
        [saturatingAdd ix.config.chunkSize ix.maxOpcodeLength]
      else []
    | .error _ => []

section Requests

variable {front : Bytes} {e : Error} {w₁ : Window}

theorem requests_of_refused
    (peeked : Window.peek (max ix.maxOpcodeLength 1) w = .error e w₁) :
    ix.requests eager w = [max ix.maxOpcodeLength 1] := by
  rw [requests, peeked]
  rfl

theorem requests_of_decided
    (peeked : Window.peek (max ix.maxOpcodeLength 1) w = .ok front w₁)
    (decided : front ≠ [] → ix.match? eager front ≠ none) :
    ix.requests eager w = [max ix.maxOpcodeLength 1] := by
  rw [requests, peeked]
  exact congrArg _ (if_neg fun open_ ↦ decided open_.1 open_.2)

theorem requests_of_unmatched
    (peeked : Window.peek (max ix.maxOpcodeLength 1) w = .ok front w₁) (nonempty : front ≠ [])
    (unmatched : ix.match? eager front = none) :
    ix.requests eager w =
      [max ix.maxOpcodeLength 1, saturatingAdd ix.config.chunkSize ix.maxOpcodeLength] := by
  rw [requests, peeked]
  exact congrArg _ (if_pos ⟨nonempty, unmatched⟩)

end Requests

/-- A lookup reads by looking ahead only. -/
theorem feed_lookup (ix : Index δ) (eager : Bool) (w : Window) :
    (after (ix.lookup eager w)).feed = (Window.ahead (ix.requests eager w) w).feed := by
  cases peeked : Window.peek (max ix.maxOpcodeLength 1) w with
  | error e w₁ =>
    rw [lookup_of_refused peeked, requests_of_refused peeked, Window.ahead, Window.ahead, peeked]
    rfl
  | ok front w₁ =>
    by_cases finished : front = []
    · subst finished
      rw [lookup_of_finished peeked, requests_of_decided peeked (absurd rfl), Window.ahead,
        Window.ahead, peeked]
      rfl
    · cases matched : ix.match? eager front with
      | some place =>
        obtain ⟨e, there, begins, -⟩ := match?_begins finished matched
        have unread : e.opcode.length ≤ w₁.unread.length := by
          have le := begins.length_le
          rw [Window.eq_take_of_peek peeked] at le
          exact Nat.le_trans le (List.length_take_le' _ _)
        rw [lookup_of_match peeked finished matched there (Window.bytes_of_le unread),
          requests_of_decided peeked (by simp [matched]), Window.ahead, Window.ahead, peeked]
        cases ix.load place with
        | ok d | error err => exact Window.feed_consume _ _
      | none =>
        rw [requests_of_unmatched peeked finished matched, Window.ahead, Window.ahead,
          Window.ahead, peeked, after]
        cases peeked' :
            Window.peek (saturatingAdd ix.config.chunkSize ix.maxOpcodeLength) w₁ with
        | error e w₂ =>
          rw [lookup_of_refused_again peeked finished matched peeked']
          rfl
        | ok bs w₂ =>
          have seen := Window.eq_take_of_peek peeked'
          have nonempty : w₂.unread ≠ [] := by
            refine Window.unread_ne_nil_of_peek (fun nothing ↦ finished ?_) peeked'
            rw [Window.eq_take_of_peek peeked, nothing, List.take_nil]
          have unread : ix.runLength eager (ix.config.chunkSize - 1) 1 bs.tail ≤
              w₂.unread.length := by
            subst seen
            exact Nat.le_trans (run_le_seen ix eager nonempty) (List.length_take_le' _ _)
          rw [lookup_of_unknown peeked finished matched peeked' (Window.bytes_of_le unread)]
          exact Window.feed_consume _ _

theorem accounted_lookup (ix : Index δ) (eager : Bool) (h : Accounted data G w) :
    ∃ G', Accounted data G' (after (ix.lookup eager w)) := by
  obtain ⟨n, moved⟩ := ix.moves_lookup eager w h.toSettled
  exact h.moved moved

/-! ## Visits -/

/-- The visit of a lookup. -/
def lookupVisit (ix : Index δ) (eager : Bool) (w : Window) : Visit where
  before := w
  requests := ix.requests eager w
  replies := Window.aheadReplies (ix.requests eager w) w
  after := after (ix.lookup eager w)

/-- The visits of a scan, one for each lookup. -/
def scanVisits (ix : Index δ) (eager : Bool) : (count : Nat) → Window → List Visit
  | 0, _ => []
  | count + 1, w =>
    ix.lookupVisit eager w ::
      match ix.lookup eager w with
      | .ok (some _) w' => ix.scanVisits eager count w'
      | _ => []

/-- The visits of a question. -/
def queryVisits (ix : Index δ) : Query → Window → List Visit
  | .lookup eager, w => [ix.lookupVisit (eager.getD ix.config.eager) w]
  | .scan eager, w => ix.scanVisits (eager.getD ix.config.eager) (reserve w + 1) w
  | .contains _, _ | .descriptor _, _ | .unknown _, _ => []

/-- The visits of a program at `w` to the source, in their order, along the records of its run.
Those inside a transaction are among them; what is done on a slice visits no source but the
bytes of the slice. -/
def visits (ix : Index δ) : Program Query → Window → List (Record (Report δ)) → List Visit
  | .step s rest, w, .step _ w' :: records =>
    ⟨w, [s.requested], s.replies w, w'⟩ :: ix.visits rest w' records
  | .transactional body rest, w, .transactional _ inner w' :: records =>
    ix.visits body w.enter inner ++ ix.visits rest w' records
  | .slice count _ rest, w, .slice _ _ w' :: records
  | .slice count _ rest, w, .step _ w' :: records =>
    ⟨w, [count], w.fillReplies count, w'⟩ :: ix.visits rest w' records
  | .extra q rest, w, .extra _ w' :: records => ix.queryVisits q w ++ ix.visits rest w' records
  | _, _, _ => []

@[simp] theorem visits_nil (ix : Index δ) (p : Program Query) (w : Window) :
    ix.visits p w [] = [] := by
  cases p <;> rfl

theorem course_lookup (ix : Index δ) (eager : Bool) (h : Accounted data G w) :
    Course [ix.lookupVisit eager w] w.feed (after (ix.lookup eager w)).feed := by
  refine .single ?_
  have drawn := Window.drawn_ahead (ix.requests eager w) h
  rwa [← feed_lookup] at drawn

theorem course_scanFor (ix : Index δ) (eager : Bool) (count : Nat) (h : Accounted data G w) :
    Course (ix.scanVisits eager count w) w.feed (ix.scanFor eager count w).window.feed ∧
      ∃ G', Accounted data G' (ix.scanFor eager count w).window := by
  induction count generalizing w G with
  | zero => exact ⟨.nil, G, h⟩
  | succ count ih =>
    have first := ix.course_lookup eager h
    obtain ⟨G', now⟩ := ix.accounted_lookup eager h
    rw [scanVisits, scanFor]
    cases looked : ix.lookup eager w with
    | error e w' =>
      rw [looked] at first now
      exact ⟨first, G', now⟩
    | ok found w' =>
      rw [looked] at first now
      cases found with
      | none => exact ⟨first, G', now⟩
      | some l =>
        obtain ⟨rest, last⟩ := ih now
        exact ⟨first.append rest, last⟩

theorem course_perform (ix : Index δ) (q : Query) (log : Log) (h : Accounted data G w) :
    Course (ix.queryVisits q w) w.feed (ix.perform q w log).2.1.feed ∧
      ∃ G', Accounted data G' (ix.perform q w log).2.1 := by
  cases q with
  | lookup eager =>
    have first := ix.course_lookup (eager.getD ix.config.eager) h
    obtain ⟨G', now⟩ := ix.accounted_lookup (eager.getD ix.config.eager) h
    rw [perform, queryVisits]
    cases looked : ix.lookup (eager.getD ix.config.eager) w with
    | ok found w' | error e w' =>
      rw [looked] at first now
      exact ⟨first, G', now⟩
  | scan eager => exact ix.course_scanFor (eager.getD ix.config.eager) (reserve w + 1) h
  | contains bytes =>
    rw [perform]
    split <;> exact ⟨.nil, G, h⟩
  | descriptor bytes =>
    rw [perform]
    split <;> exact ⟨.nil, G, h⟩
  | unknown bytes => exact ⟨.nil, G, h⟩

/-- A run goes from visit to visit. -/
theorem course_run (ix : Index δ) (p : Program Query) (halting : Bool) (log : Log)
    (h : Accounted data G w) :
    let run := p.run ix.perform halting w log
    Course (ix.visits p w run.records) w.feed run.window.feed ∧
      ∃ G', Accounted data G' run.window := by
  induction p generalizing halting log w G with
  | done => exact ⟨.nil, G, h⟩
  | step s rest ih =>
    have first := Course.request (Window.drawn_perform s h)
    obtain ⟨G', now, -⟩ := Window.faithful_perform s h
    rw [Program.run]
    cases performed : s.perform w with
    | ok v w' =>
      rw [performed] at first now
      obtain ⟨more, last⟩ := ih halting log now
      exact ⟨first.append more, last⟩
    | error e w' =>
      rw [performed] at first now
      obtain ⟨more, last⟩ := ih halting log now
      cases halting with
      | true =>
        -- the failure ends the run, and there are no records after it
        simp only [if_true, visits, visits_nil]
        exact ⟨first, G', now⟩
      | false => exact ⟨first.append more, last⟩
  | transactional body rest ihBody ihRest =>
    obtain ⟨inside, G₁, end₁⟩ := ihBody true log h.enter
    rw [Program.run]
    generalize body.run ix.perform true w.enter log = inner at inside end₁
    have now := end₁.toReceived.leave w inner.failure.isSome
    -- to go back moves the cursor only, what was read stays read
    have back := Window.feed_leave w inner.window inner.failure.isSome
    obtain ⟨more, last⟩ := ihRest halting inner.state now
    dsimp only
    rw [back] at more
    split
    · simp only [visits, visits_nil, List.append_nil]
      exact ⟨back ▸ inside, G₁, now⟩
    · exact ⟨inside.append more, last⟩
  | slice count body rest ihBody ihRest =>
    have first := Course.request ((Window.fetches_slice count).drawn h)
    obtain ⟨G', now, -⟩ := (Window.consumes_slice count).spec h
    rw [Program.run]
    cases sliced : Window.slice count w with
    | ok part w' =>
      rw [sliced] at first now
      obtain ⟨more, last⟩ := ihRest halting (body.run ix.perform false part log).state now
      exact ⟨first.append more, last⟩
    | error e w' =>
      rw [sliced] at first now
      obtain ⟨more, last⟩ := ihRest halting log now
      cases halting with
      | true =>
        simp only [if_true, visits, visits_nil]
        exact ⟨first, G', now⟩
      | false => exact ⟨first.append more, last⟩
  | extra q rest ih =>
    obtain ⟨first, G', now⟩ := ix.course_perform q log h
    rw [Program.run]
    generalize ix.perform q w log = answered at first now
    obtain ⟨answer, w', log'⟩ := answered
    obtain ⟨more, last⟩ := ih halting log' now
    dsimp only
    split
    · simp only [visits, visits_nil, List.append_nil]
      exact ⟨first, G', now⟩
    · exact ⟨first.append more, last⟩

/-- A source is never read further than asked.  Whatever a program does over a fresh source:
after each visit the source has delivered no more than the farthest visit until then has
reached, and no more than the limit; the replies of the visits are all that were given, and
none was given after an empty one.  A slice has a fresh window of its own, so the same holds of
what is done there. -/
theorem run_never_overreads (ix : Index δ) (data : Bytes) (plan : List PlannedRead)
    (order : ByteOrder) (limit : Option Nat) (p : Program Query) (log : Log) :
    let w : Window := { source := { data, plan }, order, limit }
    let run := p.run ix.perform false w log
    let visits := ix.visits p w run.records
    (∀ i v, visits[i]? = some v →
      v.after.source.delivered ≤ farthest (visits.take (i + 1)) ∧
        ∀ bound, limit = some bound → v.after.source.delivered ≤ bound) ∧
      Source.Reads w.source (repliesOf visits) run.window.source ∧ Ceasing (repliesOf visits) := by
  intro w run visits
  obtain ⟨course, -⟩ := ix.course_run p false log (Window.accounted_fresh data plan order limit)
  have whole := course.drawn
  refine ⟨fun i v there ↦ ?_, whole.reads, whole.ceasing⟩
  have drawn := (course.upTo there).drawn
  refine ⟨?_, fun bound bounded ↦ drawn.within bound bounded (Nat.zero_le bound)⟩
  exact drawn.delivered_le.trans_eq (Nat.zero_max _)

/-- A lookup behind a transaction that went back finds its bytes read: three bytes are all
that the source has delivered by then, and so far the transaction had reached. -/
theorem run_never_overreads_after_failure :
    let file : File :=
      ⟨[0x4F, 0x50, 0x49, 0x58, 1, 0, 0, 0, 2, 0, 2, 0, 1, 0x90, 0, 0, 0xAA], by decide⟩
    let ix : Index Bytes := ⟨.raw, file, ⟨1, 2, 2⟩, [⟨⟨[0x90], by decide⟩, 0⟩], {}⟩
    let w : Window :=
      { source := { data := [0x90, 1, 2, 3, 4, 5], plan := [.deliver 1, .interrupt, .deliver 2] }
        limit := some 5 }
    let p : Program Query :=
      .transactional (.step (.bytes 3) (.step .fail .done)) (.extra (.lookup none) .done)
    let visits := ix.visits p w (p.run ix.perform false w []).records
    ∃ v, visits[2]? = some v ∧ v.before.totalRead = 0 ∧ v.requests = [1] ∧
      v.after.source.delivered ≤ farthest (visits.take 3) ∧ farthest (visits.take 3) = 3 ∧
      v.after.source.delivered ≤ 5 := by
  intro file ix w p visits
  have third : visits[2]?.map (fun v ↦ (v.before.totalRead, v.requests)) = some (0, [1]) := by
    simp only [visits, p, w, ix, file]
    cbv
  have reach : farthest (visits.take 3) = 3 := by
    simp only [visits, p, w, ix, file]
    cbv
  obtain ⟨v, there, same⟩ := Option.map_eq_some_iff.1 third
  obtain ⟨place, asked⟩ := Prod.mk.inj same
  obtain ⟨bounds, -, -⟩ := ix.run_never_overreads [0x90, 1, 2, 3, 4, 5]
    [.deliver 1, .interrupt, .deliver 2] .little (some 5) p []
  obtain ⟨reached, limited⟩ := bounds 2 v there
  exact ⟨v, there, place, asked, reached, reach, limited 5 rfl⟩

end Index

end Disasm
