import Disasm.Proofs.Index.Progress

/-!
# Lookups over a source that fails

A source may refuse to be read in the middle of a look ahead, and so in the middle of a
lookup.  What it had delivered by then is in the window, and nothing was consumed, for a
lookup consumes only what it has seen.  So the next lookup begins where the last one did and
sees the same bytes, and one that is not refused anything does what it would have
done on the tape: the failures of a source can be dropped from what lookups answer.
-/

namespace Disasm

/-! ## Refused reads -/

/-- A refusal uses up a planned read. -/
theorem Source.plan_lt_of_denied {plan : List PlannedRead} {missing : Nat} {room : Option Nat}
    {data : Bytes} (denied : (pull plan missing room data).ending = .denied) :
    (pull plan missing room data).plan.length < plan.length := by
  fun_induction pull plan missing room data with
  | case1 missing room data count taken =>
    dsimp only at denied
    split at denied <;> cases denied
  | case2 | case3 | case6 => cases denied
  | case4 missing room data plan _ _ ih => exact Nat.lt_succ_of_lt (ih denied)
  | case5 => exact Nat.lt_succ_self _
  | case7 plan missing room data _ _ n count _ got next ih => exact Nat.lt_succ_of_lt (ih denied)

namespace Window

/-- The reads that are planned. -/
def planned (w : Window) : Nat := w.source.plan.length

theorem planned_lt_of_fill {wanted : Nat} {w w' : Window} {e : Error}
    (failed : fill wanted w = .error e w') : w'.planned < w.planned := by
  by_cases idle : w.exhausted = true ∨ wanted - w.unread.length = 0
  · rw [fill, missing_eq] at failed
    dsimp only at failed
    rw [if_pos idle] at failed
    cases failed
  · rw [fill_of_missing idle] at failed
    split at failed
    · cases failed
    · cases failed
    next denied =>
      cases failed
      exact Source.plan_lt_of_denied denied

theorem planned_lt_of_peek {n : Nat} {w w' : Window} {e : Error}
    (failed : peek n w = .error e w') : w'.planned < w.planned := by
  cases filled : fill n w with
  | ok u w₁ =>
    rw [peek, Action.bind_of_ok filled] at failed
    cases failed
  | error e' w₁ =>
    rw [peek, Action.bind_of_error filled] at failed
    cases failed
    exact planned_lt_of_fill filled

/-- How a look ahead by `n` bytes may end over a steady source: it shows the bytes to come, or
the source refuses to be read. -/
inductive Peeked (n : Nat) (w : Window) : EStateM.Result Error Window Bytes → Prop
  | seen {taken : Bytes} {w' : Window} : Pulled taken w w' →
      (w'.exhausted = true ∨ n ≤ w'.unread.length) →
      Peeked n w (.ok (w.remaining.take n) w')
  | refused {taken : Bytes} {w' : Window} : Pulled taken w w' → .deny ∈ w.source.plan →
      w'.planned < w.planned → Peeked n w (.error .readDenied w')

theorem peeked_peek (n : Nat) {w : Window} (inside : w.pending ≤ w.lookahead.length)
    (steady : w.source.Steady) : Peeked n w (peek n w) := by
  obtain ⟨taken, w', pulled, ⟨peeked, ready⟩ | ⟨peeked, denied⟩⟩ := peek_spec n inside
  · rw [peeked, ← take_remaining ready, pulled.remaining_eq inside steady]
    exact .seen pulled ready
  · rw [peeked]
    exact .refused pulled denied (planned_lt_of_peek peeked)

theorem Tape.totalRead_consume {n : Nat} {t : Tape} (there : n ≤ t.remaining.length) :
    (t.consume n).place.totalRead = t.place.totalRead + n := by
  have taken : (t.remaining.take n).length = n := List.length_take_of_le there
  rw [consume, settle]
  split <;> simp only [advance, commit, place, List.length_append, List.length_nil, taken] <;> omega

/-- Consuming bytes that were read ahead shows on the tape. -/
theorem Pulled.consume_seen {taken : Bytes} {n : Nat} {w w' : Window} (pulled : Pulled taken w w')
    (settled : w.Settled) (steady : w.source.Steady) (unread : n ≤ w'.unread.length) :
    w'.unread.take n = w.remaining.take n ∧ (w'.consume n).tape = w.tape.consume n ∧
      Moved n w (w'.consume n) := by
  refine ⟨?_, ?_, taken, w', pulled, unread, rfl⟩
  · rw [← pulled.remaining_eq settled.pending_le steady, take_remaining (.inr unread)]
  · rw [tape_consume (pulled.pending_le settled.pending_le) unread,
      tape_pulled_of_steady settled.pending_le steady pulled]

end Window

namespace Index

open Window (Moved Peeked Pulled Tape after outcome)

variable {δ : Type} {ix : Index δ} {eager : Bool}

/-! ## Lookups on the tape -/

/-- The lookup where all bytes are at hand. -/
def onTape (ix : Index δ) (eager : Bool) (t : Tape) :
    Except Error (Option (Lookup δ)) × Tape :=
  let front := t.remaining.take (max ix.maxOpcodeLength 1)
  if front.isEmpty then (.ok none, t)
  else
    match ix.match? eager front with
    | some place =>
      let length := (ix.entries[place]?.map (·.opcode.length)).getD 0
      ((ix.load place).map fun d ↦
        some ⟨t.place.totalRead, t.remaining.take length, true, d⟩, t.consume length)
    | none =>
      let chunk := ix.config.chunkSize
      let ahead := t.remaining.take (saturatingAdd chunk ix.maxOpcodeLength)
      let bytes := t.remaining.take (ix.runLength eager (chunk - 1) 1 ahead.tail)
      (.ok (some ⟨t.place.totalRead, bytes, false, ix.factory.unknown bytes⟩),
        t.consume (ix.runLength eager (chunk - 1) 1 ahead.tail))

section OnTape

variable {t : Tape} {place : Nat}

theorem onTape_of_finished (finished : t.remaining.take (max ix.maxOpcodeLength 1) = []) :
    ix.onTape eager t = (.ok none, t) :=
  if_pos (List.isEmpty_iff.2 finished)

theorem onTape_of_match {e : Entry} (nonempty : t.remaining.take (max ix.maxOpcodeLength 1) ≠ [])
    (matched : ix.match? eager (t.remaining.take (max ix.maxOpcodeLength 1)) = some place)
    (there : ix.entries[place]? = some e) :
    ix.onTape eager t =
      ((ix.load place).map fun d ↦
        some ⟨t.place.totalRead, t.remaining.take e.opcode.length, true, d⟩,
        t.consume e.opcode.length) := by
  refine (if_neg (mt List.isEmpty_iff.1 nonempty)).trans ?_
  rw [matched]
  dsimp only
  rw [there]
  rfl

theorem onTape_of_unknown {ahead : Bytes} {r : Nat}
    (nonempty : t.remaining.take (max ix.maxOpcodeLength 1) ≠ [])
    (unmatched : ix.match? eager (t.remaining.take (max ix.maxOpcodeLength 1)) = none)
    (seen : ahead = t.remaining.take (saturatingAdd ix.config.chunkSize ix.maxOpcodeLength))
    (ends : r = ix.runLength eager (ix.config.chunkSize - 1) 1 ahead.tail) :
    ix.onTape eager t =
      (.ok (some ⟨t.place.totalRead, t.remaining.take r, false,
        ix.factory.unknown (t.remaining.take r)⟩), t.consume r) := by
  subst seen ends
  refine (if_neg (mt List.isEmpty_iff.1 nonempty)).trans ?_
  rw [unmatched]

end OnTape

/-- An unknown run is no longer than what is seen of the bytes to tell its end. -/
theorem run_le_seen (ix : Index δ) (eager : Bool) {bs : Bytes} (nonempty : bs ≠ []) :
    ix.runLength eager (ix.config.chunkSize - 1) 1
        (bs.take (saturatingAdd ix.config.chunkSize ix.maxOpcodeLength)).tail ≤
      (bs.take (saturatingAdd ix.config.chunkSize ix.maxOpcodeLength)).length := by
  have le := ix.runLength_le eager (ix.config.chunkSize - 1) 1
    (bs.take (saturatingAdd ix.config.chunkSize ix.maxOpcodeLength)).tail
  have some : 1 ≤ (bs.take (saturatingAdd ix.config.chunkSize ix.maxOpcodeLength)).length := by
    have chunk := ix.config.one_le_chunkSize
    have bound : 1 ≤ addressBound - 1 := by decide
    have := List.length_pos_iff.2 nonempty
    rw [List.length_take, saturatingAdd]
    omega
  rw [List.length_tail] at le
  omega

theorem lookup_of_refused {w w₁ : Window} {e : Error}
    (peeked : Window.peek (max ix.maxOpcodeLength 1) w = .error e w₁) :
    ix.lookup eager w = .error e w₁ :=
  (Action.bind_of_ok rfl).trans (Action.bind_of_error peeked)

theorem lookup_of_refused_again {w w₁ w₂ : Window} {front : Bytes} {e : Error}
    (peeked : Window.peek (max ix.maxOpcodeLength 1) w = .ok front w₁) (nonempty : front ≠ [])
    (unmatched : ix.match? eager front = none)
    (peeked' : Window.peek (saturatingAdd ix.config.chunkSize ix.maxOpcodeLength) w₁ =
      .error e w₂) :
    ix.lookup eager w = .error e w₂ := by
  refine (Action.bind_of_ok rfl).trans ((Action.bind_of_ok peeked).trans ?_)
  rw [if_neg (mt List.isEmpty_iff.1 nonempty), unmatched]
  exact Action.bind_of_error peeked'

/-- How a lookup may end over a steady source: it was refused a read and has consumed
nothing, or it has done what it does on the tape. -/
inductive Attempt (ix : Index δ) (eager : Bool) (w : Window) :
    EStateM.Result Error Window (Option (Lookup δ)) → Prop
  | refused {taken : Bytes} {w' : Window} : Pulled taken w w' → .deny ∈ w.source.plan →
      w'.planned < w.planned → Attempt ix eager w (.error .readDenied w')
  | done {n : Nat} {result : EStateM.Result Error Window (Option (Lookup δ))} :
      Moved n w (after result) → outcome result = (ix.onTape eager w.tape).1 →
      (after result).tape = (ix.onTape eager w.tape).2 → Attempt ix eager w result

section Attempts

/-! A lookup that has seen the bytes to come, as many as the longest opcode has, stands at
`w₁`. -/

variable {taken : Bytes} {w w₁ : Window} (settled : w.Settled) (steady : w.source.Steady)
  (pulled : Pulled taken w w₁)
  (peeked : Window.peek (max ix.maxOpcodeLength 1) w =
    .ok (w.remaining.take (max ix.maxOpcodeLength 1)) w₁)

include settled steady pulled peeked

theorem attempt_of_finished
    (finished : w.remaining.take (max ix.maxOpcodeLength 1) = []) :
    ix.Attempt eager w (ix.lookup eager w) := by
  have looked : ix.onTape eager w.tape = (.ok none, w.tape) := onTape_of_finished finished
  rw [finished] at peeked
  rw [lookup_of_finished peeked]
  refine .done (pulled.moved settled) ?_ ?_
  · rw [looked]
    rfl
  · rw [looked]
    exact Window.tape_pulled_of_steady settled.pending_le steady pulled

theorem attempt_of_match {place : Nat}
    (ready : w₁.exhausted = true ∨ max ix.maxOpcodeLength 1 ≤ w₁.unread.length)
    (nonempty : w.remaining.take (max ix.maxOpcodeLength 1) ≠ [])
    (matched : ix.match? eager (w.remaining.take (max ix.maxOpcodeLength 1)) = some place) :
    ix.Attempt eager w (ix.lookup eager w) := by
  obtain ⟨e, there, begins, -⟩ := match?_begins nonempty matched
  have unread : e.opcode.length ≤ w₁.unread.length := by
    have le := begins.length_le
    rw [← pulled.remaining_eq settled.pending_le steady, Window.take_remaining ready,
      List.length_take] at le
    exact Nat.le_trans le (Nat.min_le_right _ _)
  obtain ⟨bytes, tape, moved⟩ := pulled.consume_seen settled steady unread
  have looked := onTape_of_match (t := w.tape) nonempty matched there
  rw [Window.place_tape settled.pending_le] at looked
  rw [lookup_of_match peeked nonempty matched there (Window.bytes_of_le unread), bytes]
  cases loaded : ix.load place with
  | ok d | error err =>
    rw [loaded] at looked
    refine .done moved ?_ ?_
    · rw [looked]
      rfl
    · rw [looked]
      exact tape

theorem attempt_of_unmatched
    (nonempty : w.remaining.take (max ix.maxOpcodeLength 1) ≠ [])
    (unmatched : ix.match? eager (w.remaining.take (max ix.maxOpcodeLength 1)) = none) :
    ix.Attempt eager w (ix.lookup eager w) := by
  have same := pulled.remaining_eq settled.pending_le steady
  have again := Window.peeked_peek (saturatingAdd ix.config.chunkSize ix.maxOpcodeLength)
    (pulled.pending_le settled.pending_le) (pulled.steady steady)
  generalize peeked' :
    Window.peek (saturatingAdd ix.config.chunkSize ix.maxOpcodeLength) w₁ = result at again
  cases again with
  | @refused _ w₂ pulled' denied fewer =>
    rw [lookup_of_refused_again peeked nonempty unmatched peeked']
    exact .refused (pulled.trans pulled') (pulled.plan.subset denied)
      (Nat.lt_of_lt_of_le fewer pulled.plan.length_le)
  | @seen _ w₂ pulled' ready' =>
    rw [same] at peeked'
    obtain ⟨r, ends⟩ : ∃ r, r = ix.runLength eager (ix.config.chunkSize - 1) 1
      (w.remaining.take (saturatingAdd ix.config.chunkSize ix.maxOpcodeLength)).tail := ⟨_, rfl⟩
    have both := pulled.trans pulled'
    have unread : r ≤ w₂.unread.length := by
      have le := run_le_seen ix eager fun nothing ↦ nonempty (List.take_eq_nil_iff.2 (.inr nothing))
      rw [← ends, ← both.remaining_eq settled.pending_le steady, Window.take_remaining ready',
        List.length_take] at le
      exact Nat.le_trans le (Nat.min_le_right _ _)
    obtain ⟨bytes, tape, moved⟩ := both.consume_seen settled steady unread
    have looked := onTape_of_unknown (t := w.tape) nonempty unmatched rfl ends
    rw [Window.place_tape settled.pending_le] at looked
    subst ends
    rw [lookup_of_unknown peeked nonempty unmatched peeked' (Window.bytes_of_le unread), bytes]
    refine .done moved ?_ ?_
    · rw [looked]
      rfl
    · rw [looked]
      exact tape

end Attempts

/-- Over a steady source a lookup does what it does on the tape, or was refused a read. -/
theorem attempt_lookup (ix : Index δ) (eager : Bool) {w : Window} (settled : w.Settled)
    (steady : w.source.Steady) : ix.Attempt eager w (ix.lookup eager w) := by
  have first := Window.peeked_peek (max ix.maxOpcodeLength 1) settled.pending_le steady
  generalize peeked : Window.peek (max ix.maxOpcodeLength 1) w = result at first
  cases first with
  | refused pulled denied fewer =>
    rw [lookup_of_refused peeked]
    exact .refused pulled denied fewer
  | seen pulled ready =>
    by_cases finished : w.remaining.take (max ix.maxOpcodeLength 1) = []
    · exact attempt_of_finished settled steady pulled peeked finished
    · cases matched : ix.match? eager (w.remaining.take (max ix.maxOpcodeLength 1)) with
      | some place =>
        exact attempt_of_match settled steady pulled peeked ready finished matched
      | none => exact attempt_of_unmatched settled steady pulled peeked finished matched

/-! ## Outcomes on the tape -/

/-- A lookup on the tape does not fail but for the descriptor of the opcode that it matched,
and then it has consumed that opcode. -/
theorem onTape_eq_error {t : Tape} {e : Error} (failed : (ix.onTape eager t).1 = .error e) :
    ∃ place entry cause,
      ix.match? eager (t.remaining.take (max ix.maxOpcodeLength 1)) = some place ∧
      ix.entries[place]? = some entry ∧ e = .descriptor entry.opcode cause ∧
      (ix.onTape eager t).2 = t.consume entry.opcode.length := by
  by_cases finished : t.remaining.take (max ix.maxOpcodeLength 1) = []
  · rw [onTape_of_finished finished] at failed
    cases failed
  · cases matched : ix.match? eager (t.remaining.take (max ix.maxOpcodeLength 1)) with
    | some place =>
      obtain ⟨entry, there, -⟩ := match?_begins finished matched
      have looked := onTape_of_match finished matched there
      rw [looked] at failed ⊢
      cases loaded : ix.load place with
      | ok d =>
        rw [loaded] at failed
        cases failed
      | error err =>
        rw [loaded] at failed
        cases failed
        obtain ⟨cause, rfl⟩ := load_eq_error there loaded
        exact ⟨place, entry, cause, rfl, there, rfl, rfl⟩
    | none =>
      rw [onTape_of_unknown finished matched rfl rfl] at failed
      cases failed

/-- Unless it is at the end, a lookup on the tape consumes something. -/
theorem onTape_shorter {t : Tape} (going : (ix.onTape eager t).1 ≠ .ok none) :
    (ix.onTape eager t).2.remaining.length < t.remaining.length := by
  by_cases finished : t.remaining.take (max ix.maxOpcodeLength 1) = []
  · rw [onTape_of_finished finished] at going
    exact absurd rfl going
  · have left : 0 < t.remaining.length :=
      List.length_pos_iff.2 fun nothing ↦ finished (List.take_eq_nil_iff.2 (.inr nothing))
    cases matched : ix.match? eager (t.remaining.take (max ix.maxOpcodeLength 1)) with
    | some place =>
      obtain ⟨e, there, -, some_bytes⟩ := match?_begins finished matched
      have : 0 < e.opcode.length := List.length_pos_iff.2 some_bytes
      rw [onTape_of_match finished matched there, Window.Tape.remaining_consume, List.length_drop]
      omega
    | none =>
      have := ix.le_runLength eager (ix.config.chunkSize - 1) 1
        (t.remaining.take (saturatingAdd ix.config.chunkSize ix.maxOpcodeLength)).tail
      rw [onTape_of_unknown finished matched rfl rfl, Window.Tape.remaining_consume,
        List.length_drop]
      omega

/-! ## Lookups up to the end -/

/-- Lookups are made one after the other, whether they fail or not, until one tells the end.
Gives what they answer and the window after the last. -/
inductive Persists (ix : Index δ) (eager : Bool) :
    Window → List (Except Error (Option (Lookup δ))) → Window → Prop
  | ended {w w' : Window} : ix.lookup eager w = .ok none w' → Persists ix eager w [.ok none] w'
  | again {w w' : Window} {outcomes : List (Except Error (Option (Lookup δ)))} :
      outcome (ix.lookup eager w) ≠ .ok none →
      Persists ix eager (after (ix.lookup eager w)) outcomes w' →
      Persists ix eager w (outcome (ix.lookup eager w) :: outcomes) w'

/-- Whether a lookup failed for its source. -/
def refusal {α : Type} : Except Error α → Bool
  | .ok _ => false
  | .error e => e.category = .file

theorem not_refusal_onTape (ix : Index δ) (eager : Bool) (t : Tape) :
    refusal (ix.onTape eager t).1 = false := by
  cases looked : (ix.onTape eager t).1 with
  | ok found => rfl
  | error e =>
    obtain ⟨-, -, cause, -, -, rfl, -⟩ := onTape_eq_error looked
    rfl

/-- A lookup that goes on leaves less to do: a read that was planned, or a byte, is used up. -/
theorem Attempt.next {w : Window} {result : EStateM.Result Error Window (Option (Lookup δ))}
    (attempt : ix.Attempt eager w result) (settled : w.Settled) (steady : w.source.Steady) :
    (after result).Settled ∧ (after result).source.Steady ∧
      (outcome result ≠ .ok none →
        (after result).remaining.length + (after result).planned <
          w.remaining.length + w.planned) := by
  cases attempt with
  | @refused _ w' pulled _ fewer =>
    have same : w'.remaining = w.remaining := pulled.remaining_eq settled.pending_le steady
    refine ⟨pulled.settled settled, pulled.steady steady, fun _ ↦ ?_⟩
    change w'.remaining.length + w'.planned < _
    rw [same]
    exact Nat.add_lt_add_left fewer _
  | done moved answer tape =>
    obtain ⟨taken, w₁, pulled, there, later⟩ := moved
    refine ⟨?_, ?_, fun going ↦ ?_⟩
    · rw [later]
      exact (pulled.settled settled).consume there
    · rw [later, Window.source_consume]
      exact pulled.steady steady
    · have shorter := onTape_shorter (answer ▸ going)
      rw [← tape] at shorter
      have fewer : (after result).planned ≤ w.planned := by
        rw [Window.planned, later, Window.source_consume]
        exact pulled.plan.length_le
      exact Nat.add_lt_add_of_lt_of_le shorter fewer

/-- Lookups that are repeated after failures come to the end. -/
theorem exists_persists (ix : Index δ) (eager : Bool) {w : Window} (settled : w.Settled)
    (steady : w.source.Steady) : ∃ outcomes w', ix.Persists eager w outcomes w' := by
  induction left : w.remaining.length + w.planned using Nat.strong_induction_on
    generalizing w with
  | _ left ih =>
    subst left
    obtain ⟨settled', steady', less⟩ := (ix.attempt_lookup eager settled steady).next settled steady
    by_cases finished : outcome (ix.lookup eager w) = .ok none
    · cases looked : ix.lookup eager w with
      | ok found w' =>
        rw [looked] at finished
        cases finished
        exact ⟨_, w', .ended looked⟩
      | error e w' =>
        rw [looked] at finished
        cases finished
    · obtain ⟨outcomes, w', rest⟩ := ih _ (less finished) settled' steady' rfl
      exact ⟨_, w', .again finished rest⟩

/-- Over a source that refuses nothing a lookup is the one on the tape. -/
theorem lookup_on_tape (ix : Index δ) (eager : Bool) {v : Window} (smooth : v.Smooth) :
    outcome (ix.lookup eager v) = (ix.onTape eager v.tape).1 ∧
      (after (ix.lookup eager v)).tape = (ix.onTape eager v.tape).2 ∧
      (after (ix.lookup eager v)).Smooth := by
  have attempt := ix.attempt_lookup eager smooth.toSettled smooth.steady
  generalize ix.lookup eager v = result at attempt
  cases attempt with
  | refused _ denied => exact absurd denied smooth.undenied
  | done moved answer tape => exact ⟨answer, tape, moved.smooth smooth⟩

/-- The failures of a source can be dropped from what lookups answer: the others are
the answers over a source with the same bytes that refuses nothing. -/
theorem Persists.over_smooth {w w' : Window} {outcomes : List (Except Error (Option (Lookup δ)))}
    (run : ix.Persists eager w outcomes w') (settled : w.Settled) (steady : w.source.Steady)
    {v : Window} (smooth : v.Smooth) (same : v.tape = w.tape) :
    ∃ v', ix.Persists eager v (outcomes.filter (!refusal ·)) v' := by
  induction run generalizing v with
  | @ended w w' looked =>
    have attempt := ix.attempt_lookup eager settled steady
    rw [looked] at attempt
    cases attempt with
    | done _ answer _ =>
      have told := (ix.lookup_on_tape eager smooth).1
      rw [same, ← answer] at told
      cases looked' : ix.lookup eager v with
      | ok found v' =>
        rw [looked'] at told
        cases told
        exact ⟨v', .ended looked'⟩
      | error e v' =>
        rw [looked'] at told
        cases told
  | @again w w' outcomes going _ ih =>
    have attempt := ix.attempt_lookup eager settled steady
    obtain ⟨settled', steady', -⟩ := attempt.next settled steady
    have later := @ih settled' steady'
    generalize ix.lookup eager w = result at attempt going later
    cases attempt with
    | refused pulled =>
      exact later smooth
        (same.trans (Window.tape_pulled_of_steady settled.pending_le steady pulled).symm)
    | done moved answer tape =>
      obtain ⟨answer', tape', smooth'⟩ := ix.lookup_on_tape eager smooth
      rw [same] at answer' tape'
      have told : outcome (ix.lookup eager v) = outcome result := answer'.trans answer.symm
      obtain ⟨v', rest⟩ := later smooth' (tape'.trans tape.symm)
      have kept : (!refusal (outcome result)) = true := by
        rw [answer, not_refusal_onTape]
        rfl
      rw [List.filter_cons, if_pos kept, ← told]
      exact ⟨v', .again (told ▸ going) rest⟩

/-! ## Failures of a lookup -/

/-- A descriptor that cannot be loaded is that of the longest opcode that the bytes begin with,
which was consumed. -/
theorem consumed_of_error (h : ix.Searchable) {w w' : Window} (settled : w.Settled) {e : Error}
    (failed : (ix.onTape eager w.tape).1 = .error e)
    (tape : w'.tape = (ix.onTape eager w.tape).2) (settled' : w'.Settled) :
    ∃ o cause, e = .descriptor o cause ∧ ix.LongestCandidate eager w.remaining o ∧
      1 ≤ o.length ∧ w'.totalRead = w.totalRead + o.length ∧
      w'.remaining = w.remaining.drop o.length := by
  obtain ⟨place, entry, cause, matched, there, rfl, consumed⟩ := onTape_eq_error failed
  have spec := match?_take_spec h eager w.remaining (Nat.le_max_left ix.maxOpcodeLength 1)
  have front : w.tape.remaining = w.remaining := rfl
  rw [← front, matched] at spec
  obtain ⟨e, there', longest⟩ := spec
  cases there.symm.trans there'
  rw [consumed] at tape
  refine ⟨entry.opcode, cause, rfl, longest, ?_, ?_, ?_⟩
  · exact List.length_pos_iff.2 (h.ne_nil _ longest.1.listed)
  · have there : entry.opcode.length ≤ w.tape.remaining.length := longest.1.isPrefix.length_le
    have total := Window.Tape.totalRead_consume there
    rw [← tape, Window.place_tape settled'.pending_le,
      Window.place_tape settled.pending_le] at total
    exact total
  · exact (congrArg Tape.remaining tape).trans (Window.Tape.remaining_consume _ _)

/-- Lookups survive the failures of their source.  A lookup that fails for its source has
consumed nothing.  One that fails otherwise names the longest opcode that the bytes to come
begin with, whose descriptor cannot be loaded, and has consumed that opcode.  So lookups that
are repeated whatever they answer come to the end; and what they answer, the failures
of the source aside, is what they answer over a source with the same bytes that has none. -/
theorem lookup_survives_refusals {factory : Factory δ} {config : Config} {file : File}
    (opened : openFile factory config file = .ok ix) (verify : config.verifyOrder = true)
    (eager : Bool) {w : Window} (settled : w.Settled) (steady : w.source.Steady) :
    (∀ e w', ix.lookup eager w = .error e w' →
      e.category = .file ∧ w'.place = w.place ∨
      ∃ o cause, e = .descriptor o cause ∧ ix.LongestCandidate eager w.remaining o ∧
        1 ≤ o.length ∧ w'.totalRead = w.totalRead + o.length ∧
        w'.remaining = w.remaining.drop o.length) ∧
    (∃ outcomes w', ix.Persists eager w outcomes w') ∧
    ∀ outcomes w', ix.Persists eager w outcomes w' →
      ∀ v : Window, v.Smooth → v.tape = w.tape →
        ∃ v', ix.Persists eager v (outcomes.filter (!refusal ·)) v' := by
  have image := openFile_eq_ok_iff.1 opened
  have searchable : ix.Searchable := ⟨image.sorted verify, fun o ↦ image.opcode_ne_nil⟩
  refine ⟨fun e w' failed ↦ ?_, ix.exists_persists eager settled steady,
    fun outcomes w' run v smooth same ↦ run.over_smooth settled steady smooth same⟩
  have attempt := ix.attempt_lookup eager settled steady
  obtain ⟨settled', -⟩ := attempt.next settled steady
  rw [failed] at attempt settled'
  cases attempt with
  | refused pulled => exact .inl ⟨rfl, pulled.place_eq⟩
  | done _ answer tape =>
    exact .inr (consumed_of_error searchable settled answer.symm tape settled')

/-- A refusal, an opcode with a descriptor that cannot be loaded, and another refusal. -/
theorem lookup_survives_refusals_by_broken_descriptor :
    let trap : Opcode := ⟨[0xCC], by decide⟩
    let file : File :=
      ⟨[0x4F, 0x50, 0x49, 0x58, 2, 0, 0, 0, 2, 0, 2, 0, 1, 0x90, 0, 0, 1, 0xCC, 5, 0,
        1, 3, 0x6E, 0x6F, 0x70, 0x7F], by decide⟩
    let ix : Index Instruction :=
      ⟨.instruction, file, ⟨2, 2, 2⟩, [⟨⟨[0x90], by decide⟩, 0⟩, ⟨trap, 5⟩], {}⟩
    let reading (plan : List PlannedRead) : Window := { source := { data := [0xCC, 0x90], plan } }
    let behind : Window :=
      { source := { data := [0x90], plan := [.interrupt, .deny], delivered := 1 }, committed := 1 }
    openFile .instruction {} file = .ok ix ∧
      ix.lookup true (reading [.deny, .deliver 1, .interrupt, .deny]) =
        .error .readDenied (reading [.deliver 1, .interrupt, .deny]) ∧
      ix.lookup true (reading [.deliver 1, .interrupt, .deny]) =
        .error (.descriptor trap (.instructionTag 0x7F)) behind ∧
      ∃ outcomes,
        (∃ w', ix.Persists true (reading [.deny, .deliver 1, .interrupt, .deny]) outcomes w') ∧
        ∃ v', ix.Persists true (reading []) (outcomes.filter (!refusal ·)) v' := by
  intro trap file ix reading behind
  have opened : openFile .instruction {} file = .ok ix := by cbv
  have settled (plan : List PlannedRead) : (reading plan).Settled := ⟨Nat.le_refl _, fun _ ↦ rfl⟩
  have smooth : (reading []).Smooth := .fresh (by decide) (by decide)
  obtain ⟨-, ⟨outcomes, w', run⟩, dropped⟩ := lookup_survives_refusals opened rfl true
    (settled [.deny, .deliver 1, .interrupt, .deny]) (by decide)
  refine ⟨opened, ?_, ?_, outcomes, ⟨w', run⟩, dropped outcomes w' run (reading []) smooth rfl⟩
  · dsimp only [reading, ix, trap]
    cbv
  · dsimp only [reading, ix, trap, behind]
    cbv

end Index

end Disasm
