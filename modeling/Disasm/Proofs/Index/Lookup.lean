import Disasm.Proofs.Index.Match
import Disasm.Proofs.Index.Table
import Disasm.Proofs.Window.Tape

/-!
# What a lookup answers

A lookup is decided on two bounded looks ahead, and it answers as if it had
seen all bytes that the window still gives.  `Finds` says what the answer must
be, `lookup_finds` that it is this; the rest of the file unfolds the four cases.
-/

namespace Disasm.Index

open Window (outcome after)

variable {δ : Type}

/-- The longest of the candidates. -/
def LongestCandidate (ix : Index δ) (eager : Bool) (bs : Bytes) (o : Opcode) : Prop :=
  ix.Candidate eager bs o ∧ ∀ o', ix.Candidate eager bs o' → o'.length ≤ o.length

/-- What a lookup at `offset` must answer, and how many bytes it takes, if `bs`
are the bytes to come. -/
inductive Finds (ix : Index δ) (eager : Bool) (offset : Nat) (bs : Bytes) :
    Except Error (Option (Lookup δ)) → Nat → Prop
  | finished : bs = [] → Finds ix eager offset bs (.ok none) 0
  | known {o : Opcode} {d : δ} : ix.LongestCandidate eager bs o →
      ix.descriptor o = .ok (some d) →
      Finds ix eager offset bs (.ok (some ⟨offset, o.bytes, true, d⟩)) o.length
  | broken {o : Opcode} {e : Error} : ix.LongestCandidate eager bs o →
      ix.descriptor o = .error (.descriptor o e) →
      Finds ix eager offset bs (.error (.descriptor o e)) o.length
  | unknown {r : Nat} : bs ≠ [] → (∀ o, ¬ix.Candidate eager bs o) →
      IsLeast (ix.runEnds eager ix.config.chunkSize bs) r →
      Finds ix eager offset bs
        (.ok (some ⟨offset, bs.take r, false, ix.factory.unknown (bs.take r)⟩)) r

variable {ix : Index δ} {eager : Bool} {w w₁ w₂ w₃ : Window} {front bs : Bytes} {place : Nat}

theorem Config.one_le_chunkSize (c : Config) : 1 ≤ c.chunkSize := Nat.le_max_right _ _

/-! ## Loading -/

/-- A descriptor that cannot be loaded is told by its opcode. -/
theorem load_eq_error {e : Entry} {err : Error} (there : ix.entries[place]? = some e)
    (h : ix.load place = .error err) : ∃ err', err = .descriptor e.opcode err' := by
  rw [load, there] at h
  dsimp only at h
  split at h
  next cause _ =>
    cases h
    exact ⟨cause, rfl⟩
  next =>
    split at h
    next => cases h
    next cause _ _ =>
      cases h
      exact ⟨cause, rfl⟩

/-! ## The branches of a lookup -/

theorem lookup_of_finished
    (peeked : Window.peek (max ix.maxOpcodeLength 1) w = .ok [] w₁) :
    ix.lookup eager w = .ok none w₁ :=
  (Action.bind_of_ok rfl).trans (Action.bind_of_ok peeked)

theorem lookup_of_match {e : Entry}
    (peeked : Window.peek (max ix.maxOpcodeLength 1) w = .ok front w₁) (nonempty : front ≠ [])
    (matched : ix.match? eager front = some place) (there : ix.entries[place]? = some e)
    (taken : Window.bytes e.opcode.length w₁ = .ok bs w₂) :
    ix.lookup eager w =
      match ix.load place with
      | .ok d => .ok (some ⟨w.totalRead, bs, true, d⟩) w₂
      | .error err => .error err w₂ := by
  refine (Action.bind_of_ok rfl).trans ((Action.bind_of_ok peeked).trans ?_)
  rw [if_neg (mt List.isEmpty_iff.1 nonempty), matched]
  dsimp only
  rw [there]
  refine (Action.bind_of_ok taken).trans ?_
  cases ix.load place <;> rfl

theorem lookup_of_unknown {ahead : Bytes}
    (peeked : Window.peek (max ix.maxOpcodeLength 1) w = .ok front w₁) (nonempty : front ≠ [])
    (unmatched : ix.match? eager front = none)
    (peeked' : Window.peek (saturatingAdd ix.config.chunkSize ix.maxOpcodeLength) w₁ =
      .ok ahead w₂)
    (taken : Window.bytes (ix.runLength eager (ix.config.chunkSize - 1) 1 ahead.tail) w₂ =
      .ok bs w₃) :
    ix.lookup eager w =
      .ok (some ⟨w.totalRead, bs, false, ix.factory.unknown bs⟩) w₃ := by
  refine (Action.bind_of_ok rfl).trans ((Action.bind_of_ok peeked).trans ?_)
  rw [if_neg (mt List.isEmpty_iff.1 nonempty), unmatched]
  dsimp only
  exact (Action.bind_of_ok peeked').trans (Action.bind_of_ok taken)

/-! ## Answers -/

/-- A lookup at `w` answers what it must and takes `n` bytes, if `bs` are the
bytes to come. -/
structure Answered (ix : Index δ) (eager : Bool) (w : Window) (bs : Bytes)
    (result : EStateM.Result Error Window (Option (Lookup δ))) (n : Nat) : Prop where
  answer : ix.Finds eager w.totalRead bs (outcome result) n
  totalRead : (after result).totalRead = w.totalRead + n
  remaining : (after result).remaining = bs.drop n

theorem answered_known (h : ix.Searchable) {e : Entry} (there : ix.entries[place]? = some e)
    (longest : ix.LongestCandidate eager w₁.remaining e.opcode)
    (inside : w₁.pending ≤ w₁.lookahead.length) (unread : e.opcode.length ≤ w₁.unread.length)
    (same : w₁.totalRead = w.totalRead) :
    ix.Answered eager w w₁.remaining
      (match ix.load place with
        | .ok d => .ok (some ⟨w.totalRead, w₁.unread.take e.opcode.length, true, d⟩)
          (w₁.consume e.opcode.length)
        | .error err => .error err (w₁.consume e.opcode.length))
      e.opcode.length := by
  have bytes : w₁.unread.take e.opcode.length = e.opcode.bytes := by
    rw [← Window.take_remaining (.inr unread)]
    exact (List.prefix_iff_eq_take.1 longest.1.isPrefix).symm
  have described := descriptor_eq h.sorted there
  have total : (w₁.consume e.opcode.length).totalRead = w.totalRead + e.opcode.length := by
    rw [Window.totalRead_consume, same]
  have remaining := Window.remaining_consume inside unread
  cases loaded : ix.load place with
  | ok d =>
    rw [loaded] at described
    rw [bytes]
    exact ⟨.known longest described, total, remaining⟩
  | error err =>
    rw [loaded] at described
    obtain ⟨cause, rfl⟩ := load_eq_error there loaded
    exact ⟨.broken longest described, total, remaining⟩

/-- The second look ahead is wide enough, for sizes stay below the bound of
addresses. -/
theorem le_saturatingAdd {most longest length : Nat}
    (countable : most + longest < addressBound ∨ length < addressBound) :
    length ≤ saturatingAdd most longest ∨ most + longest ≤ saturatingAdd most longest := by
  rw [saturatingAdd]
  omega

/-- A run is no longer than what was seen of the bytes. -/
theorem le_unread_of_isLeast {n r : Nat}
    (least : IsLeast (ix.runEnds eager ix.config.chunkSize w.remaining) r)
    (nonempty : w.remaining ≠ [])
    (enough : w.remaining.length ≤ n ∨ ix.config.chunkSize + ix.maxOpcodeLength ≤ n)
    (ready : w.exhausted = true ∨ n ≤ w.unread.length) : r ≤ w.unread.length := by
  have whole : r ≤ w.remaining.length := le_length_of_isLeast nonempty least
  have chunk : r ≤ ix.config.chunkSize := least.2 ⟨ix.config.one_le_chunkSize, .inl rfl⟩
  rcases ready with stopped | there
  · rwa [Window.remaining, Window.upcoming, if_pos stopped, List.append_nil] at whole
  · omega

theorem answered_unknown (h : ix.Searchable) {n : Nat} (nonempty : w₂.remaining ≠ [])
    (unmatched : ∀ o, ¬ix.Candidate eager w₂.remaining o)
    (enough : w₂.remaining.length ≤ n ∨ ix.config.chunkSize + ix.maxOpcodeLength ≤ n)
    (inside : w₂.pending ≤ w₂.lookahead.length)
    (ready : w₂.exhausted = true ∨ n ≤ w₂.unread.length)
    (same : w₂.totalRead = w.totalRead) :
    ∃ r, r = ix.runLength eager (ix.config.chunkSize - 1) 1 (w₂.unread.take n).tail ∧
      r ≤ w₂.unread.length ∧
      ix.Answered eager w w₂.remaining
        (.ok (some ⟨w.totalRead, w₂.unread.take r, false, ix.factory.unknown (w₂.unread.take r)⟩)
          (w₂.consume r)) r := by
  have least := isLeast_runEnds h eager ix.config.one_le_chunkSize nonempty enough
  rw [Window.take_remaining ready] at least
  have unread := le_unread_of_isLeast least nonempty enough ready
  refine ⟨_, rfl, unread, ?_, ?_, Window.remaining_consume inside unread⟩
  · rw [← Window.take_remaining (.inr unread)]
    exact .unknown nonempty unmatched least
  · exact (Window.totalRead_consume _ w₂).trans (congrArg (· + _) same)

section Looked

/-! A lookup that has looked ahead the first time stands at `w₁`, with as many
bytes unread as the longest opcode has, or with all that there are. -/

variable {taken : Bytes} (h : ix.Searchable) (inside : w.pending ≤ w.lookahead.length)
  (pulled : Window.Pulled taken w w₁)
  (peeked : Window.peek (max ix.maxOpcodeLength 1) w =
    .ok (w₁.unread.take (max ix.maxOpcodeLength 1)) w₁)
  (ready : w₁.exhausted = true ∨ max ix.maxOpcodeLength 1 ≤ w₁.unread.length)
  (nonempty : w₁.unread.take (max ix.maxOpcodeLength 1) ≠ [])

include h inside pulled peeked ready nonempty

theorem answered_of_match
    (matched : ix.match? eager (w₁.unread.take (max ix.maxOpcodeLength 1)) = some place) :
    ∃ n, ix.Answered eager w w₁.remaining (ix.lookup eager w) n := by
  have front := Window.take_remaining ready
  have spec := match?_take_spec h eager w₁.remaining (Nat.le_max_left ix.maxOpcodeLength 1)
  rw [front, matched] at spec
  obtain ⟨e, there, candidate, longest⟩ := spec
  have unread : e.opcode.length ≤ w₁.unread.length := by
    have begins := ((candidate_take_iff (Nat.le_max_left _ 1)).2 candidate).isPrefix.length_le
    rw [front, List.length_take] at begins
    exact Nat.le_trans begins (Nat.min_le_right _ _)
  rw [lookup_of_match peeked nonempty matched there (Window.bytes_of_le unread)]
  exact ⟨_, answered_known h there ⟨candidate, longest⟩ (pulled.pending_le inside) unread
    pulled.totalRead_eq⟩

theorem answered_of_unmatched (undenied : .deny ∉ w.source.plan)
    (countable : ix.config.chunkSize + ix.maxOpcodeLength < addressBound ∨
      w.remaining.length < addressBound)
    (unmatched : ix.match? eager (w₁.unread.take (max ix.maxOpcodeLength 1)) = none) :
    ∃ taken' w₂ n, Window.Pulled taken' w₁ w₂ ∧
      ix.Answered eager w w₂.remaining (ix.lookup eager w) n := by
  have inside₁ := pulled.pending_le inside
  obtain ⟨taken', w₂, pulled', peeked', ready'⟩ := Window.peek_of_undenied
    (saturatingAdd ix.config.chunkSize ix.maxOpcodeLength) inside₁
    (fun denied ↦ undenied (pulled.plan.subset denied))
  -- The second look only adds bytes behind those of the first.
  obtain ⟨still, kept⟩ := pulled'.ready inside₁ ready
  have front := (Window.take_remaining still).trans kept
  have some_left : w₂.remaining ≠ [] := by
    intro nothing
    rw [nothing, List.take_nil] at front
    exact nonempty front.symm
  have none := match?_take_spec h eager w₂.remaining (Nat.le_max_left ix.maxOpcodeLength 1)
  rw [front, unmatched] at none
  have shorter : w₂.remaining.length ≤ w.remaining.length :=
    ((pulled'.remaining_isPrefix inside₁).trans (pulled.remaining_isPrefix inside)).length_le
  have enough := le_saturatingAdd (countable.imp_right (Nat.lt_of_le_of_lt shorter))
  obtain ⟨r, rfl, unread, answered⟩ := answered_unknown h some_left none enough
    (pulled'.pending_le inside₁) ready' (pulled'.totalRead_eq.trans pulled.totalRead_eq)
  rw [← lookup_of_unknown peeked nonempty unmatched peeked' (Window.bytes_of_le unread)]
    at answered
  exact ⟨taken', w₂, _, pulled', answered⟩

end Looked

/-- A lookup in a table that can be searched answers what it must, over every
source that denies no read.  Over a steady source the bytes that it goes by are
all that the window still gives; over another they may be fewer, where the
source turns out to have ended. -/
theorem lookup_finds (h : ix.Searchable) (eager : Bool)
    (inside : w.pending ≤ w.lookahead.length) (undenied : .deny ∉ w.source.plan)
    (countable : ix.config.chunkSize + ix.maxOpcodeLength < addressBound ∨
      w.remaining.length < addressBound) :
    ∃ bs n, bs <+: w.remaining ∧ (w.source.Steady → bs = w.remaining) ∧
      ix.Answered eager w bs (ix.lookup eager w) n := by
  obtain ⟨taken, w₁, pulled, peeked, ready⟩ :=
    Window.peek_of_undenied (max ix.maxOpcodeLength 1) inside undenied
  have start := pulled.remaining_isPrefix inside
  have same := pulled.remaining_eq inside
  by_cases ended : w₁.unread.take (max ix.maxOpcodeLength 1) = []
  · have none_left : w₁.remaining = [] := by
      have front := (Window.take_remaining ready).trans ended
      rw [List.take_eq_nil_iff] at front
      exact front.resolve_left (by omega)
    refine ⟨w₁.remaining, 0, start, same, ?_⟩
    rw [ended] at peeked
    rw [lookup_of_finished peeked]
    exact ⟨.finished none_left, pulled.totalRead_eq, rfl⟩
  · cases matched : ix.match? eager (w₁.unread.take (max ix.maxOpcodeLength 1)) with
    | some place =>
      obtain ⟨n, answered⟩ := answered_of_match h inside pulled peeked ready ended matched
      exact ⟨w₁.remaining, n, start, same, answered⟩
    | none =>
      obtain ⟨taken', w₂, n, pulled', answered⟩ :=
        answered_of_unmatched h inside pulled peeked ready ended undenied countable matched
      have inside₁ := pulled.pending_le inside
      refine ⟨w₂.remaining, n, (pulled'.remaining_isPrefix inside₁).trans start, ?_, answered⟩
      intro steady
      rw [pulled'.remaining_eq inside₁ (pulled.steady steady), same steady]

/-! ## Specification -/

/-- A lookup at the window `w` with the given result is right, if `bs` are the
bytes that the window still gives. -/
structure Correct (ix : Index δ) (eager : Bool) (w : Window) (bs : Bytes)
    (result : EStateM.Result Error Window (Option (Lookup δ))) : Prop where
  /-- There is no answer at the end, and only there. -/
  none_iff : outcome result = .ok none ↔ bs = []
  /-- Where an opcode begins, the longest is found with its descriptor. -/
  known : (∃ o, ix.Candidate eager bs o) → ∃ o, ix.LongestCandidate eager bs o ∧
    ((∃ d, ix.descriptor o = .ok (some d) ∧
        outcome result = .ok (some ⟨w.totalRead, o.bytes, true, d⟩)) ∨
      ∃ e, ix.descriptor o = .error (.descriptor o e) ∧
        outcome result = .error (.descriptor o e))
  /-- Elsewhere the bytes are unknown up to the first place where a run may end. -/
  unknown : bs ≠ [] → (∀ o, ¬ix.Candidate eager bs o) →
    ∃ r, IsLeast (ix.runEnds eager (max ix.config.unknownChunk 1) bs) r ∧
      (bs.take r).length = r ∧
      outcome result =
        .ok (some ⟨w.totalRead, bs.take r, false, ix.factory.unknown (bs.take r)⟩)
  /-- What is found is consumed. -/
  found : ∀ l, outcome result = .ok (some l) →
    l.offset = w.totalRead ∧ l.bytes <+: bs ∧
      (after result).totalRead = w.totalRead + l.bytes.length ∧
      (after result).remaining = bs.drop l.bytes.length

theorem Candidate.ne_nil {o : Opcode} (h : ix.Searchable) (candidate : ix.Candidate eager bs o) :
    bs ≠ [] := by
  rintro rfl
  exact h.ne_nil o candidate.listed (List.prefix_nil.1 candidate.isPrefix)

theorem Answered.correct (h : ix.Searchable) {n : Nat}
    {result : EStateM.Result Error Window (Option (Lookup δ))}
    (answered : ix.Answered eager w bs result n) :
    ix.Correct eager w bs result := by
  obtain ⟨answer, total, remaining⟩ := answered
  generalize eq : outcome result = r at answer
  cases answer with
  | finished ended =>
    subst ended
    refine ⟨by rw [eq]; simp, fun ⟨o, c⟩ ↦ absurd rfl (c.ne_nil h), fun some ↦ absurd rfl some, ?_⟩
    intro l found
    rw [eq] at found
    cases found
  | @known o d longest described =>
    have nonempty := longest.1.ne_nil h
    refine ⟨by rw [eq]; simp [nonempty], fun _ ↦ ⟨o, longest, .inl ⟨d, described, eq⟩⟩,
      fun _ unmatched ↦ absurd longest.1 (unmatched o), ?_⟩
    intro l found
    rw [eq] at found
    cases found
    exact ⟨rfl, longest.1.isPrefix, total, remaining⟩
  | @broken o e longest described =>
    have nonempty := longest.1.ne_nil h
    refine ⟨by rw [eq]; simp [nonempty], fun _ ↦ ⟨o, longest, .inr ⟨e, described, eq⟩⟩,
      fun _ unmatched ↦ absurd longest.1 (unmatched o), ?_⟩
    intro l found
    rw [eq] at found
    cases found
  | unknown nonempty unmatched least =>
    have size : (bs.take n).length = n :=
      List.length_take_of_le (le_length_of_isLeast nonempty least)
    refine ⟨by rw [eq]; simp [nonempty], fun ⟨o, c⟩ ↦ absurd c (unmatched o),
      fun _ _ ↦ ⟨n, least, size, eq⟩, ?_⟩
    intro l found
    rw [eq] at found
    cases found
    rw [size]
    exact ⟨rfl, List.take_prefix _ _, total, remaining⟩

/-- A lookup in an index that was opened with its order verified is right at every
place of every window whose source denies no read.  The sizes that occur are
below the bound of addresses, as those of all counts are. -/
theorem lookup_correct {factory : Factory δ} {config : Config} {file : File}
    (opened : openFile factory config file = .ok ix) (verify : config.verifyOrder = true)
    (eager : Bool) (inside : w.pending ≤ w.lookahead.length) (undenied : .deny ∉ w.source.plan)
    (countable : max config.unknownChunk 1 + ix.maxOpcodeLength < addressBound ∨
      w.remaining.length < addressBound) :
    ix.factory = factory ∧ ix.config = config ∧
      ∃ bs, bs <+: w.remaining ∧ (w.source.Steady → bs = w.remaining) ∧
        ix.Correct eager w bs (ix.lookup eager w) := by
  have image := openFile_eq_ok_iff.1 opened
  have searchable : ix.Searchable := ⟨image.sorted verify, fun o ↦ image.opcode_ne_nil⟩
  rw [← image.config_eq] at countable
  obtain ⟨bs, n, start, steady, answered⟩ :=
    lookup_finds searchable eager inside undenied countable
  exact ⟨image.factory_eq, image.config_eq, bs, start, steady, answered.correct searchable⟩

/-- A byte that begins no opcode, before one that does. -/
theorem lookup_correct_before_nop :
    let file : File :=
      ⟨[0x4F, 0x50, 0x49, 0x58, 1, 0, 0, 0, 2, 0, 2, 0, 1, 0x90, 0, 0, 0xAA], by decide⟩
    let ix : Index Bytes := ⟨.raw, file, ⟨1, 2, 2⟩, [⟨⟨[0x90], by decide⟩, 0⟩], {}⟩
    let w : Window :=
      { source := { data := [0x41, 0x90], plan := [.interrupt, .deliver 1] } }
    openFile .raw {} file = .ok ix ∧
      ∃ bs, bs = [0x41, 0x90] ∧ ix.Correct true w bs (ix.lookup true w) := by
  intro file ix w
  have opened : openFile .raw {} file = .ok ix := by cbv
  obtain ⟨-, -, bs, -, steady, correct⟩ :=
    lookup_correct opened rfl true (w := w) (by decide) (by decide) (.inl (by decide))
  exact ⟨opened, bs, steady (Source.steady_of_forall (by decide)), correct⟩

end Disasm.Index
