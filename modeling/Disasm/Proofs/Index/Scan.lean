import Disasm.Proofs.Index.Format
import Disasm.Proofs.Index.Progress

/-!
# Scanning

A scan repeats lookups up to the end.  `Walk` says what it must come to with no
word of chunks: byte by byte, an opcode is marked and passed where one begins, and
any other byte is a gap.  A lookup is some steps of the walk, however long an
unknown run may get, so that the size of chunks decides only how gaps are grouped.
-/

namespace Disasm.Index

variable {δ : Type}

/-! ## Walks -/

/-- The bytes from `offset` on are gone through: where an opcode begins, the longest
is marked and passed, and any other byte is a gap. -/
inductive Walk (ix : Index δ) (eager : Bool) :
    (offset : Nat) → Bytes → (marks : List (Nat × Opcode)) → (gaps : List Nat) → Prop
  | nil (offset : Nat) : Walk ix eager offset [] [] []
  | known {offset : Nat} {bs : Bytes} {o : Opcode} {marks : List (Nat × Opcode)}
      {gaps : List Nat} : ix.LongestCandidate eager bs o →
      Walk ix eager (offset + o.length) (bs.drop o.length) marks gaps →
      Walk ix eager offset bs ((offset, o) :: marks) gaps
  | unknown {offset : Nat} {b : UInt8} {bs : Bytes} {marks : List (Nat × Opcode)}
      {gaps : List Nat} : (∀ o, ¬ix.Candidate eager (b :: bs) o) →
      Walk ix eager (offset + 1) bs marks gaps →
      Walk ix eager offset (b :: bs) marks (offset :: gaps)

variable {ix : Index δ} {eager : Bool} {offset n : Nat} {bs : Bytes} {o o' : Opcode}
  {marks : List (Nat × Opcode)} {gaps : List Nat}

theorem Candidate.length_pos (h : ix.Searchable) (candidate : ix.Candidate eager bs o) :
    1 ≤ o.length :=
  List.length_pos_iff.2 (h.ne_nil o candidate.listed)

/-- There is one longest candidate. -/
theorem LongestCandidate.unique (h : ix.LongestCandidate eager bs o)
    (h' : ix.LongestCandidate eager bs o') : o = o' := by
  have size : o.length = o'.length := Nat.le_antisymm (h'.2 o h.1) (h.2 o' h'.1)
  refine Opcode.ext_bytes ?_
  rw [List.prefix_iff_eq_take.1 h.1.isPrefix, List.prefix_iff_eq_take.1 h'.1.isPrefix]
  exact congrArg (bs.take ·) size

/-- All bytes can be gone through. -/
theorem exists_walk (h : ix.Searchable) (eager : Bool) (offset : Nat) (bs : Bytes) :
    ∃ marks gaps, ix.Walk eager offset bs marks gaps := by
  induction length : bs.length using Nat.strong_induction_on generalizing offset bs with
  | _ length ih =>
    subst length
    cases bs with
    | nil => exact ⟨[], [], .nil offset⟩
    | cons b bs =>
      have spec := match?_spec h eager (b :: bs)
      cases matched : ix.match? eager (b :: bs) with
      | none =>
        rw [matched] at spec
        obtain ⟨marks, gaps, walk⟩ := ih bs.length (Nat.lt_succ_self _) (offset + 1) bs rfl
        exact ⟨marks, offset :: gaps, .unknown spec walk⟩
      | some place =>
        rw [matched] at spec
        obtain ⟨e, -, candidate, longest⟩ := spec
        have shorter : ((b :: bs).drop e.opcode.length).length < (b :: bs).length := by
          have := candidate.length_pos h
          rw [List.length_drop, List.length_cons]
          omega
        obtain ⟨marks, gaps, walk⟩ := ih _ shorter (offset + e.opcode.length) _ rfl
        exact ⟨(offset, e.opcode) :: marks, gaps, .known ⟨candidate, longest⟩ walk⟩

namespace Walk

/-- Only the opcodes of the table matter. -/
theorem congr (walk : ix.Walk eager offset bs marks gaps) {ix' : Index δ}
    (same : ix'.opcodes = ix.opcodes) : ix'.Walk eager offset bs marks gaps := by
  have candidates : ∀ bs o, ix'.Candidate eager bs o ↔ ix.Candidate eager bs o := fun bs o ↦
    ⟨fun h ↦ ⟨same ▸ h.listed, h.isPrefix, h.single⟩,
      fun h ↦ ⟨same ▸ h.listed, h.isPrefix, h.single⟩⟩
  induction walk with
  | nil offset => exact .nil offset
  | known longest _ ih =>
    exact .known ⟨(candidates _ _).2 longest.1, fun o' c ↦ longest.2 o' ((candidates _ _).1 c)⟩ ih
  | unknown unmatched _ ih => exact .unknown (fun o c ↦ unmatched o ((candidates _ _).1 c)) ih

/-- What is marked is in the table. -/
theorem listed (walk : ix.Walk eager offset bs marks gaps) :
    ∀ m ∈ marks, m.2 ∈ ix.opcodes := by
  induction walk with
  | nil => nofun
  | known longest _ ih => exact List.forall_mem_cons.2 ⟨longest.1.listed, ih⟩
  | unknown _ _ ih => exact ih

/-- Where an opcode begins, the walk passes the longest. -/
theorem after_known (h : ix.Searchable) (walk : ix.Walk eager offset bs marks gaps)
    (longest : ix.LongestCandidate eager bs o) :
    ∃ marks', marks = (offset, o) :: marks' ∧
      ix.Walk eager (offset + o.length) (bs.drop o.length) marks' gaps := by
  cases walk with
  | nil => exact absurd rfl (longest.1.ne_nil h)
  | known longest' walk =>
    cases longest.unique longest'
    exact ⟨_, rfl, walk⟩
  | unknown unmatched => exact absurd longest.1 (unmatched o)

/-- Where no opcode begins, the walk passes bytes one by one. -/
theorem after_run (walk : ix.Walk eager offset bs marks gaps) (fits : n ≤ bs.length)
    (unmatched : ∀ k < n, ∀ o, ¬ix.Candidate eager (bs.drop k) o) :
    ∃ gaps', gaps = List.range' offset n ++ gaps' ∧
      ix.Walk eager (offset + n) (bs.drop n) marks gaps' := by
  induction n generalizing offset bs gaps with
  | zero => exact ⟨gaps, rfl, walk⟩
  | succ n ih =>
    cases walk with
    | nil => cases fits
    | known longest => exact absurd longest.1 (unmatched 0 (Nat.succ_pos n) _)
    | unknown _ walk =>
      obtain ⟨gaps', rfl, walk'⟩ := ih walk (Nat.le_of_succ_le_succ fits)
        fun k less ↦ unmatched (k + 1) (Nat.succ_lt_succ less)
      refine ⟨gaps', rfl, ?_⟩
      rwa [Nat.add_right_comm, Nat.add_assoc] at walk'

end Walk

/-! ## Lookups in a row -/

/-- Where opcodes were found, and which. -/
def marksOf (found : List (Lookup δ)) : List (Nat × Opcode) :=
  found.filterMap fun l ↦ l.opcode?.map (l.offset, ·)

/-- The offsets of the bytes in unknown runs. -/
def gapsOf (found : List (Lookup δ)) : List Nat :=
  (found.filter fun l ↦ !l.known).flatMap fun l ↦ List.range' l.offset l.bytes.length

/-- Lookups begin at `offset`, and each where the one before it ends. -/
def Contiguous : (offset : Nat) → List (Lookup δ) → Prop
  | _, [] => True
  | offset, l :: found => l.offset = offset ∧ Contiguous (offset + l.bytes.length) found

/-- What lookups find one after the other, from `offset` on, where `bs` are the bytes
to come. -/
inductive Reads (ix : Index δ) (eager : Bool) :
    (offset : Nat) → Bytes → List (Lookup δ) → Prop
  | nil (offset : Nat) : Reads ix eager offset [] []
  | cons {offset n : Nat} {bs : Bytes} {l : Lookup δ} {found : List (Lookup δ)} :
      ix.Finds eager offset bs (.ok (some l)) n →
      Reads ix eager (offset + n) (bs.drop n) found → Reads ix eager offset bs (l :: found)

variable {l : Lookup δ} {found : List (Lookup δ)}

/-- What is found stands at the front of the bytes. -/
theorem Finds.front (finds : ix.Finds eager offset bs (.ok (some l)) n) :
    l.offset = offset ∧ l.bytes = bs.take n ∧ l.bytes.length = n := by
  cases finds with
  | @known o d longest =>
    exact ⟨rfl, List.prefix_iff_eq_take.1 longest.1.isPrefix, rfl⟩
  | unknown nonempty _ least =>
    exact ⟨rfl, rfl, List.length_take_of_le (le_length_of_isLeast nonempty least)⟩

/-- A lookup that finds something takes a byte or more. -/
theorem Finds.pos (h : ix.Searchable) (finds : ix.Finds eager offset bs (.ok (some l)) n) :
    1 ≤ n := by
  cases finds with
  | known longest => exact longest.1.length_pos h
  | unknown _ _ least => exact least.1.1

/-- A lookup is some steps of a walk.  Inside an unknown run no opcode begins, so
that it does not matter where the run was begun. -/
theorem Walk.after_finds (h : ix.Searchable) (walk : ix.Walk eager offset bs marks gaps)
    (finds : ix.Finds eager offset bs (.ok (some l)) n) :
    ∃ marks' gaps', marks = marksOf [l] ++ marks' ∧ gaps = gapsOf [l] ++ gaps' ∧
      ix.Walk eager (offset + n) (bs.drop n) marks' gaps' := by
  have front := finds.front
  cases finds with
  | @known o d longest =>
    obtain ⟨marks', rfl, walk'⟩ := walk.after_known h longest
    have opcode : Lookup.opcode? ⟨offset, o.bytes, true, d⟩ = some o := dif_pos ⟨rfl, o.length_le⟩
    refine ⟨marks', gaps, ?_, rfl, walk'⟩
    rw [marksOf, List.filterMap_cons, opcode]
    rfl
  | unknown nonempty unmatched least =>
    have unmatched' : ∀ k < n, ∀ o, ¬ix.Candidate eager (bs.drop k) o := by
      intro k less o candidate
      rcases Nat.eq_zero_or_pos k with rfl | positive
      · exact unmatched o candidate
      · exact Nat.not_le_of_lt less (least.2 ⟨positive, .inr (.inr ⟨o, candidate⟩)⟩)
    obtain ⟨gaps', rfl, walk'⟩ :=
      walk.after_run (le_length_of_isLeast nonempty least) unmatched'
    refine ⟨marks, gaps', rfl, ?_, walk'⟩
    change _ = List.range' offset (bs.take n).length ++ [] ++ gaps'
    rw [List.append_nil, front.2.2]

namespace Reads

theorem flatten (reads : ix.Reads eager offset bs found) :
    (found.map (·.bytes)).flatten = bs := by
  induction reads with
  | nil => rfl
  | @cons offset n bs l found finds _ ih =>
    rw [List.map_cons, List.flatten_cons, ih, finds.front.2.1, List.take_append_drop]

theorem contiguous (reads : ix.Reads eager offset bs found) : Contiguous offset found := by
  induction reads with
  | nil => trivial
  | cons finds _ ih =>
    obtain ⟨start, -, size⟩ := finds.front
    exact ⟨start, by rwa [size]⟩

/-- An unknown run that another one follows is as long as runs may be. -/
theorem isChain_unknown (reads : ix.Reads eager offset bs found) :
    found.IsChain fun l next ↦
      l.known = false → next.known = false → l.bytes.length = ix.config.chunkSize := by
  induction reads with
  | nil => exact .nil
  | @cons offset n bs l found finds rest ih =>
    refine List.isChain_cons.2 ⟨fun next first ↦ ?_, ih⟩
    generalize behind : bs.drop n = bs' at rest
    cases rest with
    | nil => cases first
    | cons finds' =>
      cases first
      intro unknown unknown'
      have size := finds.front.2.2
      cases finds with
      | known => cases unknown
      | unknown _ _ least =>
        cases finds' with
        | known => cases unknown'
        | unknown nonempty unmatched =>
          rcases least.1.2 with most | all | ⟨o, candidate⟩
          · exact size.trans most
          · rw [all, List.drop_length] at behind
            exact absurd behind.symm nonempty
          · exact absurd (behind ▸ candidate) (unmatched o)

/-- What is found comes to what the walk comes to. -/
theorem marks_gaps (h : ix.Searchable) (reads : ix.Reads eager offset bs found)
    (walk : ix.Walk eager offset bs marks gaps) : marksOf found = marks ∧ gapsOf found = gaps := by
  induction reads generalizing marks gaps with
  | nil =>
    cases walk with
    | nil => exact ⟨rfl, rfl⟩
    | known longest => exact absurd rfl (longest.1.ne_nil h)
  | @cons offset n bs l found finds _ ih =>
    obtain ⟨marks', gaps', rfl, rfl, walk'⟩ := walk.after_finds h finds
    obtain ⟨rfl, rfl⟩ := ih walk'
    rw [← List.singleton_append, marksOf, gapsOf, List.filterMap_append, List.filter_append,
      List.flatMap_append]
    exact ⟨rfl, rfl⟩

end Reads

/-! ## Scans -/

/-- Lookups one after the other up to one that finds the end. -/
inductive Calls (ix : Index δ) (eager : Bool) : Window → List (Lookup δ) → Window → Prop
  | ended {w w' : Window} : ix.lookup eager w = .ok none w' → Calls ix eager w [] w'
  | found {w w₁ w' : Window} {l : Lookup δ} {found : List (Lookup δ)} :
      ix.lookup eager w = .ok (some l) w₁ → Calls ix eager w₁ found w' →
      Calls ix eager w (l :: found) w'

/-- The scan went through the bytes of a window up to the end. -/
structure Exhausts (ix : Index δ) (eager : Bool) (w : Window) (s : Scan δ) : Prop where
  calls : ix.Calls eager w s.found s.window
  failure : s.failure = none
  reads : ix.Reads eager w.totalRead w.remaining s.found

theorem length_remaining_le_reserve (w : Window) : w.remaining.length ≤ reserve w := by
  rw [Window.remaining, List.length_append, reserve, Window.upcoming]
  refine Nat.add_le_add_left ?_ _
  split
  · exact Nat.zero_le _
  · exact (Source.visible_isPrefix _ _).length_le

variable {w : Window}

/-- Where what the walk marks can be loaded, a lookup does not fail. -/
theorem lookup_of_walk (h : ix.Searchable) (smooth : w.Smooth)
    (countable : ix.config.chunkSize + ix.maxOpcodeLength < addressBound ∨
      w.remaining.length < addressBound)
    (walk : ix.Walk eager w.totalRead w.remaining marks gaps)
    (loads : ∀ m ∈ marks, ∃ d, ix.descriptor m.2 = .ok (some d)) :
    ∃ found n w', ix.lookup eager w = .ok found w' ∧
      ix.Finds eager w.totalRead w.remaining (.ok found) n ∧ w.Moved n w' := by
  obtain ⟨n, finds, moved⟩ := finds_lookup h eager smooth countable
  cases looked : ix.lookup eager w with
  | ok found w' =>
    rw [looked] at finds moved
    exact ⟨found, n, w', rfl, finds, moved⟩
  | error e w' =>
    rw [looked] at finds
    cases finds with
    | broken longest failed =>
      obtain ⟨marks', rfl, -⟩ := walk.after_known h longest
      obtain ⟨d, loaded⟩ := loads _ (List.mem_cons_self ..)
      cases failed.symm.trans loaded

/-- Lookups one after the other come to the end, if as many are made as there are
bytes, and one more. -/
theorem exhausts_scanFor (h : ix.Searchable) (smooth : w.Smooth)
    (countable : ix.config.chunkSize + ix.maxOpcodeLength < addressBound ∨
      w.remaining.length < addressBound)
    (walk : ix.Walk eager w.totalRead w.remaining marks gaps)
    (loads : ∀ m ∈ marks, ∃ d, ix.descriptor m.2 = .ok (some d)) {count : Nat}
    (enough : w.remaining.length < count) : ix.Exhausts eager w (ix.scanFor eager count w) := by
  -- The walk goes along: what is left of it is the walk through what is left.
  induction count generalizing w marks gaps with
  | zero => cases enough
  | succ count ih =>
    obtain ⟨found, n, w', looked, finds, moved⟩ := lookup_of_walk h smooth countable walk loads
    rw [scanFor, looked]
    cases found with
    | none =>
      cases finds with
      | finished ended => exact ⟨.ended looked, rfl, ended ▸ .nil _⟩
    | some l =>
      obtain ⟨marks', gaps', rfl, rfl, walk'⟩ := walk.after_finds h finds
      rw [← moved.totalRead_eq, ← moved.remaining_eq smooth] at walk'
      have shorter : w'.remaining.length < count := by
        have := finds.pos h
        have := moved.le_remaining smooth
        rw [moved.remaining_eq smooth, List.length_drop]
        omega
      have rest := ih (moved.smooth smooth)
        (countable.imp_right (Nat.lt_of_le_of_lt (moved.length_remaining_le smooth))) walk'
        (fun m member ↦ loads m (List.mem_append_right _ member)) shorter
      have reads := rest.reads
      rw [moved.totalRead_eq, moved.remaining_eq smooth] at reads
      exact ⟨.found looked rest.calls, rest.failure, .cons finds reads⟩

/-! ## The size of chunks -/

/-- The index with unknown runs of at most `size` bytes. -/
def chunked (ix : Index δ) (size : Nat) : Index δ :=
  { ix with config := { ix.config with unknownChunk := size } }

theorem openFile_chunked {factory : Factory δ} {config : Config} {file : File}
    (opened : openFile factory config file = .ok ix) (size : Nat) :
    openFile factory { config with unknownChunk := size } file = .ok (ix.chunked size) := by
  obtain ⟨conforms, rfl⟩ := openFile_eq_ok_iff_conforms.1 opened
  exact openFile_eq_ok_iff_conforms.2 ⟨conforms, rfl⟩

/-- What must hold of a scan of a window, if the walk through its bytes has the given
marks and gaps. -/
structure Follows (ix : Index δ) (eager : Bool) (w : Window) (marks : List (Nat × Opcode))
    (gaps : List Nat) (s : Scan δ) : Prop where
  /-- Repeated lookups come to the end. -/
  calls : ix.Calls eager w s.found s.window
  failure : s.failure = none
  /-- They find all bytes, in their order. -/
  bytes : (s.found.map (·.bytes)).flatten = w.remaining
  offsets : Contiguous w.totalRead s.found
  /-- An unknown run that another one follows is as long as runs may be. -/
  unknown : s.found.IsChain fun l next ↦
    l.known = false → next.known = false → l.bytes.length = ix.config.chunkSize
  marks_eq : marksOf s.found = marks
  gaps_eq : gapsOf s.found = gaps

/-- How long an unknown run may be does not matter to a scan.  Where it finds opcodes,
which ones, and what bytes are in none, is what a walk through the bytes comes to.
All that is asked for is that the opcodes that it marks can be loaded. -/
theorem scan_follows_walk {factory : Factory δ} {config : Config} {file : File}
    (opened : openFile factory config file = .ok ix) (verify : config.verifyOrder = true)
    (eager : Bool) (smooth : w.Smooth) :
    ∃ marks gaps, ix.Walk eager w.totalRead w.remaining marks gaps ∧
      ((∀ m ∈ marks, ∃ d, ix.descriptor m.2 = .ok (some d)) →
        ∀ size, (max size 1 + ix.maxOpcodeLength < addressBound ∨
            w.remaining.length < addressBound) →
          openFile factory { config with unknownChunk := size } file = .ok (ix.chunked size) ∧
            (ix.chunked size).Follows eager w marks gaps ((ix.chunked size).scan eager w)) := by
  have image := openFile_eq_ok_iff.1 opened
  have searchable : ix.Searchable := ⟨image.sorted verify, fun o ↦ image.opcode_ne_nil⟩
  obtain ⟨marks, gaps, walk⟩ := exists_walk searchable eager w.totalRead w.remaining
  refine ⟨marks, gaps, walk, fun loads size countable ↦ ⟨openFile_chunked opened size, ?_⟩⟩
  have searchable' : (ix.chunked size).Searchable := ⟨searchable.sorted, searchable.ne_nil⟩
  have walk' : (ix.chunked size).Walk eager w.totalRead w.remaining marks gaps := walk.congr rfl
  have exhausts := exhausts_scanFor searchable' smooth countable walk' loads
    (Nat.lt_succ_of_le (length_remaining_le_reserve w))
  obtain ⟨marks_eq, gaps_eq⟩ := exhausts.reads.marks_gaps searchable' walk'
  exact ⟨exhausts.calls, exhausts.failure, exhausts.reads.flatten, exhausts.reads.contiguous,
    exhausts.reads.isChain_unknown, marks_eq, gaps_eq⟩

/-- An opcode that begins behind a byte of its own beginning, and an unknown run of two
bytes: runs of one byte and of any length. -/
theorem scan_follows_walk_behind_own_beginning :
    let nop : Opcode := ⟨[0x90], by decide⟩
    let jump : Opcode := ⟨[0x0F, 0x84], by decide⟩
    let file : File :=
      ⟨[0x4F, 0x50, 0x49, 0x58, 2, 0, 0, 0, 4, 0, 2, 0, 1, 0x90, 0, 0, 0, 0, 2, 0x0F, 0x84, 0, 1, 0,
        0xAA, 0xBB], by decide⟩
    let ix : Index Bytes := ⟨.raw, file, ⟨2, 4, 2⟩, [⟨nop, 0⟩, ⟨jump, 1⟩], {}⟩
    let w : Window :=
      { source :=
          { data := [0x0F, 0x0F, 0x84, 0x41, 0x42, 0x90, 0x0F], plan := [.interrupt, .deliver 1] } }
    let longest : Index Bytes := ix.chunked (2 ^ 64 - 1)
    openFile .raw {} file = .ok ix ∧ w.Smooth ∧
      (ix.chunked 0).Follows true w [(1, jump), (5, nop)] [0, 3, 4, 6]
        ((ix.chunked 0).scan true w) ∧
      longest.Follows true w [(1, jump), (5, nop)] [0, 3, 4, 6] (longest.scan true w) := by
  intro nop jump file ix w longest
  have opened : openFile .raw {} file = .ok ix := by cbv
  have smooth : w.Smooth := .fresh (Source.steady_of_forall (by decide)) (by decide)
  obtain ⟨marks, gaps, walk, follows⟩ := scan_follows_walk opened rfl true smooth
  have loads : ∀ m ∈ marks, ∃ d, ix.descriptor m.2 = .ok (some d) := by
    intro m marked
    have listed : m.2 ∈ [nop, jump] := walk.listed m marked
    obtain same | same : m.2 = nop ∨ m.2 = jump := by simpa using listed
    · exact ⟨[0xAA], by rw [same]; cbv⟩
    · exact ⟨[0xBB], by rw [same]; cbv⟩
  have short := (follows loads 0 (.inl (by decide))).2
  have long := (follows loads (2 ^ 64 - 1) (.inr (by decide))).2
  have found : marksOf ((ix.chunked 0).scan true w).found = [(1, jump), (5, nop)] := by cbv
  have missed : gapsOf ((ix.chunked 0).scan true w).found = [0, 3, 4, 6] := by cbv
  obtain rfl := short.marks_eq.symm.trans found
  obtain rfl := short.gaps_eq.symm.trans missed
  exact ⟨opened, smooth, short, long⟩

end Disasm.Index
