import Disasm.Index.Lookup
import Disasm.Proofs.Index.Search

/-!
# Which opcode the bytes begin with

A candidate is an opcode of the table that a byte list begins with.  In a table
in order, matching finds the longest candidate, and an unknown run ends where
the first candidate begins.  Both only need to see as many bytes as the longest
opcode has.
-/

namespace Disasm.Index

variable {δ : Type}

/-- An opcode of the table that the bytes begin with.  Not looking eagerly, only
opcodes of one byte count. -/
structure Candidate (ix : Index δ) (eager : Bool) (bs : Bytes) (o : Opcode) : Prop where
  listed : o ∈ ix.opcodes
  isPrefix : o.bytes <+: bs
  single : eager = false → o.length = 1

/-- A table that can be searched: in order, and with no empty opcode. -/
structure Searchable (ix : Index δ) : Prop where
  sorted : Sorted ix.entries
  ne_nil : ∀ o ∈ ix.opcodes, o.bytes ≠ []

variable {ix : Index δ} {eager : Bool} {bs : Bytes} {o : Opcode} {place : Nat}

theorem maxOpcodeLength_le_iff {n : Nat} :
    ix.maxOpcodeLength ≤ n ↔ ∀ o ∈ ix.opcodes, o.length ≤ n := by
  have fold : ∀ (entries : List Entry) (start : Nat),
      entries.foldl (fun longest e ↦ max longest e.opcode.length) start ≤ n ↔
        start ≤ n ∧ ∀ e ∈ entries, e.opcode.length ≤ n := by
    intro entries
    induction entries with
    | nil => simp
    | cons first rest ih =>
      intro start
      rw [List.foldl_cons, ih, Nat.max_le, List.forall_mem_cons, and_assoc]
  rw [maxOpcodeLength, fold, opcodes, List.forall_mem_map]
  exact and_iff_right (Nat.zero_le n)

theorem length_le_maxOpcodeLength (listed : o ∈ ix.opcodes) : o.length ≤ ix.maxOpcodeLength :=
  maxOpcodeLength_le_iff.1 (Nat.le_refl _) o listed

/-- Bytes behind the longest opcode do not matter. -/
theorem candidate_take_iff {n : Nat} (enough : ix.maxOpcodeLength ≤ n) :
    ix.Candidate eager (bs.take n) o ↔ ix.Candidate eager bs o := by
  constructor
  · rintro ⟨listed, begins, single⟩
    exact ⟨listed, begins.trans (List.take_prefix n bs), single⟩
  · rintro ⟨listed, begins, single⟩
    refine ⟨listed, List.prefix_take_iff.2 ⟨begins, ?_⟩, single⟩
    exact Nat.le_trans (length_le_maxOpcodeLength listed) enough

/-! ## The longest candidate -/

/-- The place is that of the longest opcode that satisfies `p`; there is no place
if none does. -/
def Longest (ix : Index δ) (p : Opcode → Prop) : Option Nat → Prop
  | none => ∀ o, ¬p o
  | some place => ∃ e, ix.entries[place]? = some e ∧ p e.opcode ∧
      ∀ o, p o → o.length ≤ e.opcode.length

theorem Longest.congr {p q : Opcode → Prop} {found : Option Nat} (h : ix.Longest p found)
    (same : ∀ o, p o ↔ q o) : ix.Longest q found :=
  (funext fun o ↦ propext (same o) : p = q) ▸ h

theorem Longest.isSome_iff {p : Opcode → Prop} {found : Option Nat} (h : ix.Longest p found) :
    found.isSome ↔ ∃ o, p o := by
  cases found with
  | none => exact ⟨nofun, fun ⟨o, holds⟩ ↦ absurd holds (h o)⟩
  | some place =>
    obtain ⟨e, -, holds, -⟩ := h
    exact ⟨fun _ ↦ ⟨e.opcode, holds⟩, fun _ ↦ rfl⟩

/-- The opcodes of at most `length` bytes that the bytes begin with. -/
def Fits (ix : Index δ) (bs : Bytes) (length : Nat) (o : Opcode) : Prop :=
  o ∈ ix.opcodes ∧ o.bytes <+: bs ∧ o.length ≤ length

/-- Looking for ever shorter opcodes ends at the longest. -/
theorem longest?_spec (h : ix.Searchable) (bs : Bytes) (length : Nat) :
    ix.Longest (ix.Fits bs length) (ix.longest? bs length) := by
  induction length with
  | zero =>
    rintro o ⟨listed, -, short⟩
    exact h.ne_nil o listed (List.length_eq_zero_iff.1 (Nat.le_zero.1 short))
  | succ length ih =>
    rw [longest?]
    cases found : ix.find? (bs.take (length + 1)) with
    | some place =>
      obtain ⟨e, there, same⟩ := getElem?_of_find? found
      have size : e.opcode.length = min (length + 1) bs.length := by
        rw [Opcode.length, same, List.length_take]
      refine ⟨e, there, ⟨?_, same ▸ List.take_prefix _ _, by omega⟩, ?_⟩
      · exact List.mem_map_of_mem (List.mem_of_getElem? there)
      · rintro o ⟨-, begins, short⟩
        have := begins.length_le
        rw [size]
        exact Nat.le_min.2 ⟨short, this⟩
    | none =>
      refine ih.congr fun o ↦ ⟨fun fits ↦ ⟨fits.1, fits.2.1, Nat.le_succ_of_le fits.2.2⟩, ?_⟩
      rintro ⟨listed, begins, short⟩
      refine ⟨listed, begins, Nat.lt_succ_iff.1 (Nat.lt_of_le_of_ne short fun size ↦ ?_)⟩
      have whole : o.bytes = bs.take (length + 1) :=
        (List.prefix_iff_eq_take.1 begins).trans (congrArg (bs.take ·) size)
      have : (ix.find? (bs.take (length + 1))).isSome :=
        (isSome_find? h.sorted).2 ⟨o, listed, whole⟩
      rw [found] at this
      cases this

/-- Matching finds the longest candidate. -/
theorem match?_spec (h : ix.Searchable) (eager : Bool) (bs : Bytes) :
    ix.Longest (ix.Candidate eager bs) (ix.match? eager bs) := by
  rw [match?]
  cases eager with
  | true =>
    refine (longest?_spec h bs _).congr fun o ↦ ⟨fun fits ↦ ⟨fits.1, fits.2.1, nofun⟩, ?_⟩
    rintro ⟨listed, begins, -⟩
    exact ⟨listed, begins, Nat.le_min.2 ⟨length_le_maxOpcodeLength listed, begins.length_le⟩⟩
  | false =>
    refine (longest?_spec h bs _).congr fun o ↦ ⟨fun fits ↦ ⟨fits.1, fits.2.1, fun _ ↦ ?_⟩, ?_⟩
    · have filled : o.length ≠ 0 := mt List.length_eq_zero_iff.1 (h.ne_nil o fits.1)
      have := fits.2.2
      omega
    · rintro ⟨listed, begins, single⟩
      exact ⟨listed, begins, Nat.le_min.2 ⟨Nat.le_of_eq (single rfl), begins.length_le⟩⟩

/-- Matching at the front is decided by as many bytes as the longest opcode has. -/
theorem match?_take_spec (h : ix.Searchable) (eager : Bool) (bs : Bytes) {n : Nat}
    (enough : ix.maxOpcodeLength ≤ n) :
    ix.Longest (ix.Candidate eager bs) (ix.match? eager (bs.take n)) :=
  (match?_spec h eager (bs.take n)).congr fun _ ↦ candidate_take_iff enough

/-! ## Unknown runs -/

/-- Where an unknown run at the front of the bytes may end: after `most` bytes,
with the bytes, or where an opcode begins. -/
def runEnds (ix : Index δ) (eager : Bool) (most : Nat) (bs : Bytes) : Set Nat :=
  {r | 1 ≤ r ∧ (r = most ∨ r = bs.length ∨ ∃ o, ix.Candidate eager (bs.drop r) o)}

/-- A run ends with the bytes at the latest. -/
theorem le_length_of_isLeast {most r : Nat} (nonempty : bs ≠ [])
    (least : IsLeast (ix.runEnds eager most bs) r) : r ≤ bs.length :=
  least.2 ⟨List.length_pos_iff.2 nonempty, .inr (.inl rfl)⟩

/-- A run goes on to the first place where it may end. -/
theorem isLeast_runLength (h : ix.Searchable) (eager : Bool) (more length : Nat) (bs : Bytes) :
    IsLeast {r | length ≤ r ∧ (r = length + more ∨ r = length + bs.length ∨
        ∃ o, ix.Candidate eager (bs.drop (r - length)) o)}
      (ix.runLength eager more length bs) := by
  induction more generalizing length bs with
  | zero => exact ⟨⟨Nat.le_refl _, .inl rfl⟩, fun r end_ ↦ end_.1⟩
  | succ more ih =>
    cases bs with
    | nil => exact ⟨⟨Nat.le_refl _, .inr (.inl rfl)⟩, fun r end_ ↦ end_.1⟩
    | cons b bs =>
      rw [runLength]
      have spec := (match?_spec h eager (b :: bs)).isSome_iff
      split
      next begins =>
        refine ⟨⟨Nat.le_refl _, .inr (.inr ?_)⟩, fun r end_ ↦ end_.1⟩
        rw [Nat.sub_self]
        exact spec.1 begins
      next unmatched =>
        have shift : ∀ r, length + 1 ≤ r → (b :: bs).drop (r - length) =
            bs.drop (r - (length + 1)) := by
          intro r le
          obtain ⟨k, rfl⟩ := Nat.exists_eq_add_of_le le
          rw [show length + 1 + k - length = k + 1 by omega, List.drop_succ_cons,
            Nat.add_sub_cancel_left]
        obtain ⟨⟨le, ends⟩, least⟩ := ih (length + 1) bs
        refine ⟨⟨Nat.le_of_succ_le le, ?_⟩, ?_⟩
        · rw [shift _ le, List.length_cons]
          exact ends.imp (by omega) (.imp_left (by omega))
        · rintro r ⟨low, ends⟩
          -- The run cannot end at once: bytes follow and no opcode begins here.
          have later : length + 1 ≤ r := by
            refine Nat.lt_of_le_of_ne low fun same ↦ ?_
            subst same
            rw [Nat.sub_self, List.length_cons] at ends
            rcases ends with most | all | begins
            · omega
            · omega
            · exact unmatched (spec.2 begins)
          refine least ⟨later, ?_⟩
          rw [shift _ later, List.length_cons] at ends
          exact ends.imp (by omega) (.imp_left (by omega))

/-- To find where a run of at most `most` bytes ends, it is enough to look the
length of an opcode further. -/
theorem isLeast_runEnds (h : ix.Searchable) (eager : Bool) {most n : Nat} (positive : 1 ≤ most)
    {bs : Bytes} (nonempty : bs ≠ [])
    (enough : bs.length ≤ n ∨ most + ix.maxOpcodeLength ≤ n) :
    IsLeast (ix.runEnds eager most bs)
      (ix.runLength eager (most - 1) 1 (bs.take n).tail) := by
  have filled : bs.length ≠ 0 := mt List.length_eq_zero_iff.1 nonempty
  have size : (bs.take n).tail.length = min n bs.length - 1 := by
    rw [List.length_tail, List.length_take]
  have same : ∀ r, 1 ≤ r → r ≤ most →
      ((∃ o, ix.Candidate eager ((bs.take n).tail.drop (r - 1)) o) ↔
        ∃ o, ix.Candidate eager (bs.drop r) o) := by
    intro r low high
    have ahead : (bs.take n).tail.drop (r - 1) = (bs.drop r).take (n - r) := by
      rw [← List.drop_one, List.drop_drop, List.drop_take, show 1 + (r - 1) = r by omega]
    rw [ahead]
    rcases enough with all | enough
    · rw [List.take_of_length_le (by rw [List.length_drop]; omega)]
    · exact exists_congr fun o ↦ candidate_take_iff (by omega)
  obtain ⟨⟨low, ends⟩, least⟩ :=
    isLeast_runLength h eager (most - 1) 1 (bs.take n).tail
  have high := least ⟨positive, .inl (show most = 1 + (most - 1) by omega)⟩
  refine ⟨⟨low, ?_⟩, ?_⟩
  · rw [same _ low high, size] at ends
    rcases ends with ends | ends | ends
    · exact .inl (by omega)
    · omega
    · exact .inr (.inr ends)
  · rintro r ⟨low', ends'⟩
    by_cases early : r ≤ most
    · refine least ⟨low', ?_⟩
      rw [same _ low' early, size]
      rcases ends' with ends' | ends' | ends'
      · exact .inl (by omega)
      · omega
      · exact .inr (.inr ends')
    · exact Nat.le_trans high (Nat.le_of_not_le early)

end Disasm.Index
