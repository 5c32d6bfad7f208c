import Disasm.Index.Basic
import Disasm.Proofs.Opcode.Order

/-!
# Searching a table

In a table by strictly increasing opcodes the search finds an opcode exactly
where it stands.  The invariant of the halving is that the place looked for, if
there is one, stays among the entries that are left.
-/

namespace Disasm.Index

/-- Entries by strictly increasing opcodes. -/
def Sorted (entries : List Entry) : Prop :=
  entries.Pairwise fun a b ↦ compare a.opcode b.opcode = .lt

namespace Sorted

variable {entries : List Entry} {i j : Nat} {a b : Entry}

theorem lt_of_lt (h : Sorted entries) (ha : entries[i]? = some a) (hb : entries[j]? = some b)
    (lt : i < j) : compare a.opcode b.opcode = .lt := by
  obtain ⟨hi, rfl⟩ := List.getElem?_eq_some_iff.1 ha
  obtain ⟨hj, rfl⟩ := List.getElem?_eq_some_iff.1 hb
  exact List.pairwise_iff_getElem.1 h i j hi hj lt

/-- An entry behind another has a greater opcode, and none but it. -/
theorem compare_eq (h : Sorted entries) (ha : entries[i]? = some a)
    (hb : entries[j]? = some b) : compare a.opcode b.opcode = compare i j := by
  rcases Nat.lt_trichotomy i j with lt | rfl | gt
  · rw [h.lt_of_lt ha hb lt, Nat.compare_eq_lt.2 lt]
  · rw [Option.some.inj (ha.symm.trans hb), Std.ReflOrd.compare_self, Std.ReflOrd.compare_self]
  · rw [Std.OrientedCmp.gt_of_lt (h.lt_of_lt hb ha gt), Nat.compare_eq_gt.2 gt]

theorem nodup (h : Sorted entries) : (entries.map (·.opcode)).Nodup := by
  refine List.pairwise_map.2 (h.imp fun {a b} lt same ↦ ?_)
  rw [same, Std.ReflOrd.compare_self] at lt
  cases lt

/-- Halving comes to the place of an opcode from all entries around it. -/
theorem narrow_eq (h : Sorted entries) {base size : Nat} (found : entries[i]? = some a)
    (low : base ≤ i) (high : i < base + size) (fits : base + size ≤ entries.length) :
    narrow entries a.opcode.bytes base size = i := by
  fun_induction narrow entries a.opcode.bytes base size with
  | case1 base size small => omega
  | case2 base size large half behind ih =>
    have mid : base + half < entries.length := by omega
    have ordering : entries[base + half].opcode.bytes.shortlex a.opcode.bytes =
        compare (base + half) i := h.compare_eq (List.getElem?_eq_getElem mid) found
    have side : behind = true ↔ i < base + half := by
      simp only [behind, List.getElem?_eq_getElem mid, Option.any_some, ordering,
        Nat.compare_eq_gt, decide_eq_true_iff]
    by_cases before : i < base + half
    · rw [dif_pos (side.2 before)] at ih
      rw [if_pos (side.2 before)]
      exact ih low (by omega) (by omega)
    · rw [dif_neg (mt side.1 before)] at ih
      rw [if_neg (mt side.1 before)]
      exact ih (by omega) (by omega) (by omega)

end Sorted

variable {δ : Type} {ix : Index δ} {bs : Bytes} {place : Nat}

/-- What is found has the bytes that were looked for. -/
theorem getElem?_of_find? (h : ix.find? bs = some place) :
    ∃ e, ix.entries[place]? = some e ∧ e.opcode.bytes = bs := by
  rw [find?] at h
  split at h
  next found =>
    cases h
    obtain ⟨e, there, same⟩ := (Option.any_eq_true _ _).1 found
    exact ⟨e, there, Std.LawfulEqCmp.eq_of_compare (of_decide_eq_true same)⟩
  next => cases h

/-- The search finds an opcode exactly where it stands. -/
theorem find?_eq_some_iff (sorted : Sorted ix.entries) :
    ix.find? bs = some place ↔ ∃ e, ix.entries[place]? = some e ∧ e.opcode.bytes = bs := by
  constructor
  · exact getElem?_of_find?
  · rintro ⟨e, there, rfl⟩
    obtain ⟨inside, rfl⟩ := List.getElem?_eq_some_iff.1 there
    rw [find?, sorted.narrow_eq there (Nat.zero_le _) (by omega) (by omega)]
    simp only [there, Option.any_some, Std.ReflCmp.compare_self, decide_true, if_true]

theorem isSome_find? (sorted : Sorted ix.entries) :
    (ix.find? bs).isSome ↔ ∃ o ∈ ix.opcodes, o.bytes = bs := by
  rw [Option.isSome_iff_exists]
  constructor
  · rintro ⟨place, found⟩
    obtain ⟨e, there, rfl⟩ := getElem?_of_find? found
    exact ⟨e.opcode, List.mem_map_of_mem (List.mem_of_getElem? there), rfl⟩
  · rintro ⟨o, listed, rfl⟩
    obtain ⟨e, member, rfl⟩ := List.mem_map.1 listed
    obtain ⟨place, there⟩ := List.getElem?_of_mem member
    exact ⟨place, (find?_eq_some_iff sorted).2 ⟨e, there, rfl⟩⟩

theorem descriptor_eq {e : Entry} (sorted : Sorted ix.entries)
    (there : ix.entries[place]? = some e) :
    ix.descriptor e.opcode = (ix.load place).map some := by
  rw [descriptor, (find?_eq_some_iff sorted).2 ⟨e, there, rfl⟩]

end Disasm.Index
