import Disasm.Image.Builder
import Disasm.Proofs.Opcode.Order

/-!
# What a builder holds

A builder is a map from opcodes to descriptors: its entries stand by strictly
increasing opcodes, and a later descriptor takes the place of an earlier one.
`Valid` is the invariant, kept by every addition; `addAll` runs a sequence of
additions, some of which may fail.
-/

namespace Disasm.Image.Builder

variable {δ : Type}

/-- Entries by strictly increasing opcodes. -/
def Ascending (es : List (Entry δ)) : Prop :=
  es.Pairwise fun a b ↦ compare a.opcode b.opcode = .lt

/-- The bytes that all descriptors announced. -/
def sizes (es : List (Entry δ)) : Nat := (es.map (·.size)).sum

theorem sizes_cons (e : Entry δ) (es : List (Entry δ)) : sizes (e :: es) = e.size + sizes es := rfl

theorem sizes_append (es es' : List (Entry δ)) : sizes (es ++ es') = sizes es + sizes es' := by
  rw [sizes, List.map_append, List.sum_append]
  rfl

/-- The bytes that the descriptor of an opcode announced. -/
def sizeOf (o : Opcode) (es : List (Entry δ)) : Nat :=
  ((es.find? (·.opcode = o)).map (·.size)).getD 0

/-! ## Inserting an entry -/

section Insert

variable {e x : Entry δ} {es : List (Entry δ)} {o : Opcode}

theorem find?_insertEntry (e : Entry δ) (es : List (Entry δ)) (o : Opcode) :
    (insertEntry e es).find? (·.opcode = o) =
      if e.opcode = o then some e else es.find? (·.opcode = o) := by
  induction es with
  | nil =>
    by_cases same : e.opcode = o <;> simp [insertEntry, same]
  | cons first rest ih =>
    rw [insertEntry]
    cases ordering : compare e.opcode first.opcode with
    | lt => by_cases same : e.opcode = o <;> simp [same]
    | eq =>
      have equal := Std.LawfulEqCmp.eq_of_compare ordering
      by_cases same : e.opcode = o
      · simp [same]
      · have other : ¬first.opcode = o := equal ▸ same
        simp [same, other]
    | gt =>
      by_cases here : first.opcode = o
      · have other : ¬e.opcode = o := by
          rintro rfl
          rw [here, Std.ReflOrd.compare_self] at ordering
          cases ordering
        simp [here, other]
      · simp only [List.find?_cons, here, decide_false, ih]

theorem get?_insert (e : Entry δ) (b : Builder δ) (o : Opcode) :
    (b.insert e).get? o = if e.opcode = o then some e.descriptor else b.get? o := by
  have found : entry? o (b.insert e) = if e.opcode = o then some e else entry? o b :=
    find?_insertEntry e b.entries o
  rw [get?, found]
  split
  · rfl
  · rfl

theorem eq_or_mem_of_mem_insertEntry (h : x ∈ insertEntry e es) : x = e ∨ x ∈ es := by
  induction es with
  | nil => exact .inl (List.mem_singleton.1 h)
  | cons first rest ih =>
    rw [insertEntry] at h
    cases ordering : compare e.opcode first.opcode with
    | lt =>
      rw [ordering] at h
      exact List.mem_cons.1 h
    | eq =>
      rw [ordering] at h
      exact (List.mem_cons.1 h).imp_right (List.mem_cons_of_mem first)
    | gt =>
      rw [ordering] at h
      rcases List.mem_cons.1 h with rfl | later
      · exact .inr (List.mem_cons_self ..)
      · exact (ih later).imp_right (List.mem_cons_of_mem first)

theorem Ascending.insertEntry (h : Ascending es) (e : Entry δ) :
    Ascending (insertEntry e es) := by
  induction es with
  | nil => exact List.pairwise_singleton _ _
  | cons first rest ih =>
    obtain ⟨before, ordered⟩ := List.pairwise_cons.1 h
    rw [Builder.insertEntry]
    cases ordering : compare e.opcode first.opcode with
    | lt =>
      refine List.pairwise_cons.2 ⟨fun x member ↦ ?_, h⟩
      rcases List.mem_cons.1 member with rfl | member
      · exact ordering
      · exact Std.TransCmp.lt_trans ordering (before x member)
    | eq =>
      have equal := Std.LawfulEqCmp.eq_of_compare ordering
      exact List.pairwise_cons.2 ⟨fun x member ↦ equal ▸ before x member, ordered⟩
    | gt =>
      refine List.pairwise_cons.2 ⟨fun x member ↦ ?_, ih ordered⟩
      rcases eq_or_mem_of_mem_insertEntry member with rfl | member
      · exact Std.OrientedCmp.lt_of_gt ordering
      · exact before x member

/-- An entry is found by its opcode. -/
theorem Ascending.find?_eq (h : Ascending es) (member : e ∈ es) :
    es.find? (·.opcode = e.opcode) = some e := by
  induction es with
  | nil => cases member
  | cons first rest ih =>
    obtain ⟨before, ordered⟩ := List.pairwise_cons.1 h
    rcases List.mem_cons.1 member with rfl | later
    · simp
    · have other : ¬first.opcode = e.opcode := by
        intro same
        have lt := before e later
        rw [same, Std.ReflOrd.compare_self] at lt
        cases lt
      simp only [List.find?_cons, other, decide_false, ih ordered later]

theorem Ascending.get?_eq {b : Builder δ} (h : Ascending b.entries) (member : e ∈ b.entries) :
    b.get? e.opcode = some e.descriptor :=
  congrArg (Option.map Entry.descriptor) (h.find?_eq member)

theorem isSome_get? {b : Builder δ} : (b.get? o).isSome ↔ o ∈ b.entries.map (·.opcode) := by
  rw [get?, Option.isSome_map, entry?, List.find?_isSome, List.mem_map]
  simp only [decide_eq_true_eq]

/-- The last opcode is the longest. -/
theorem Ascending.length_le (h : Ascending es) {last : Entry δ} (ends : es.getLast? = some last)
    (member : e ∈ es) : e.opcode.length ≤ last.opcode.length := by
  obtain ⟨front, rfl⟩ := List.getLast?_eq_some_iff.1 ends
  rcases List.mem_append.1 member with early | here
  · have := (List.pairwise_append.1 h).2.2 e early last (List.mem_singleton_self _)
    exact Opcode.length_le_of_lt this
  · exact Nat.le_of_eq (congrArg (·.opcode.length) (List.mem_singleton.1 here))

theorem sizeOf_of_lt (lt : ∀ x ∈ es, compare o x.opcode = .lt) : sizeOf o es = 0 := by
  have absent : es.find? (·.opcode = o) = none := by
    refine List.find?_eq_none.2 fun x member same ↦ ?_
    have := lt x member
    rw [of_decide_eq_true same, Std.ReflOrd.compare_self] at this
    cases this
  rw [sizeOf, absent]
  rfl

theorem sizeOf_cons (first : Entry δ) (rest : List (Entry δ)) (o : Opcode) :
    sizeOf o (first :: rest) = if first.opcode = o then first.size else sizeOf o rest := by
  rw [sizeOf, List.find?_cons]
  by_cases same : first.opcode = o <;> simp [same, sizeOf]

theorem sizeOf_le_sizes (o : Opcode) (es : List (Entry δ)) : sizeOf o es ≤ sizes es := by
  induction es with
  | nil => exact Nat.le_refl 0
  | cons first rest ih =>
    rw [sizeOf_cons, sizes_cons]
    split
    · exact Nat.le_add_right _ _
    · exact Nat.le_add_left_of_le ih

/-- The size of an entry takes the place of the size that its opcode had. -/
theorem sizes_insertEntry (h : Ascending es) (e : Entry δ) :
    sizes (insertEntry e es) + sizeOf e.opcode es = sizes es + e.size := by
  induction es with
  | nil => exact Nat.add_comm (e.size + 0) 0
  | cons first rest ih =>
    obtain ⟨before, ordered⟩ := List.pairwise_cons.1 h
    rw [insertEntry]
    cases ordering : compare e.opcode first.opcode with
    | lt =>
      have absent : sizeOf e.opcode (first :: rest) = 0 := by
        refine sizeOf_of_lt fun x member ↦ ?_
        rcases List.mem_cons.1 member with rfl | member
        · exact ordering
        · exact Std.TransCmp.lt_trans ordering (before x member)
      rw [absent, sizes_cons, Nat.add_zero, Nat.add_comm]
    | eq =>
      have equal := Std.LawfulEqCmp.eq_of_compare ordering
      rw [sizeOf_cons, if_pos equal.symm, sizes_cons, sizes_cons]
      omega
    | gt =>
      have other : ¬first.opcode = e.opcode := by
        intro same
        rw [same, Std.ReflOrd.compare_self] at ordering
        cases ordering
      have := ih ordered
      rw [sizeOf_cons, if_neg other, sizes_cons, sizes_cons]
      omega

end Insert

/-! ## The invariant -/

/-- Descriptors that have the same stored form each time they are saved. -/
class Stable (δ : Type) [Descriptor δ] : Prop where
  save_again (d : δ) : (Descriptor.save (Descriptor.save d).2).1 = (Descriptor.save d).1

instance : Stable Instruction := ⟨fun _ ↦ rfl⟩

variable [Descriptor δ]

/-- The descriptor has the same stored form when it is saved again. -/
def Steady (d : δ) : Prop := (Descriptor.save (Descriptor.save d).2).1 = (Descriptor.save d).1

/-- The stored form of an entry's descriptor, as long as it announced. -/
structure Stored (e : Entry δ) (bs : Bytes) : Prop where
  saved : (Descriptor.save e.descriptor).1 = .ok bs
  size_eq : e.size = bs.length

/-- What holds of every builder. -/
structure Valid (b : Builder δ) : Prop where
  ascending : Ascending b.entries
  nonempty : ∀ e ∈ b.entries, ¬e.opcode.isEmpty
  stored : ∀ e ∈ b.entries, ∃ bs, Stored e bs
  payloadSize_eq : b.payloadSize = sizes b.entries

variable {b b' : Builder δ} {o : Opcode} {d : δ}

theorem valid_empty : Valid ({} : Builder δ) where
  ascending := List.Pairwise.nil
  nonempty := nofun
  stored := nofun
  payloadSize_eq := rfl

theorem Valid.insert (h : b.Valid) {e : Entry δ} (nonempty : ¬e.opcode.isEmpty)
    (stored : ∃ bs, Stored e bs) : (b.insert e).Valid where
  ascending := h.ascending.insertEntry e
  nonempty x member := by
    rcases eq_or_mem_of_mem_insertEntry member with rfl | member
    · exact nonempty
    · exact h.nonempty x member
  stored x member := by
    rcases eq_or_mem_of_mem_insertEntry member with rfl | member
    · exact stored
    · exact h.stored x member
  payloadSize_eq := by
    have sum := sizes_insertEntry h.ascending e
    have le := sizeOf_le_sizes e.opcode b.entries
    change b.payloadSize - sizeOf e.opcode b.entries + e.size = sizes (insertEntry e b.entries)
    rw [h.payloadSize_eq]
    omega

/-! ## Adding -/

theorem add_eq_ok_iff : b.add o d = .ok b' ↔
    ¬o.isEmpty ∧ ∃ bs, (Descriptor.save d).1 = .ok bs ∧
      b' = b.insert ⟨o, (Descriptor.save d).2, bs.length⟩ := by
  rw [add]
  by_cases empty : o.isEmpty = true
  · simp [empty]
  · rw [if_neg empty, and_iff_right empty]
    rcases Descriptor.save d with ⟨saved, d'⟩
    cases saved with
    | error e => simp
    | ok bs => simp [eq_comm]

theorem add_eq_error_iff {e : Error} : b.add o d = .error e ↔
    o.isEmpty ∧ e = .empty ∨ ¬o.isEmpty ∧ (Descriptor.save d).1 = .error e := by
  rw [add]
  by_cases empty : o.isEmpty = true
  · simp [empty, eq_comm]
  · rw [if_neg empty]
    rcases Descriptor.save d with ⟨saved, d'⟩
    cases saved with
    | error err => simp [empty]
    | ok bs => simp [empty]

theorem Valid.add (h : b.Valid) (steady : Steady d) (added : b.add o d = .ok b') : b'.Valid := by
  obtain ⟨nonempty, bs, saved, rfl⟩ := add_eq_ok_iff.1 added
  exact h.insert nonempty ⟨bs, steady.trans saved, rfl⟩

/-- Runs additions one after the other, and goes on after one that fails.  Gives
those that succeeded and the builder after them. -/
def addAll : List (Opcode × δ) → Builder δ → List (Opcode × δ) × Builder δ
  | [], b => ([], b)
  | (o, d) :: rest, b =>
    match b.add o d with
    | .error _ => addAll rest b
    | .ok b' => ((o, d) :: (addAll rest b').1, (addAll rest b').2)

theorem addAll_append (adds adds' : List (Opcode × δ)) (b : Builder δ) :
    addAll (adds ++ adds') b = ((addAll adds b).1 ++ (addAll adds' (addAll adds b).2).1,
      (addAll adds' (addAll adds b).2).2) := by
  induction adds generalizing b with
  | nil => rfl
  | cons first rest ih =>
    obtain ⟨o, d⟩ := first
    rw [List.cons_append, addAll, addAll]
    cases b.add o d with
    | error e => exact ih b
    | ok b' =>
      dsimp only
      rw [ih]
      rfl

theorem Valid.addAll_of_steady (h : b.Valid) {adds : List (Opcode × δ)}
    (steady : ∀ a ∈ (addAll adds b).1, Steady a.2) : (addAll adds b).2.Valid := by
  induction adds generalizing b with
  | nil => exact h
  | cons first rest ih =>
    obtain ⟨o, d⟩ := first
    rw [Builder.addAll] at steady ⊢
    cases added : b.add o d with
    | error e =>
      rw [added] at steady
      exact ih h steady
    | ok b' =>
      rw [added] at steady
      obtain ⟨first, rest⟩ := List.forall_mem_cons.1 steady
      exact ih (h.add first added) rest

theorem Valid.addAll [Stable δ] (h : b.Valid) (adds : List (Opcode × δ)) :
    (addAll adds b).2.Valid :=
  h.addAll_of_steady fun a _ ↦ Stable.save_again a.2

/-- An opcode has the descriptor that was added for it last. -/
theorem get?_addAll (adds : List (Opcode × δ)) (b : Builder δ) (o : Opcode) :
    (addAll adds b).2.get? o =
      (((addAll adds b).1.reverse.lookup o).map fun d ↦ (Descriptor.save d).2).or (b.get? o) := by
  induction adds generalizing b with
  | nil => rfl
  | cons first rest ih =>
    obtain ⟨o', d⟩ := first
    rw [Builder.addAll]
    cases added : b.add o' d with
    | error e => exact ih b
    | ok b' =>
      obtain ⟨-, bs, -, rfl⟩ := add_eq_ok_iff.1 added
      dsimp only
      rw [ih, get?_insert, List.reverse_cons, List.lookup_append, Option.map_or, Option.or_assoc]
      congr 1
      by_cases same : o' = o
      · subst same
        rw [if_pos rfl, List.lookup_cons_self]
        rfl
      · rw [if_neg same, List.lookup_cons, beq_false_of_ne (Ne.symm same)]
        rfl

end Disasm.Image.Builder
