import Disasm.Proofs.Image.Saving

/-!
# An image does not tell how it was built

A builder keeps its entries in order and its account of the sizes as it goes along,
so that its history could show in an image: in the order of the table, in the widths
of its fields, or in the positions.  It does not.  All that an image has of the
descriptors are their stored forms, `forms`, and these are the same for any two
builders that have the same stored form for each opcode.
-/

namespace Disasm.Image.Builder

variable {δ : Type} [Descriptor δ]

/-! ## The stored forms -/

/-- The builder with the stored form of each descriptor in its place. -/
def forms (b : Builder δ) : Builder Payload where
  entries := b.entries.map fun e ↦ ⟨e.opcode, .blob (storedBytes e), e.size⟩
  payloadSize := b.payloadSize

section Forms

variable (b : Builder δ)

@[simp] theorem payloadSize_forms : b.forms.payloadSize = b.payloadSize := rfl

@[simp] theorem size_forms : b.forms.size = b.size := List.length_map _

@[simp] theorem opcodeWidth_forms : b.forms.opcodeWidth = b.opcodeWidth := by
  simp only [opcodeWidth, maxOpcodeLength, forms, List.getLast?_map, Option.map_map]
  rfl

@[simp] theorem positionWidth_forms : b.forms.positionWidth = b.positionWidth := by
  simp only [positionWidth, lastPosition, forms, List.getLast?_map, Option.map_map]
  rfl

@[simp] theorem totalSize_forms : b.forms.totalSize = b.totalSize := by
  simp only [totalSize, opcodeWidth_forms, positionWidth_forms, size_forms, payloadSize_forms]

theorem tableFields_forms (opcodeWidth positionWidth : Nat) :
    tableFields opcodeWidth positionWidth 0 b.forms.entries =
      tableFields opcodeWidth positionWidth 0 b.entries := by
  rw [forms]
  generalize b.entries = es, 0 = position
  induction es generalizing position with
  | nil => rfl
  | cons e es ih =>
    rw [List.map_cons, tableFields, tableFields, ih]

theorem payload_forms : payload b.forms.entries = payload b.entries :=
  List.flatMap_map _ _ b.entries

variable {b}

theorem stored_forms (stored : ∀ e ∈ b.entries, ∃ bs, Stored e bs) :
    ∀ e ∈ b.forms.entries, ∃ bs, Stored e bs := by
  intro x member
  obtain ⟨e, there, rfl⟩ := List.mem_map.1 member
  obtain ⟨bs, saved⟩ := stored e there
  refine ⟨storedBytes e, rfl, ?_⟩
  rw [saved.storedBytes_eq]
  exact saved.size_eq

/-- Saving the stored forms comes to the same as saving the descriptors. -/
theorem save_forms (stored : ∀ e ∈ b.entries, ∃ bs, Stored e bs) (w : Writer) :
    (b.forms.save w).outcome = (b.save w).outcome ∧
      (b.forms.save w).writer = (b.save w).writer := by
  have header : b.forms.header = b.header := by
    simp only [Builder.header, size_forms, opcodeWidth_forms, positionWidth_forms]
  rw [save, save, size_forms, header, opcodeWidth_forms, positionWidth_forms, tableFields_forms]
  by_cases many : 2 ^ (32 : Nat) ≤ b.size
  · rw [if_pos many, if_pos many]
    exact ⟨rfl, rfl⟩
  · rw [if_neg many, if_neg many]
    dsimp only
    split
    next => exact ⟨rfl, rfl⟩
    next w' _ =>
      rw [writeDescriptors_eq (stored_forms stored), writeDescriptors_eq stored, payload_forms]
      split
      next => exact ⟨rfl, rfl⟩
      next => split <;> exact ⟨rfl, rfl⟩

theorem image_forms (stored : ∀ e ∈ b.entries, ∃ bs, Stored e bs) :
    b.forms.image.1 = b.image.1 := by
  obtain ⟨outcome, writer⟩ := save_forms stored {}
  rw [image, image]
  dsimp only
  rw [outcome, writer]

end Forms

/-! ## Builders with the same forms -/

variable {b b' : Builder δ}

/-- The stored form that a builder has for an opcode. -/
def form? (o : Opcode) (b : Builder δ) : Option (Except Error Bytes) :=
  (b.get? o).map fun d ↦ (Descriptor.save d).1

/-- The entries of the forms can be told from the forms that opcodes have. -/
theorem Valid.mem_forms_iff (valid : b.Valid) {x : Entry Payload} :
    x ∈ b.forms.entries ↔
      ∃ bs, b.form? x.opcode = some (.ok bs) ∧ x = ⟨x.opcode, .blob bs, bs.length⟩ := by
  constructor
  · intro member
    obtain ⟨e, there, rfl⟩ := List.mem_map.1 member
    have stored := valid.stored_storedBytes there
    refine ⟨storedBytes e, ?_, ?_⟩
    · rw [form?, valid.ascending.get?_eq there]
      exact congrArg some stored.saved
    · rw [stored.size_eq]
  · rintro ⟨bs, formed, shape⟩
    obtain ⟨d, found, saved⟩ := Option.map_eq_some_iff.1 formed
    obtain ⟨e, there, rfl⟩ := Option.map_eq_some_iff.1 found
    have member := List.mem_of_find?_eq_some there
    have same : e.opcode = x.opcode := by simpa using List.find?_some there
    have stored := valid.stored_storedBytes member
    have bytes : storedBytes e = bs := Except.ok.inj (stored.saved.symm.trans saved)
    rw [shape]
    refine List.mem_map.2 ⟨e, member, ?_⟩
    rw [same, stored.size_eq, bytes]

theorem Ascending.forms (h : Ascending b.entries) : Ascending b.forms.entries :=
  List.pairwise_map.2 h

/-- Entries in order are the same if they have the same members. -/
theorem Ascending.ext {δ : Type} {es es' : List (Entry δ)} (h : Ascending es)
    (h' : Ascending es') (same : ∀ e, e ∈ es ↔ e ∈ es') : es = es' := by
  let before (x y : Entry δ) : Prop := compare x.opcode y.opcode = .lt
  have irrefl : Std.Irrefl before := ⟨fun x lt ↦ by
    cases (Std.ReflOrd.compare_self (a := x.opcode)).symm.trans lt⟩
  have antisymm : Std.Antisymm before := ⟨fun x y lt gt ↦ by
    cases (Std.OrientedCmp.gt_of_lt lt).symm.trans gt⟩
  exact List.Pairwise.eq_of_mem_iff (r := before) h h' same

/-- Nothing but the form of each opcode makes a difference. -/
theorem Valid.forms_eq (valid : b.Valid) (valid' : b'.Valid)
    (same : ∀ o, b.form? o = b'.form? o) : b.forms = b'.forms := by
  have entries : b.forms.entries = b'.forms.entries := by
    refine valid.ascending.forms.ext valid'.ascending.forms fun x ↦ ?_
    rw [valid.mem_forms_iff, valid'.mem_forms_iff, same]
  have account (b : Builder δ) (valid : b.Valid) : b.forms.payloadSize = sizes b.forms.entries := by
    rw [payloadSize_forms, valid.payloadSize_eq, sizes, sizes, forms, List.map_map]
    rfl
  have payloads : b.forms.payloadSize = b'.forms.payloadSize := by
    rw [account b valid, account b' valid', entries]
  exact congrArg₂ Builder.mk entries payloads

/-! ## Histories -/

/-- The form of an opcode is that of the descriptor added for it last. -/
theorem form?_addAll {adds : List (Opcode × δ)} (steady : ∀ a ∈ (addAll adds {}).1, Steady a.2)
    (o : Opcode) :
    (addAll adds {}).2.form? o =
      ((addAll adds {}).1.reverse.lookup o).map fun d ↦ (Descriptor.save d).1 := by
  rw [form?, get?_addAll]
  change Option.map _ ((Option.map _ _).or none) = _
  rw [Option.or_none, Option.map_map]
  cases last : (addAll adds {}).1.reverse.lookup o with
  | none => rfl
  | some d =>
    obtain ⟨front, back, split, -⟩ := List.lookup_eq_some_iff.1 last
    have member : (o, d) ∈ (addAll adds {}).1 := by
      rw [← List.mem_reverse, split]
      simp
    exact congrArg some (steady (o, d) member)

/-- The image depends on the last additions alone.  After any two sequences of additions
to a new builder, some of which may fail, the images are the same, byte by byte, if each
opcode has the same stored form in the end; and so are the numbers that the builders
tell.  The image is made if it is not too large. -/
theorem image_eq_of_lookup_eq (adds adds' : List (Opcode × δ))
    (steady : ∀ a ∈ (addAll adds {}).1 ++ (addAll adds' {}).1, Steady a.2)
    (same : ∀ o, ((addAll adds {}).1.reverse.lookup o).map (fun d ↦ (Descriptor.save d).1) =
      ((addAll adds' {}).1.reverse.lookup o).map (fun d ↦ (Descriptor.save d).1)) :
    let b := (addAll adds {}).2
    let b' := (addAll adds' {}).2
    (b.image.1 = b'.image.1 ∧
      (b.size < 2 ^ 32 → b.totalSize < addressBound → ∃ bytes, b.image.1 = .ok bytes)) ∧
    b.size = b'.size ∧ b.payloadSize = b'.payloadSize ∧ b.totalSize = b'.totalSize ∧
    b.opcodeWidth = b'.opcodeWidth ∧ b.positionWidth = b'.positionWidth := by
  intro b b'
  obtain ⟨first, second⟩ := List.forall_mem_append.1 steady
  have valid : b.Valid := valid_empty.addAll_of_steady first
  have valid' : b'.Valid := valid_empty.addAll_of_steady second
  have forms : b.forms = b'.forms := by
    refine valid.forms_eq valid' fun o ↦ ?_
    rw [form?_addAll first, form?_addAll second, same]
  refine ⟨⟨?_, fun few small ↦ ⟨_, image_eq valid few small⟩⟩, ?_⟩
  · rw [← image_forms valid.stored, ← image_forms valid'.stored, forms]
  · rw [← b.size_forms, ← b.payloadSize_forms, ← b.totalSize_forms, ← b.opcodeWidth_forms,
      ← b.positionWidth_forms, forms]
    simp

/-- An addition in another order, one that is replaced by a shorter descriptor, and two that
fail. -/
theorem image_eq_of_lookup_eq_reordered :
    let nop : Opcode := ⟨[0x90], by decide⟩
    let jump : Opcode := ⟨[0x0F, 0x84], by decide⟩
    let je : Payload := .instruction (.operands "je" [.rel32])
    let adds : List (Opcode × Payload) :=
      [(jump, je), (nop, .blob [1, 2, 3]), (.empty, je), (nop, .failing), (nop, .blob [])]
    let adds' : List (Opcode × Payload) := [(nop, .blob []), (jump, je)]
    (addAll adds {}).1 = [(jump, je), (nop, .blob [1, 2, 3]), (nop, .blob [])] ∧
      (addAll adds {}).2.image.1 = (addAll adds' {}).2.image.1 ∧
      (addAll adds {}).2.payloadSize = (addAll adds' {}).2.payloadSize ∧
      ∃ bytes, (addAll adds {}).2.image.1 = .ok bytes := by
  intro nop jump je adds adds'
  have done : (addAll adds {}).1 = [(jump, je), (nop, .blob [1, 2, 3]), (nop, .blob [])] := by
    decide +kernel
  have done' : (addAll adds' {}).1 = [(nop, .blob []), (jump, je)] := by decide +kernel
  have steady : ∀ a ∈ (addAll adds {}).1 ++ (addAll adds' {}).1, Steady a.2 := by
    rw [done, done']
    simp only [List.cons_append, List.nil_append, List.forall_mem_cons]
    exact ⟨rfl, rfl, rfl, rfl, rfl, nofun⟩
  have same : ∀ o, (addAll adds {}).1.reverse.lookup o = (addAll adds' {}).1.reverse.lookup o := by
    intro o
    rw [done, done']
    by_cases first : o = nop
    · subst first
      rfl
    by_cases second : o = jump
    · subst second
      rfl
    · simp [List.lookup_cons, beq_false_of_ne first, beq_false_of_ne second]
  obtain ⟨⟨images, made⟩, -, payloads, -⟩ :=
    image_eq_of_lookup_eq adds adds' steady fun o ↦ congrArg _ (same o)
  exact ⟨done, images, payloads, made (by decide +kernel) (by decide +kernel)⟩

end Disasm.Image.Builder
