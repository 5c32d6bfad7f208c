import Disasm.Proofs.Image.Saving

/-!
# Saving into a writer that is too small

A writer may run full anywhere in an image: in its header, inside a field of the table or
inside a descriptor.  The pieces that saving writes are those of one sequence of bytes, so
such a writer is left with the front of the image, and it is the writer's error that
comes back: a size that a descriptor announced is not checked before its bytes were written.

That the fields hold their entries needs no assumption on the sizes here, for an image
that was made has all its fields.
-/

namespace Disasm

theorem Writer.write_of_bounded (bs : Bytes) (c : Nat) :
    write bs { capacity := some c } =
      if bs.length ≤ c then .ok () { capacity := some c, contents := bs }
      else .error .writerFull { capacity := some c, contents := bs.take c } := by
  by_cases room : bs.length ≤ c
  · simp [write, fitting, List.take_of_length_le room, room]
  · simp [write, fitting, room]

theorem Bytes.lt_of_writeUInt {data bs : Bytes} {offset width n : Nat}
    (written : writeUInt data offset width n = .ok bs) : n < 256 ^ width := by
  rw [writeUInt] at written
  split at written
  · cases written
  · split at written
    · cases written
    · exact Nat.lt_of_not_le ‹_›

namespace Image.Builder

/-! ## The fields of an image that was made -/

section Made

variable {δ : Type} {es : List (Entry δ)}

/-- A table that could be written has room for each position. -/
theorem position_lt_of_writeFields {opcodeWidth positionWidth position : Nat} {w w' : Writer}
    (written : writeFields (tableFields opcodeWidth positionWidth position es) w = .ok () w') :
    ∀ x ∈ placed position es, x.position < 256 ^ positionWidth := by
  induction es generalizing position w with
  | nil => exact nofun
  | cons e es ih =>
    rw [tableFields] at written
    cases coded : e.opcode.encode opcodeWidth with
    | error err =>
      rw [coded] at written
      cases written
    | ok opcode =>
      cases numbered :
          Bytes.writeUInt (List.replicate positionWidth 0) 0 positionWidth position with
      | error err =>
        rw [coded, numbered] at written
        cases written
      | ok field =>
        rw [coded, numbered] at written
        obtain ⟨_, w₁, -, rest⟩ := Action.bind_eq_ok.1 written
        exact List.forall_mem_cons.2 ⟨Bytes.lt_of_writeUInt numbered, ih rest⟩

variable [Descriptor δ] {b : Builder δ} {image : Bytes}

/-- An image is made only of entries that can be counted and that fit the fields. -/
theorem Valid.fits_of_image (valid : b.Valid) (made : b.image.1 = .ok image) :
    b.size < 2 ^ 32 ∧ ∀ x ∈ placed 0 b.entries, b.header.Fits x := by
  rw [Builder.image, save] at made
  split at made
  · cases made
  · refine ⟨Nat.lt_of_not_le ‹_›, fun x member ↦ ⟨length_lt_opcodeWidth valid.ascending member, ?_⟩⟩
    dsimp only at made
    split at made
    · cases made
    next written =>
      obtain ⟨_, w₁, -, fields⟩ := Action.bind_eq_ok.1 written
      exact position_lt_of_writeFields fields x member

theorem Valid.contents_of_image (valid : b.Valid) (made : b.image.1 = .ok image) :
    b.contents = image := by
  obtain ⟨few, fits⟩ := valid.fits_of_image made
  exact Except.ok.inj ((image_of_fits valid few fits).symm.trans made)

end Made

/-! ## Instructions are saved as they are -/

theorem writeDescriptors_keeps (es : List (Entry Instruction)) (w : Writer) :
    (writeDescriptors es w).2 = es := by
  induction es generalizing w with
  | nil => rfl
  | cons e es ih =>
    rw [writeDescriptors]
    dsimp only [Descriptor.save]
    split
    · rfl
    · split
      · rfl
      next w' _ =>
        split
        · rfl
        · exact congrArg (e :: ·) (ih w')

/-- Saving instructions leaves the builder as it was, however it ends. -/
theorem builder_save (b : Builder Instruction) (w : Writer) : (b.save w).builder = b := by
  rw [save]
  split
  · rfl
  · dsimp only
    split
    · rfl
    next w' _ =>
      rw [writeDescriptors_keeps]
      split
      · rfl
      · split <;> rfl

/-! ## The front of an image -/

/-- What is left in a writer with room for `c` bytes, after saving a builder into it, is
the front of the image.  It is the whole image if there is room for it, and saving
then tells its size; else the error is that of the writer.  The builder is as before. -/
theorem save_bounded (adds : List (Opcode × Instruction)) :
    let b := (addAll adds {}).2
    (b.size < 2 ^ 32 → b.totalSize < addressBound → ∃ image, b.image.1 = .ok image) ∧
    ∀ image, b.image.1 = .ok image → b.totalSize = image.length ∧
      ∀ c, let saved := b.save { capacity := some c }
        saved.writer.contents = image.take (min c image.length) ∧
        saved.outcome = (if image.length ≤ c then .ok b.totalSize else .error .writerFull) ∧
        saved.builder = b := by
  intro b
  have valid : b.Valid := valid_empty.addAll adds
  refine ⟨fun few small ↦ ⟨_, image_eq valid few small⟩, fun image made ↦ ?_⟩
  obtain ⟨few, fits⟩ := valid.fits_of_image made
  obtain rfl := valid.contents_of_image made
  have total := valid.length_contents_of_fits fits
  refine ⟨total.symm, fun c ↦ ?_⟩
  have written := Writer.write_of_bounded b.contents c
  by_cases room : b.contents.length ≤ c
  · rw [if_pos room] at written
    obtain ⟨outcome, writer⟩ := save_of_write valid few fits written rfl
    refine ⟨?_, ?_, builder_save b _⟩
    · rw [writer, Nat.min_eq_right room, List.take_length]
    · rw [outcome, if_pos room, ← total]
      rfl
  · rw [if_neg room] at written
    obtain ⟨outcome, writer⟩ := save_of_write_error valid few fits written
    refine ⟨?_, ?_, builder_save b _⟩
    · rw [writer, Nat.min_eq_left (Nat.le_of_not_le room)]
    · rw [outcome, if_neg room]

/-- The writer runs full behind the length of the second mnemonic. -/
theorem save_bounded_of_cut_mnemonic :
    let nop : Opcode := ⟨[0x90], by decide⟩
    let jump : Opcode := ⟨[0x0F, 0x84], by decide⟩
    let adds : List (Opcode × Instruction) :=
      [(jump, .operands "jz" [.rel16]), (nop, .simple "nop")]
    let b := (addAll adds {}).2
    let image : Bytes := [0x4F, 0x50, 0x49, 0x58, 2, 0, 0, 0, 4, 0, 2, 0,
      1, 0x90, 0, 0, 0, 0, 2, 0x0F, 0x84, 0, 5, 0,
      1, 3, 0x6E, 0x6F, 0x70, 2, 2, 0x6A, 0x7A, 1, 0x21]
    b.image.1 = .ok image ∧ (b.save { capacity := some 35 }).outcome = .ok 35 ∧
      (b.save { capacity := some 31 }).writer.contents = image.take 31 ∧
      (b.save { capacity := some 31 }).outcome = .error .writerFull ∧
      (b.save { capacity := some 31 }).builder = b := by
  intro nop jump adds b image
  have made : b.image.1 = .ok image := by
    dsimp only [b, adds, image, nop, jump]
    cbv
  obtain ⟨total, saves⟩ := (save_bounded adds).2 image made
  obtain ⟨contents, outcome, builder⟩ := saves 31
  exact ⟨made, (saves 35).2.1.trans (congrArg Except.ok total), contents, outcome, builder⟩

end Image.Builder

end Disasm
