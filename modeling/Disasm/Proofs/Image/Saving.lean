import Disasm.Proofs.Action
import Disasm.Proofs.Image.Layout

/-!
# Saving an image

Saving writes the contents of an image piece by piece, and this is the same as
writing them at once.  Nothing but the writer can make it fail.
-/

namespace Disasm

namespace Writer

theorem write_nil : write [] = pure () := by
  funext w
  have none : w.fitting [] = [] := by
    rw [fitting]
    split <;> simp
  rw [write, none, List.append_nil]
  rfl

/-- Writing in two goes is writing at once. -/
theorem write_append (a b : Bytes) : write (a ++ b) = (do write a; write b) := by
  funext w
  cases bound : w.capacity with
  | none =>
    rw [write_of_unbounded bound, Action.bind_of_ok (write_of_unbounded bound a),
      write_of_unbounded (by exact bound), List.append_assoc]
  | some c =>
    by_cases full : c - w.contents.length < a.length
    · have short : (a.take (c - w.contents.length)).length < a.length := by
        rw [List.length_take]
        omega
      have failed : write a w = .error .writerFull
          { w with contents := w.contents ++ a.take (c - w.contents.length) } := by
        simp only [write, fitting, bound]
        exact if_pos short
      rw [Action.bind_of_error failed]
      simp only [write, fitting, bound]
      rw [List.take_append_of_le_length (Nat.le_of_lt full), List.length_append]
      exact if_pos (by omega)
    · have kept : a.take (c - w.contents.length) = a :=
        List.take_of_length_le (Nat.le_of_not_lt full)
      have written : write a w = .ok () { w with contents := w.contents ++ a } := by
        simp only [write, fitting, bound, kept]
        exact if_neg (Nat.lt_irrefl _)
      rw [Action.bind_of_ok written]
      simp only [write, fitting, bound]
      rw [List.take_append, kept]
      simp only [List.length_append, List.append_assoc, Nat.sub_sub, Nat.add_lt_add_iff_left]

end Writer

namespace Image.Builder

variable {δ : Type} {es : List (Entry δ)} {h : Header}

theorem tableFields_eq {position : Nat} (valid : Bytes.isFieldWidth h.positionWidth = true)
    (fits : ∀ x ∈ placed position es, h.Fits x) :
    tableFields h.opcodeWidth h.positionWidth position es =
      (placed position es).map fun x ↦ .ok (field h x) := by
  induction es generalizing position with
  | nil => rfl
  | cons e es ih =>
    have first := fits _ (List.mem_cons_self ..)
    have rest := ih fun x member ↦ fits x (List.mem_cons_of_mem _ member)
    rw [tableFields, rest, Opcode.encode_eq first.opcode, Bytes.writeUInt_eq valid first.position]
    rfl

theorem writeFields_eq (fields : List Bytes) :
    writeFields (fields.map .ok) = Writer.write fields.flatten := by
  induction fields with
  | nil => exact Writer.write_nil.symm
  | cons field fields ih =>
    rw [List.flatten_cons, Writer.write_append, ← ih]
    rfl

variable [Descriptor δ]

theorem writeDescriptors_eq (stored : ∀ e ∈ es, ∃ bs, Stored e bs) (w : Writer) :
    (writeDescriptors es w).1 = Writer.write (payload es) w := by
  induction es generalizing w with
  | nil => exact (congrFun Writer.write_nil w).symm
  | cons e es ih =>
    obtain ⟨bs, first⟩ := stored e (List.mem_cons_self ..)
    have rest := ih fun e member ↦ stored e (List.mem_cons_of_mem _ member)
    rw [payload, List.flatMap_cons, first.storedBytes_eq, Writer.write_append, writeDescriptors]
    simp only [first.saved]
    cases written : Writer.write bs w with
    | error err w' => rw [Action.bind_of_error written]
    | ok _ w' =>
      rw [Action.bind_of_ok written]
      dsimp only
      rw [if_neg (not_not_intro first.size_eq.symm)]
      exact rest w'

variable {b : Builder δ}

omit [Descriptor δ] in
/-- The header and the table are written at once. -/
theorem write_table (fits : ∀ x ∈ placed 0 b.entries, b.header.Fits x) :
    (do
      Writer.write b.header.bytes
      writeFields (tableFields b.opcodeWidth b.positionWidth 0 b.entries)) =
      Writer.write (b.header.bytes ++ b.table) := by
  have fields : tableFields b.opcodeWidth b.positionWidth 0 b.entries =
      ((placed 0 b.entries).map (field b.header)).map .ok :=
    (tableFields_eq b.isFieldWidth_positionWidth fits).trans List.map_map.symm
  rw [fields, writeFields_eq, Writer.write_append, table, List.flatMap_def]

/-- A writer that takes the contents of the image is left with them. -/
theorem save_of_write (valid : b.Valid) (few : b.size < 2 ^ 32)
    (fits : ∀ x ∈ placed 0 b.entries, b.header.Fits x) {w w' : Writer}
    (written : Writer.write b.contents w = .ok () w') (flushes : w'.flushFails = false) :
    (b.save w).outcome = .ok (w'.contents.length - w.contents.length) ∧
      (b.save w).writer = w' := by
  rw [contents, Writer.write_append] at written
  cases first : Writer.write (b.header.bytes ++ b.table) w with
  | error e w₁ =>
    rw [Action.bind_of_error first] at written
    cases written
  | ok _ w₁ =>
    rw [Action.bind_of_ok first] at written
    have descriptors := writeDescriptors_eq valid.stored w₁
    rw [save, if_neg (Nat.not_le_of_lt few), write_table fits]
    simp only [first]
    rw [descriptors, written]
    simp [Writer.flush, flushes]

/-- A writer that does not take them all is left with those that it took, and its error is
the one that saving fails with. -/
theorem save_of_write_error (valid : b.Valid) (few : b.size < 2 ^ 32)
    (fits : ∀ x ∈ placed 0 b.entries, b.header.Fits x) {w w' : Writer} {e : Error}
    (failed : Writer.write b.contents w = .error e w') :
    (b.save w).outcome = .error e ∧ (b.save w).writer = w' := by
  rw [contents, Writer.write_append] at failed
  rw [save, if_neg (Nat.not_le_of_lt few), write_table fits]
  cases first : Writer.write (b.header.bytes ++ b.table) w with
  | error e₁ w₁ =>
    rw [Action.bind_of_error first] at failed
    cases failed
    simp only [first, and_self]
  | ok _ w₁ =>
    rw [Action.bind_of_ok first] at failed
    simp only [first, writeDescriptors_eq valid.stored w₁, failed, and_self]

theorem image_of_fits (valid : b.Valid) (few : b.size < 2 ^ 32)
    (fits : ∀ x ∈ placed 0 b.entries, b.header.Fits x) : b.image.1 = .ok b.contents := by
  have written := Writer.write_of_unbounded (w := {}) rfl b.contents
  obtain ⟨outcome, writer⟩ := save_of_write valid few fits written rfl
  rw [image]
  dsimp only
  rw [outcome, writer]
  rfl

/-- The image is made, and has the contents that it should have. -/
theorem image_eq (valid : b.Valid) (few : b.size < 2 ^ 32) (small : b.totalSize < addressBound) :
    b.image.1 = .ok b.contents :=
  image_of_fits valid few fun _ ↦ valid.fits small

theorem image_eq_ok_iff (valid : b.Valid) (small : b.totalSize < addressBound) {bs : Bytes} :
    b.image.1 = .ok bs ↔ b.size < 2 ^ 32 ∧ bs = b.contents := by
  by_cases few : b.size < 2 ^ 32
  · rw [image_eq valid few small, and_iff_right few, Except.ok.injEq, eq_comm]
  · rw [image, save, if_pos (Nat.le_of_not_lt few)]
    exact ⟨(nomatch ·), fun both ↦ absurd both.1 few⟩

end Image.Builder

end Disasm
