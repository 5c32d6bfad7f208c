import Disasm.Output.TextSink
import Disasm.Proofs.Decoder.SideBySide

/-!
# Writers that run full

The same text is written to a writer that is bounded and to one that is not.  As long
as it fits, the two differ in nothing but the bound.  The write that goes beyond fails,
after the bytes that still fit; from then on the bounded writer has the front of what
the other one has, whatever is written there.
-/

namespace Disasm

open Disasm.Action (Coupling)

/-! ## Writers -/

namespace Writer

variable {c : Nat}

/-- The first writer is the second one with a bound that was not reached. -/
structure Fits (c : Nat) (w w' : Writer) : Prop where
  frame : w = { w' with capacity := some c }
  unbounded : w'.capacity = none
  length_le : w'.contents.length ≤ c

theorem Fits.contents_eq {w w' : Writer} (fits : Fits c w w') : w.contents = w'.contents := by
  rw [fits.frame]

/-- The first writer has run full, and the second has gone on. -/
structure Overflown (c : Nat) (e : Error) (w w' : Writer) : Prop where
  error_eq : e = .writerFull
  unbounded : w'.capacity = none
  lt_length : c < w'.contents.length
  contents_eq : w.contents = w'.contents.take c

/-- A writer with room for `c` bytes beside one with room for all. -/
def bounded (c : Nat) : Coupling Error Writer := ⟨Fits c, Overflown c⟩

theorem respects_write (bs : Bytes) : (bounded c).Respects (write bs) where
  paired := by
    rintro w w' ⟨rfl, unbounded, le⟩
    rw [write_of_unbounded unbounded]
    have kept : fitting { w' with capacity := some c } bs = bs.take (c - w'.contents.length) := rfl
    rw [write, kept, List.length_take]
    split
    · -- what fits was still written before the failure
      refine .lost ⟨rfl, unbounded, ?_, ?_⟩
      · change c < (w'.contents ++ bs).length
        rw [List.length_append]
        omega
      · change w'.contents ++ _ = (w'.contents ++ bs).take c
        rw [List.take_append, List.take_of_length_le le]
    · have all : bs.take (c - w'.contents.length) = bs := List.take_of_length_le (by omega)
      refine .ok ⟨?_, unbounded, ?_⟩
      · rw [all]
      · change (w'.contents ++ bs).length ≤ c
        rw [List.length_append]
        omega
  keeps := by
    rintro e w w' ⟨full, unbounded, lt, front⟩
    rw [write_of_unbounded unbounded]
    refine ⟨full, unbounded, ?_, ?_⟩
    · change c < (w'.contents ++ bs).length
      rw [List.length_append]
      omega
    · change w.contents = (w'.contents ++ bs).take c
      rw [List.take_append_of_le_length (Nat.le_of_lt lt), front]

end Writer

/-! ## Text sinks -/

namespace TextSink

variable {c : Nat}

/-- The sinks differ in their writers only, and there only in the bound. -/
structure Fits (c : Nat) (s s' : TextSink) : Prop where
  writer : s.writer.Fits c s'.writer
  frame : s = { s' with writer := s.writer }

/-- Text sinks over a bounded writer and over one that is not. -/
def bounded (c : Nat) : Coupling Error TextSink where
  Like := Fits c
  Lost e s s' := s.writer.Overflown c e s'.writer

theorem write_eq_within (bs : Bytes) :
    write bs = Coupling.within writer (fun writer s ↦ { s with writer }) (Writer.write bs) := by
  funext s
  rw [write, Coupling.within]
  cases Writer.write bs s.writer <;> rfl

theorem respects_write (bs : Bytes) : (bounded c).Respects (write bs) := by
  rw [write_eq_within]
  refine (Writer.respects_write (c := c) bs).within writer (fun writer s ↦ { s with writer })
    ?_ ?_ ?_ ?_
  · intro s s' like
    exact like.writer
  · intro s s' w w' like alike
    refine ⟨alike, ?_⟩
    rw [like.frame]
  · intro e s s' w w' lost
    exact lost
  · intro e s s' lost
    exact (Writer.respects_write bs).keeps e _ _ lost

/-- Changes of the level and of the place in a line leave the writer alone. -/
theorem respects_modify {change : TextSink → TextSink}
    (apart : ∀ s writer, change { s with writer } = { change s with writer }) :
    (bounded c).Respects (modify change) := by
  have kept (s : TextSink) : (change s).writer = s.writer := by
    have same := congrArg writer (apart s s.writer)
    exact same
  refine .update ?_ ?_
  · intro s s' like
    refine ⟨?_, ?_⟩
    · rw [kept, kept]
      exact like.writer
    · rw [kept, ← apart, ← like.frame]
  · intro e s s' lost
    change s.writer.Overflown c e (change s').writer
    rw [kept]
    exact lost

theorem respects_beginLine : (bounded c).Respects beginLine := by
  refine .get (fun s s' like ↦ ?_) fun s ↦ ?_
  · rw [like.frame]
    rfl
  · split
    · exact (respects_write _).bind fun _ ↦ respects_modify fun _ _ ↦ rfl
    · exact .pure ()

theorem respects_print (kind : OutputKind) (text : String) :
    (bounded c).Respects (print kind text) := by
  refine .get (fun s s' like ↦ ?_) fun s ↦ ?_
  · rw [like.frame]
  · split
    · exact .pure ()
    · exact respects_beginLine.bind fun _ ↦ respects_write _

/-- The likeness of text sinks that have room for `c` bytes and for all. -/
def overflow (c : Nat) : Sink.Likeness TextSink where
  toCoupling := bounded c
  apply op := by
    cases op with
    | print kind text => exact respects_print kind text
    | newline => exact (respects_write _).bind fun _ ↦ respects_modify fun _ _ ↦ rfl
    | indent => exact respects_modify fun _ _ ↦ rfl
    | unindent => exact respects_modify fun _ _ ↦ rfl
  apart := by
    intro e s s' lost like
    exact absurd like.writer.length_le (Nat.not_le_of_lt lost.lt_length)

end TextSink

/-! ## Decoding to a text -/

namespace Table

/-- A writer that runs full has the front of the text.  It has all of it if the text fits,
and decoding ends as it does without a bound; otherwise it ends with the failure of the
writer, at the first byte that does not fit. -/
theorem decode_overflowing {ω : Type} (t : Table) (r : Range) (settings : Settings)
    (binding : Binding) (source : Source) (sink : TextSink) (c : Nat) (session : Session ω) :
    let decode (writer : Writer) :=
      r.decode settings binding (t.run settings.name) source { sink with writer } session
    let text := (decode {}).2.output.sink.writer.contents
    (decode { capacity := some c }).2.output.sink.writer.contents = text.take (min c text.length) ∧
      (decode { capacity := some c }).1 =
        if text.length ≤ c then (decode {}).1 else .error .writerFull := by
  intro decode text
  have sinks : (TextSink.overflow c).Like { sink with writer := { capacity := some c } }
      { sink with writer := {} } := ⟨⟨rfl, rfl, Nat.zero_le c⟩, rfl⟩
  have input : Window.sameWindow.Like
      (r.frame settings binding source { sink with writer := { capacity := some c } } session).input
      (r.frame settings binding source { sink with writer := {} } session).input :=
    ⟨rfl, Nat.le_refl 0, fun _ ↦ rfl⟩
  have beside := Range.decode_beside (t.respects_run settings.name) rfl input sinks
  obtain ⟨result, -, alike⟩ | ⟨e, failed, lost⟩ := beside
  · have fits := alike.sink.writer
    have le : text.length ≤ c := fits.length_le
    rw [if_pos le, Nat.min_eq_right le, List.take_length]
    exact ⟨fits.contents_eq, result⟩
  · have lt : c < text.length := lost.lt_length
    rw [if_neg (Nat.not_le_of_lt lt), Nat.min_eq_left (Nat.le_of_lt lt), ← lost.error_eq]
    exact ⟨lost.contents_eq, failed⟩

end Table

end Disasm
