import Disasm.Decoder.Table
import Disasm.Proofs.Decoder.Render

/-!
# The line of one instruction

An instruction that was found is rendered between two switches of the commits.
What comes of it is told once, in `Told`: one line more, a line that says that
the instruction is cut off, or a failure after which the output is what it was
before.  In each case the frame is ready for the next line.
-/

namespace Disasm

variable {ω : Type}

/-! ## Between two lines -/

namespace Frame

/-- A frame between two lines: commits are automatic on both sides, and nothing
waits. -/
structure Ready {σ : Type} (f : Frame σ ω) : Prop where
  settled : f.input.Settled
  input_on : f.input.autoCommit = true
  output_on : f.output.autoCommit = true
  queue_nil : f.output.queue = []

theorem Ready.output_eq {σ : Type} {f : Frame σ ω} (ready : f.Ready) :
    f.output = { sink := f.output.sink } := by
  obtain ⟨input, ⟨sink, auto, queue⟩, session⟩ := f
  cases ready.output_on
  cases ready.queue_nil
  rfl

/-- All that was decoded is given up. -/
theorem Ready.position_eq {σ : Type} {f : Frame σ ω} (ready : f.Ready) :
    f.input.position = f.input.totalRead := by
  have nothing : f.input.cursor = 0 := ready.settled.settled ready.input_on
  rw [Window.totalRead, nothing]
  rfl

theorem Ready.of_moved {σ : Type} {f f' : Frame σ ω} {n : Nat} (ready : f.Ready)
    (moved : f.input.Moved n f'.input) (idle : f'.output = { sink := f'.output.sink }) :
    f'.Ready := by
  refine ⟨moved.settled ready.settled, moved.autoCommit_eq.trans ready.input_on, ?_, ?_⟩
  · rw [idle]
  · rw [idle]

/-- The frame after the window has come to `w` and a line was written. -/
def written (w : Window) (segments : List (OutputKind × String)) (f : Frame Transcript ω) :
    Frame Transcript ω :=
  { f with
    input := w
    output := { sink := (Operation.line segments).foldl Transcript.perform f.output.sink } }

@[simp] theorem input_written (w : Window) (segments : List (OutputKind × String))
    (f : Frame Transcript ω) : (f.written w segments).input = w := rfl

theorem output_written (w : Window) {segment : OutputKind × String}
    {segments : List (OutputKind × String)} {f : Frame Transcript ω}
    (clean : f.output.sink.Clean) :
    (f.written w (segment :: segments)).output =
      { sink := f.output.sink.addLine ⟨f.output.sink.level, segment :: segments⟩ } :=
  congrArg (Output.mk · true []) (Transcript.foldl_line clean segment segments)

/-- The frame at the beginning of a line: nothing is committed before its end. -/
def begun {σ : Type} (f : Frame σ ω) : Frame σ ω :=
  { f with
    input := f.input.setAutoCommit false
    output := { f.output with autoCommit := false } }

theorem Ready.held_begun {σ : Type} {f : Frame σ ω} (ready : f.Ready) : f.begun.Held :=
  ⟨rfl, ready.settled.setAutoCommit false⟩

end Frame

namespace Table

/-- The label of the instruction at `offset`. -/
def labelSegment (offset : Nat) : OutputKind × String := (.label, label offset ++ ": ")

/-- What stands for an instruction that the end cuts off. -/
def truncatedSegment (i : Instruction) : OutputKind × String :=
  let mnemonic := i.mnemonic?.getD "instruction"
  (.error, s!"<truncated {mnemonic}>")

/-- What becomes of an instruction that was found: a line, a line that says it is
cut off, or a failure that leaves nothing. -/
inductive Told (found : Index.Lookup Instruction) (f : Frame Transcript ω) :
    EStateM.Result Error (Frame Transcript ω) Progress → Prop
  | line {rest : List (OutputKind × String)} {n : Nat} {w : Window} : f.input.Moved n w →
      (f.input.Smooth → n = found.descriptor.width f.input.order f.input.remaining) →
      (found.descriptor.kinds = [] → rest = []) →
      Told found f
        (.ok .more (f.written w (labelSegment found.offset :: found.descriptor.head :: rest)))
  | truncated {w : Window} {session : Session ω} : f.input.Moved 0 w →
      (f.input.Smooth →
        f.input.remaining.length < found.descriptor.width f.input.order f.input.remaining) →
      Told found f (.ok .finished { f.written w
        [labelSegment found.offset, truncatedSegment found.descriptor] with session })
  | failed {e : Error} {w : Window} : e ≠ .outOfBounds → f.input.Moved 0 w →
      Told found f (.error e { f with input := w })

section Found

variable {name : String} {found : Index.Lookup Instruction} {f f₁ f₂ : Frame Transcript ω}

/-- Every line begins alike: commits are switched off, and its label is printed. -/
theorem renderFound_of_begun {rest : Except Error Unit → Frame.Action Transcript ω Progress}
    {r : Except Error Unit} (printed : printLabel found.offset f.begun = .ok () f₁)
    (ran : Frame.attempt (found.descriptor.render (found.opcode?.getD .empty)) f₁ = .ok r f₂) :
    (do
      Frame.write (Output.setAutoCommit false)
      modify fun f ↦ { f with input := f.input.setAutoCommit false }
      printLabel found.offset
      let r ← Frame.attempt (found.descriptor.render (found.opcode?.getD .empty))
      rest r : Frame.Action Transcript ω Progress) f = rest r f₂ := by
  have off : Frame.write (Output.setAutoCommit false) f = .ok ()
      { f with output := { f.output with autoCommit := false } } := by
    rw [Frame.write, Output.setAutoCommit_off]
  exact (Action.bind_of_ok off).trans ((Action.bind_of_ok rfl).trans
    ((Action.bind_of_ok printed).trans (Action.bind_of_ok ran)))

/-- A line that is whole is committed. -/
theorem renderFound_of_ok (printed : printLabel found.offset f.begun = .ok () f₁)
    (ran : found.descriptor.render (found.opcode?.getD .empty) f₁ = .ok () f₂)
    (off : f₂.output.autoCommit = false) :
    renderFound name found f = .ok .more { f₂ with
      input := f₂.input.setAutoCommit true
      output := { sink := f₂.output.queue.foldl Transcript.perform f₂.output.sink } } := by
  have tried : Frame.attempt (found.descriptor.render (found.opcode?.getD .empty)) f₁ =
      .ok (.ok ()) f₂ := by rw [Frame.attempt, ran]
  have on : Frame.write (Output.setAutoCommit true)
      { f₂ with input := f₂.input.setAutoCommit true } = .ok () { f₂ with
        input := f₂.input.setAutoCommit true
        output := { sink := f₂.output.queue.foldl Transcript.perform f₂.output.sink } } := by
    rw [Frame.write, Output.setAutoCommit_of_off (Transcript.total _) off]
  refine (renderFound_of_begun printed tried).trans ?_
  exact (Action.bind_of_ok rfl).trans (Action.bind_of_ok on)

/-- A line that lacks bytes is dropped, and another is put in its place. -/
theorem renderFound_of_outOfBounds (name : String)
    (printed : printLabel found.offset f.begun = .ok () f₁)
    (ran : found.descriptor.render (found.opcode?.getD .empty) f₁ = .error .outOfBounds f₂)
    (off : f₂.output.autoCommit = false) :
    ∃ session, renderFound name found f = .ok .finished
      { input := (f₂.input.discard none).setAutoCommit true
        output := { sink := (Operation.line [labelSegment found.offset,
          truncatedSegment found.descriptor]).foldl Transcript.perform f₂.output.sink }
        session } := by
  have tried : Frame.attempt (found.descriptor.render (found.opcode?.getD .empty)) f₁ =
      .ok (.error .outOfBounds) f₂ := by rw [Frame.attempt, ran]
  obtain ⟨input, ⟨sink, auto, queue⟩, session⟩ := f₂
  cases (off : auto = false)
  let opcode := found.opcode?.getD .empty
  refine ⟨session.record ⟨.warn,
    s!"{name}: instruction [{opcode.text}] at {Text.Hex.marked 1 found.offset} is truncated"⟩, ?_⟩
  exact (renderFound_of_begun printed tried).trans rfl

/-- On any other failure the line is dropped. -/
theorem renderFound_of_error (printed : printLabel found.offset f.begun = .ok () f₁) {e : Error}
    (ran : found.descriptor.render (found.opcode?.getD .empty) f₁ = .error e f₂)
    (other : e ≠ .outOfBounds) (off : f₂.output.autoCommit = false) :
    renderFound name found f = .error e { f₂ with
      input := (f₂.input.discard none).setAutoCommit true
      output := { sink := f₂.output.sink } } := by
  have tried : Frame.attempt (found.descriptor.render (found.opcode?.getD .empty)) f₁ =
      .ok (.error e) f₂ := by rw [Frame.attempt, ran]
  obtain ⟨input, ⟨sink, auto, queue⟩, session⟩ := f₂
  cases (off : auto = false)
  refine (renderFound_of_begun printed tried).trans ?_
  generalize failed : (Except.error e : Except Error Unit) = r
  split
  next => cases failed
  next =>
    cases failed
    exact absurd rfl other
  next =>
    cases failed
    rfl

/-- What is printed of an instruction is one line, or nothing. -/
theorem told_renderFound (name : String) (found : Index.Lookup Instruction) (ready : f.Ready) :
    Told found f (renderFound name found f) := by
  have held := ready.held_begun
  obtain ⟨f₁, printed, first⟩ := Frame.write_print held (labelSegment found.offset)
  have rendered := found.descriptor.rendered_render (found.opcode?.getD .empty) (first.held held)
  have smooth₁ : f.input.Smooth → f₁.input.Smooth := fun smooth ↦
    first.moved.smooth (smooth.setAutoCommit false)
  have remaining : f.input.Smooth → f₁.input.remaining = f.input.remaining := fun smooth ↦
    first.moved.remaining_eq (smooth.setAutoCommit false)
  have order : f₁.input.order = f.input.order := first.moved.order_eq
  generalize ran : found.descriptor.render (found.opcode?.getD .empty) f₁ = result at rendered
  cases rendered with
  | @line rest n w moved exactly plain =>
    have total := (first.moved.trans moved held.settled).commit_later ready.input_on
    rw [renderFound_of_ok printed ran (first.held held).off]
    rw [first.session_eq, first.sink_eq, first.queue_eq,
      show f.begun.output.queue = [] from ready.queue_nil]
    refine .line total (fun smooth ↦ ?_) plain
    rw [Nat.zero_add, exactly (smooth₁ smooth), order, remaining smooth]
  | @part e segments n f₂ grown lack =>
    have off := (grown.held (first.held held)).off
    have total :=
      (first.moved.trans grown.moved held.settled).take_back ready.settled ready.input_on
    have sink : f₂.output.sink = f.output.sink := grown.sink_eq.trans first.sink_eq
    by_cases short : e = .outOfBounds
    · subst short
      obtain ⟨session, eq⟩ := renderFound_of_outOfBounds name printed ran off
      rw [eq, sink]
      refine .truncated total fun smooth ↦ ?_
      have fewer := lack (smooth₁ smooth) rfl
      rwa [order, remaining smooth] at fewer
    · have session : f₂.session = f.session := grown.session_eq.trans first.session_eq
      rw [renderFound_of_error printed ran short off, sink, session, ← ready.output_eq]
      exact .failed short total

end Found

end Table

end Disasm
