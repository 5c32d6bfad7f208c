import Disasm.Decoder.Render
import Disasm.Proofs.Output.Transcript
import Disasm.Proofs.Window.Progress

/-!
# What rendering an instruction reads and prints

While a line is held back, printing puts pieces into the queue and reading moves
the window on.  Rendering is made of both, and of questions to the session that
may fail.  `Renders need action` says so of an action that reads `need` bytes if
it succeeds, and that it lacks bytes only where fewer are left.  It is closed
under going on, so that the width of an instruction is read off its operands.
-/

namespace Disasm

/-! ## Widths -/

namespace Operand

/-- The number of bytes that an operand takes, if `bs` are the bytes to come. -/
def width (order : ByteOrder) (bs : Bytes) : Operand → Nat
  | scalar k => k.size
  | sym8 | rel8 => 1
  | sym16 | rel16 => 2
  | sym32 | rel32 => 4
  | table32 => 4 + 4 * (Scalar.i32.signed (order.value (bs.take 4))).toNat

/-- The number of bytes that operands take one after the other. -/
def widths (order : ByteOrder) : List Operand → Bytes → Nat
  | [], _ => 0
  | k :: ks, bs => k.width order bs + widths order ks (bs.drop (k.width order bs))

end Operand

namespace Instruction

/-- The number of bytes that the operands of an instruction take. -/
def width (order : ByteOrder) (i : Instruction) (bs : Bytes) : Nat :=
  Operand.widths order i.kinds bs

/-- What stands first in the line of an instruction. -/
def head : Instruction → OutputKind × String
  | simple m | operands m _ => (.keyword, m)
  | unknown bytes => (.error, ".byte " ++ Text.Hex.bytes bytes)

end Instruction

namespace Frame

variable {σ ω α β : Type}

/-! ## Inside a line -/

/-- A frame inside a line: what is printed waits. -/
structure Held (f : Frame σ ω) : Prop where
  off : f.output.autoCommit = false
  settled : f.input.Settled

/-- `f'` is `f` after `n` bytes were read and pieces were printed that wait. -/
structure Grown (segments : List (OutputKind × String)) (n : Nat) (f f' : Frame σ ω) : Prop where
  moved : f.input.Moved n f'.input
  frame : f' = { f with
    input := f'.input
    output := { f.output with queue := f.output.queue ++ Operation.prints segments } }

namespace Grown

variable {segments segments' : List (OutputKind × String)} {m n : Nat} {f f' f'' : Frame σ ω}

theorem refl (held : f.Held) : Grown [] 0 f f where
  moved := .refl held.settled
  frame := by simp [Operation.prints]

theorem session_eq (h : Grown segments n f f') : f'.session = f.session := by rw [h.frame]

theorem sink_eq (h : Grown segments n f f') : f'.output.sink = f.output.sink := by rw [h.frame]

theorem queue_eq (h : Grown segments n f f') :
    f'.output.queue = f.output.queue ++ Operation.prints segments := by rw [h.frame]

theorem held (h : Grown segments n f f') (held : f.Held) : f'.Held where
  off := by
    rw [h.frame]
    exact held.off
  settled := h.moved.settled held.settled

theorem trans (h : Grown segments m f f') (h' : Grown segments' n f' f'') (held : f.Held) :
    Grown (segments ++ segments') (m + n) f f'' where
  moved := h.moved.trans h'.moved held.settled
  frame := by
    rw [h'.frame, h.frame, Operation.prints_append]
    simp only [List.append_assoc]

end Grown

/-- How an action that needs `need` bytes may end: it has read just those, or it
has failed, which is for lack of bytes only if there are fewer. -/
inductive Ends (need : Nat) (f : Frame σ ω) : EStateM.Result Error (Frame σ ω) α → Prop
  | done {a : α} {segments : List (OutputKind × String)} {n : Nat} {f' : Frame σ ω} :
      Grown segments n f f' → (f.input.Smooth → n = need) → Ends need f (.ok a f')
  | failed {e : Error} {segments : List (OutputKind × String)} {n : Nat} {f' : Frame σ ω} :
      Grown segments n f f' →
      (f.input.Smooth → e = .outOfBounds → f.input.remaining.length < need) →
      Ends need f (.error e f')

/-- Inside a line the action reads `need` bytes, a number that the byte order and
the bytes to come decide, and prints. -/
def Renders (need : ByteOrder → Bytes → Nat) (action : Action σ ω α) : Prop :=
  ∀ f, f.Held → Ends (need f.input.order f.input.remaining) f (action f)

/-- One action after another: the second begins where the first has ended. -/
theorem Ends.bind {f : Frame σ ω} {x : Action σ ω α} {g : α → Action σ ω β} {m total : Nat}
    (held : f.Held) (first : Ends m f (x f)) (within : f.input.Smooth → m ≤ total)
    (next : ∀ a segments n f', x f = .ok a f' → Grown segments n f f' →
      (f.input.Smooth → n = m) →
      ∃ k, Ends k f' (g a f') ∧ (f.input.Smooth → m + k = total)) :
    Ends total f ((x >>= g) f) := by
  cases ran : x f with
  | error e f' =>
    rw [ran] at first
    rw [Action.bind_of_error ran]
    cases first with
    | failed grown lack =>
      exact .failed grown fun smooth short ↦ Nat.lt_of_lt_of_le (lack smooth short) (within smooth)
  | ok a f' =>
    rw [ran] at first
    rw [Action.bind_of_ok ran]
    cases first with
    | @done _ segments n _ grown exactly =>
      obtain ⟨k, last, sum⟩ := next a segments n f' ran grown exactly
      generalize g a f' = result at last
      cases last with
      | done grown' exactly' =>
        refine .done (grown.trans grown' held) fun smooth ↦ ?_
        rw [exactly smooth, exactly' (grown.moved.smooth smooth), sum smooth]
      | failed grown' lack =>
        refine .failed (grown.trans grown' held) fun smooth short ↦ ?_
        have fewer := lack (grown.moved.smooth smooth) short
        rw [grown.moved.remaining_eq smooth, List.length_drop, exactly smooth] at fewer
        have := sum smooth
        omega

namespace Renders

variable {need need' : ByteOrder → Bytes → Nat}

theorem pure (a : α) : Renders (fun _ _ ↦ 0) (Pure.pure a : Action σ ω α) :=
  fun _ held ↦ .done (.refl held) fun _ ↦ rfl

/-- A failure of another kind does not tell how many bytes are needed. -/
theorem throw {e : Error} (other : e ≠ .outOfBounds) :
    Renders need (MonadExcept.throw e : Action σ ω α) :=
  fun _ held ↦ .failed (.refl held) fun _ short ↦ absurd short other

theorem andThen {x : Action σ ω α} {y : Action σ ω β} (hx : Renders need x)
    (hy : Renders need' y) :
    Renders (fun order bs ↦ need order bs + need' order (bs.drop (need order bs)))
      (x >>= fun _ ↦ y) := by
  intro f held
  refine Ends.bind held (hx f held) (fun _ ↦ Nat.le_add_right _ _) ?_
  intro a segments n f' _ grown exactly
  refine ⟨_, hy f' (grown.held held), fun smooth ↦ ?_⟩
  rw [grown.moved.order_eq, grown.moved.remaining_eq smooth, exactly smooth]

/-- A question does not read. -/
theorem ask {question : Session ω → Except Error α} {g : α → Action σ ω β}
    (other : ∀ s, question s ≠ .error .outOfBounds) (hg : ∀ a, Renders need (g a)) :
    Renders need (Frame.ask question >>= g) := by
  intro f held
  cases answer : question f.session with
  | ok a =>
    have asked : Frame.ask question f = .ok a f := by rw [Frame.ask, answer]
    rw [Action.bind_of_ok asked]
    exact hg a f held
  | error e =>
    have asked : (Frame.ask question : Action σ ω α) f = .error e f := by rw [Frame.ask, answer]
    rw [Action.bind_of_error asked]
    exact .failed (.refl held) fun _ short ↦ absurd (short ▸ answer) (other f.session)

end Renders

/-! ## Printing and reading -/

/-- Writing leaves the window alone. -/
theorem input_of_write {x : Output.Action σ α} {a : α} {f f' : Frame σ ω}
    (written : write x f = .ok a f') : f'.input = f.input := by
  rw [write] at written
  split at written
  · cases written
    rfl
  · cases written

section Sinks

variable [Sink σ] {f : Frame σ ω} {need : ByteOrder → Bytes → Nat}

/-- A piece that is printed waits. -/
theorem write_print (held : f.Held) (segment : OutputKind × String) :
    ∃ f', write (Output.print segment.1 segment.2) f = .ok () f' ∧ Grown [segment] 0 f f' := by
  refine ⟨{ f with output := { f.output with
    queue := f.output.queue ++ Operation.prints [segment] } }, ?_, .refl held.settled, rfl⟩
  rw [write, Output.print, Output.push_of_off held.off]
  rfl

theorem renders_print (kind : OutputKind) (text : String) :
    Renders (fun _ _ ↦ 0) (write (Output.print kind text) : Action σ ω Unit) := by
  intro f held
  obtain ⟨f', printed, grown⟩ := write_print held (kind, text)
  rw [printed]
  exact .done grown fun _ ↦ rfl

/-- A print in front does not change what is needed. -/
theorem Renders.print {x : Action σ ω α} (kind : OutputKind) (text : String)
    (hx : Renders need x) : Renders need (write (Output.print kind text) >>= fun _ ↦ x) := by
  have first : Renders (fun _ _ ↦ 0) (write (Output.print kind text) : Action σ ω Unit) :=
    renders_print kind text
  simpa only [Nat.zero_add, List.drop_zero] using first.andThen hx

end Sinks

/-- A scalar is read whole or not at all. -/
theorem ends_scalar (k : Scalar) {f : Frame σ ω} (held : f.Held) :
    Ends k.size f (read (Window.scalar k) f) ∧
      ∀ bits f', read (Window.scalar k) f = .ok bits f' → f.input.Smooth →
        bits = f.input.order.value (f.input.remaining.take k.size) := by
  have moved := (Window.consumes_scalar k).moved held.settled
  have answer : f.input.Smooth → Window.outcome (Window.scalar k f.input) =
      if f.input.remaining.length < k.size then .error .outOfBounds
      else .ok (f.input.order.value (f.input.remaining.take k.size)) := by
    intro smooth
    refine (congrArg Prod.fst ((Window.consumes_scalar k).on_tape smooth).1).trans ?_
    exact apply_ite Prod.fst ..
  rw [read]
  cases ran : Window.scalar k f.input with
  | ok bits w =>
    rw [ran] at moved answer
    have grown : Grown [] k.size f { f with input := w } := ⟨moved, by simp [Operation.prints]⟩
    refine ⟨.done grown fun _ ↦ rfl, ?_⟩
    intro bits' f' eq smooth
    cases eq
    have := answer smooth
    split at this
    · cases this
    · exact Except.ok.inj this
  | error e w =>
    rw [ran] at moved answer
    have grown : Grown [] 0 f { f with input := w } := ⟨moved, by simp [Operation.prints]⟩
    refine ⟨.failed grown ?_, fun _ _ made ↦ by cases made⟩
    intro smooth _
    have := answer smooth
    split at this
    · assumption
    · cases this

/-- What is needed after a scalar may depend on its value. -/
theorem Renders.scalar {k : Scalar} {need : Nat → ByteOrder → Bytes → Nat}
    {g : Nat → Action σ ω α} (hg : ∀ bits, Renders (need bits) (g bits)) :
    Renders
      (fun order bs ↦ k.size + need (order.value (bs.take k.size)) order (bs.drop k.size))
      (read (Window.scalar k) >>= g) := by
  intro f held
  obtain ⟨first, value⟩ := ends_scalar k held
  refine Ends.bind held first (fun _ ↦ Nat.le_add_right _ _) ?_
  intro bits segments n f' ran grown exactly
  refine ⟨_, hg bits f' (grown.held held), fun smooth ↦ ?_⟩
  rw [grown.moved.order_eq, grown.moved.remaining_eq smooth, exactly smooth,
    value bits f' ran smooth]

end Frame

/-! ## Operands -/

theorem Session.activeSymbols_ne_outOfBounds {ω : Type} (s : Session ω) :
    s.activeSymbols ≠ .error .outOfBounds := by
  rw [activeSymbols, active]
  cases s.running.getLast? with
  | none =>
    intro failed
    cases failed
  | some b =>
    intro failed
    obtain ⟨name, _ | symbols⟩ := b
    · cases failed
    · cases failed

theorem Symbols.resolve_ne_outOfBounds (s : Symbols) (index : Nat) :
    s.resolve index ≠ .error .outOfBounds := by
  rw [resolve]
  cases s.get? index <;> nofun

namespace Operand

open Disasm.Frame (Renders renders_print)

variable {σ ω : Type} [Sink σ]

theorem target_ne_outOfBounds (start : Nat) (offset : Int) :
    target start offset ≠ .error .outOfBounds := by
  rw [target]
  split <;> nofun

theorem renders_renderScalar (k : Scalar) :
    Renders (fun _ _ ↦ k.size) (renderScalar k : Frame.Action σ ω Unit) :=
  .scalar fun _ ↦ renders_print _ _

theorem renders_renderSymbol (k : Scalar) :
    Renders (fun _ _ ↦ k.size) (renderSymbol k : Frame.Action σ ω Unit) :=
  .scalar fun index ↦ .ask Session.activeSymbols_ne_outOfBounds fun symbols ↦
    .ask (fun _ ↦ symbols.resolve_ne_outOfBounds index) fun _ ↦ .print _ _ (renders_print _ _)

theorem renders_renderBranch (start : Nat) (k : Scalar) :
    Renders (fun _ _ ↦ k.size) (renderBranch start k : Frame.Action σ ω Unit) :=
  .scalar fun bits ↦ .ask (fun _ ↦ target_ne_outOfBounds start (k.signed bits)) fun _ ↦
    renders_print _ _

theorem renders_renderBranches (start count : Nat) :
    Renders (fun _ _ ↦ 4 * count) (renderBranches start count : Frame.Action σ ω Unit) := by
  induction count with
  | zero => exact .pure ()
  | succ count ih =>
    rw [Nat.mul_succ, Nat.add_comm]
    exact .print _ _ ((renders_renderBranch start .i32).andThen ih)

/-- A jump table is its size and as many branches. -/
theorem renders_renderTable (start : Nat) :
    Renders (width · · table32) (renderTable start : Frame.Action σ ω Unit) := by
  refine @Renders.scalar σ ω Unit .i32
    (fun bits _ _ ↦ 4 * (Scalar.i32.signed bits).toNat) _ fun bits ↦ ?_
  dsimp only
  by_cases negative : Scalar.i32.signed bits < 0
  · rw [if_pos negative]
    exact .throw nofun
  · rw [if_neg negative]
    refine .print _ _ ?_
    cases (Scalar.i32.signed bits).toNat with
    | zero => exact renders_print _ _
    | succ count =>
      rw [Nat.mul_succ, Nat.add_comm]
      exact (renders_renderBranch start .i32).andThen
        ((renders_renderBranches start count).andThen (renders_print _ _))

theorem renders_render (start : Nat) (k : Operand) :
    Renders (width · · k) (k.render start : Frame.Action σ ω Unit) := by
  cases k with
  | scalar k => exact renders_renderScalar k
  | sym8 => exact renders_renderSymbol .u8
  | sym16 => exact renders_renderSymbol .u16
  | sym32 => exact renders_renderSymbol .u32
  | rel8 => exact renders_renderBranch start .i8
  | rel16 => exact renders_renderBranch start .i16
  | rel32 => exact renders_renderBranch start .i32
  | table32 => exact renders_renderTable start

theorem renders_renderRest (start : Nat) (ks : List Operand) :
    Renders (widths · ks) (renderRest start ks : Frame.Action σ ω Unit) := by
  induction ks with
  | nil => exact .pure ()
  | cons k ks ih => exact .print _ _ ((renders_render start k).andThen ih)

theorem renders_renderAll (start : Nat) (ks : List Operand) :
    Renders (widths · ks) (renderAll start ks : Frame.Action σ ω Unit) := by
  cases ks with
  | nil => exact .pure ()
  | cons k ks => exact .print _ _ ((renders_render start k).andThen (renders_renderRest start ks))

end Operand

/-! ## Instructions -/

namespace Instruction

variable {σ ω : Type} [Sink σ]

open Disasm.Frame (Grown)

/-- Every instruction is what stands first, its operands and a line end. -/
theorem render_eq (opcode : Opcode) (i : Instruction) (f : Frame σ ω) :
    i.render opcode f = (do
      Frame.write (Output.print i.head.1 i.head.2)
      Operand.renderAll (f.input.totalRead - opcode.length) i.kinds
      Frame.write (Output.push .newline)) f := by
  cases i <;> rfl

/-- How rendering an instruction inside a line may end: with its line in the queue
and just its operands read, or with a part of it. -/
inductive Rendered (i : Instruction) (f : Frame σ ω) :
    EStateM.Result Error (Frame σ ω) Unit → Prop
  | line {rest : List (OutputKind × String)} {n : Nat} {w : Window} :
      f.input.Moved n w → (f.input.Smooth → n = i.width f.input.order f.input.remaining) →
      (i.kinds = [] → rest = []) →
      Rendered i f (.ok () { f with
        input := w
        output := { f.output with queue := f.output.queue ++ Operation.line (i.head :: rest) } })
  | part {e : Error} {segments : List (OutputKind × String)} {n : Nat} {f' : Frame σ ω} :
      Grown segments n f f' →
      (f.input.Smooth → e = .outOfBounds →
        f.input.remaining.length < i.width f.input.order f.input.remaining) →
      Rendered i f (.error e f')

/-- A line end behind what stands first and the operands makes the line. -/
theorem rendered_newline {f f' : Frame σ ω} {i : Instruction}
    {rest : List (OutputKind × String)} {n : Nat} (held : f.Held)
    (grown : Grown (i.head :: rest) n f f')
    (exactly : f.input.Smooth → n = i.width f.input.order f.input.remaining)
    (plain : i.kinds = [] → rest = []) :
    Rendered i f (Frame.write (Output.push .newline) f') := by
  rw [Frame.write, Output.push_of_off (grown.held held).off, grown.frame]
  simp only [List.append_assoc]
  exact .line grown.moved exactly plain

theorem rendered_render (opcode : Opcode) (i : Instruction) {f : Frame σ ω} (held : f.Held) :
    Rendered i f (i.render opcode f) := by
  obtain ⟨f₁, printed, first⟩ := Frame.write_print held i.head
  rw [render_eq, Action.bind_of_ok printed]
  by_cases plain : i.kinds = []
  · rw [plain]
    refine rendered_newline held first (fun _ ↦ ?_) fun _ ↦ rfl
    rw [width, plain, Operand.widths]
  · have operands :=
      Operand.renders_renderAll (f.input.totalRead - opcode.length) i.kinds f₁ (first.held held)
    have same : f.input.Smooth → f₁.input.remaining = f.input.remaining :=
      first.moved.remaining_eq
    rw [first.moved.order_eq] at operands
    cases ran : Operand.renderAll (f.input.totalRead - opcode.length) i.kinds f₁ with
    | ok a f₂ =>
      rw [ran] at operands
      rw [Action.bind_of_ok ran]
      cases operands with
      | done grown exactly =>
        refine rendered_newline held (first.trans grown held) (fun smooth ↦ ?_)
          fun nil ↦ absurd nil plain
        rw [Nat.zero_add, exactly (first.moved.smooth smooth), same smooth]
        rfl
    | error e f₂ =>
      rw [ran] at operands
      rw [Action.bind_of_error ran]
      cases operands with
      | failed grown lack =>
        refine .part (first.trans grown held) fun smooth short ↦ ?_
        have fewer := lack (first.moved.smooth smooth) short
        rwa [same smooth] at fewer

end Instruction

end Disasm
