import Disasm.Decoder.Range
import Disasm.Proofs.Decoder.Lines
import Disasm.Proofs.Output.Likeness
import Disasm.Proofs.Window.Likeness

/-!
# Two runs of a decoder side by side

Two frames stand side by side if their windows and their sinks are alike, the same
operations wait in both, and the same symbols are known.  The loop of a table
decoder cannot tell them apart: it looks up the same instructions, prints the same
lines and ends alike, or the first run ends early because its sink has failed.

A failure inside a line is caught, so that a line needs a remark of its own: while
it is held back nothing goes to the sink, and no sink can fail.
-/

namespace Disasm

open Disasm.Action (Coupling ending)

/-! ## Lookups -/

/-- Switching commits takes nothing from the reserve. -/
theorem Index.reserve_setAutoCommit (on : Bool) (w : Window) :
    reserve (w.setAutoCommit on) = reserve w := by
  rw [Window.setAutoCommit]
  split
  · change w.commit.unread.length + _ = _
    rw [Window.unread_commit]
    rfl
  · rfl

theorem Index.respects_lookup {δ : Type} (L : Window.Likeness) (ix : Index δ) (eager : Bool) :
    L.coupling.Respects (ix.lookup eager) := by
  refine .get (fun w w' like ↦ ?_) fun w ↦ (L.peek _).bind fun front ↦ ?_
  · rw [L.totalRead_eq like]
  · split
    · exact .pure none
    · split
      · refine (L.respects_bytes _).bind fun bytes ↦ ?_
        split
        · exact .pure _
        · exact .throw _
      · exact (L.peek _).bind fun ahead ↦ (L.respects_bytes _).bind fun bytes ↦ .pure _

/-! ## Frames -/

/-- A decoder that runs innermost tells the symbols that are known. -/
theorem Binding.activeSymbols_enter {ω : Type} (b : Binding) (s s' : Session ω) :
    (s.enter b).activeSymbols = (s'.enter b).activeSymbols := by
  simp [Session.activeSymbols, Session.active, Session.enter]

variable {σ ω α β : Type} [Sink σ]

namespace Frame

/-- The frames cannot be told apart. -/
structure Beside (W : Window.Likeness) (S : Sink.Likeness σ) (f f' : Frame σ ω) : Prop where
  input : W.Like f.input f'.input
  output : Output.Alike S f.output f'.output
  symbols_eq : f.session.activeSymbols = f'.session.activeSymbols

/-- Frames side by side.  What is lost is lost by the sink. -/
def coupling (ω : Type) (W : Window.Likeness) (S : Sink.Likeness σ) :
    Coupling Error (Frame σ ω) where
  Like := Beside W S
  Lost e f f' := S.Lost e f.output.sink f'.output.sink

variable {W : Window.Likeness} {S : Sink.Likeness σ}

omit [Sink σ] in
theorem read_eq_within (x : Window.Action α) :
    (read x : Action σ ω α) = Coupling.within Frame.input (fun input f ↦ { f with input }) x := by
  funext f
  rw [read, Coupling.within]
  cases x f.input <;> rfl

omit [Sink σ] in
theorem write_eq_within (x : Output.Action σ α) :
    (write x : Action σ ω α) =
      Coupling.within Frame.output (fun output f ↦ { f with output }) x := by
  funext f
  rw [write, Coupling.within]
  cases x f.output <;> rfl

theorem respects_read {x : Window.Action α} (hx : W.coupling.Respects x) :
    (coupling ω W S).Respects (read x) := by
  rw [read_eq_within]
  refine hx.within Frame.input (fun input f ↦ { f with input }) ?_ ?_ ?_ ?_
  · intro f f' like
    exact like.input
  · intro f f' w w' like alike
    exact { like with input := alike }
  · intro e f f' w w' lost
    exact lost.elim
  · intro e f f' lost
    exact lost

theorem respects_write {x : Output.Action σ α} (hx : (Output.coupling S).Respects x) :
    (coupling ω W S).Respects (write x) := by
  rw [write_eq_within]
  refine hx.within Frame.output (fun output f ↦ { f with output }) ?_ ?_ ?_ ?_
  · intro f f' like
    exact like.output
  · intro f f' o o' like alike
    exact { like with output := alike }
  · intro e f f' o o' lost
    exact lost
  · intro e f f' lost
    exact hx.keeps e _ _ lost

/-- A question must have the same answer where the same symbols are known. -/
theorem respects_ask {question : Session ω → Except Error α}
    (same : ∀ s s', s.activeSymbols = s'.activeSymbols → question s = question s') :
    (coupling ω W S).Respects (ask question) where
  paired f f' like := by
    rw [ask, ask, same _ _ like.symbols_eq]
    cases question f'.session with
    | ok a => exact .ok like
    | error e => exact .error like
  keeps e f f' lost := by
    rw [ask]
    cases question f'.session <;> exact lost

theorem respects_record (r : Log.Record) : (coupling ω W S).Respects (record r) :=
  .update (fun _ _ like ↦ { like with symbols_eq := like.symbols_eq }) fun _ _ _ lost ↦ lost

theorem respects_print (kind : OutputKind) (text : String) :
    (coupling ω W S).Respects (write (Output.print kind text)) :=
  respects_write (Output.respects_print S kind text)

theorem respects_setAutoCommit (on : Bool) :
    (coupling ω W S).Respects (write (Output.setAutoCommit on)) :=
  respects_write (Output.respects_setAutoCommit S on)

theorem respects_input_setAutoCommit (on : Bool) :
    (coupling ω W S).Respects
      (modify fun f ↦ { f with input := f.input.setAutoCommit on } : Action σ ω Unit) :=
  .update (fun _ _ like ↦ { like with input := W.setAutoCommit on like.input })
    fun _ _ _ lost ↦ lost

/-! ## Lines that are held back -/

omit [Sink σ] in
theorem ending_attempt (x : Action σ ω α) (f : Frame σ ω) :
    ending (attempt x f) = ending (x f) := by
  rw [attempt]
  cases x f <;> rfl

/-- A failure can be caught unless it is that of a sink. -/
theorem paired_attempt {x : Action σ ω α} {f f' : Frame σ ω} (hx : (coupling ω W S).Respects x)
    (like : Beside W S f f') (kept : (ending (x f)).output.sink = f.output.sink)
    (kept' : (ending (x f')).output.sink = f'.output.sink) :
    (coupling ω W S).Paired (attempt x f) (attempt x f') := by
  have both := hx.paired f f' like
  rw [attempt, attempt]
  generalize x f = r at both kept
  generalize x f' = r' at both kept'
  cases both with
  | ok like' => exact .ok like'
  | error like' => exact .ok like'
  | @lost e g r' lost =>
    -- both sinks are still those of the beginning, and these were alike
    change S.Lost e g.output.sink (ending r').output.sink at lost
    change g.output.sink = f.output.sink at kept
    rw [kept, kept'] at lost
    exact absurd like.output.sink (S.apart lost)

/-- Begins a line and holds it back, tries some work, and concludes the line. -/
def line (segment : OutputKind × String) (x : Action σ ω α)
    (conclude : Except Error α → Action σ ω β) : Action σ ω β := do
  write (Output.setAutoCommit false)
  modify fun f ↦ { f with input := f.input.setAutoCommit false }
  write (Output.print segment.1 segment.2)
  let r ← attempt x
  conclude r

theorem line_of_begun {segment : OutputKind × String} {x : Action σ ω α}
    {conclude : Except Error α → Action σ ω β} {f f₁ : Frame σ ω}
    (printed : write (Output.print segment.1 segment.2) f.begun = .ok () f₁) :
    line segment x conclude f = (attempt x >>= conclude) f₁ := by
  have off : write (Output.setAutoCommit false) f = .ok ()
      { f with output := { f.output with autoCommit := false } } := by
    rw [write, Output.setAutoCommit_off]
  exact (Action.bind_of_ok off).trans ((Action.bind_of_ok rfl).trans (Action.bind_of_ok printed))

theorem Beside.begun {f f' : Frame σ ω} (like : Beside W S f f') :
    f.begun.Held ∧ f'.begun.Held ∧ Beside W S f.begun f'.begun := by
  obtain ⟨settled, settled'⟩ := W.settled like.input
  refine ⟨⟨rfl, settled.setAutoCommit false⟩, ⟨rfl, settled'.setAutoCommit false⟩, ?_⟩
  exact { like with
    input := W.setAutoCommit false like.input
    output := { like.output with autoCommit_eq := rfl } }

/-- A line is respected if its work is, and if that goes to no sink. -/
theorem respects_line (segment : OutputKind × String) {x : Action σ ω α}
    {conclude : Except Error α → Action σ ω β} (hx : (coupling ω W S).Respects x)
    (kept : ∀ f : Frame σ ω, f.Held → (ending (x f)).output.sink = f.output.sink)
    (hc : ∀ r, (coupling ω W S).Respects (conclude r)) :
    (coupling ω W S).Respects (line segment x conclude) := by
  have label : (coupling ω W S).Respects (write (Output.print segment.1 segment.2)) :=
    respects_print segment.1 segment.2
  constructor
  · intro f f' like
    obtain ⟨held, held', begun⟩ := like.begun
    obtain ⟨f₁, printed, grown⟩ := write_print held segment
    obtain ⟨f₁', printed', grown'⟩ := write_print held' segment
    have alike := label.paired _ _ begun
    rw [printed, printed'] at alike
    rw [line_of_begun printed, line_of_begun printed']
    cases alike with
    | ok like₁ =>
      have tried := paired_attempt hx like₁ (kept f₁ (grown.held held))
        (kept f₁' (grown'.held held'))
      exact tried.bind (fun r ↦ (hc r).paired) fun r ↦ (hc r).keeps
  · have tried : (coupling ω W S).Keeps (attempt x) := by
      intro e f f' lost
      rw [ending_attempt]
      exact hx.keeps e f f' lost
    exact (respects_setAutoCommit false).keeps.bind fun _ ↦
      (respects_input_setAutoCommit false).keeps.bind fun _ ↦ label.keeps.bind fun _ ↦
        tried.bind fun r ↦ (hc r).keeps

end Frame

/-! ## Rendering -/

section Rendering

open Disasm.Frame (coupling respects_read respects_write respects_ask respects_print)

variable {W : Window.Likeness} {S : Sink.Likeness σ}

namespace Operand

theorem respects_renderScalar (k : Scalar) :
    (coupling ω W S).Respects (renderScalar k : Frame.Action σ ω Unit) :=
  (respects_read (W.respects_scalar k)).bind fun _ ↦ respects_print _ _

theorem respects_renderSymbol (k : Scalar) :
    (coupling ω W S).Respects (renderSymbol k : Frame.Action σ ω Unit) :=
  (respects_read (W.respects_scalar k)).bind fun _ ↦
    (respects_ask fun _ _ same ↦ same).bind fun _ ↦
      (respects_ask fun _ _ _ ↦ rfl).bind fun _ ↦
        (respects_print _ _).bind fun _ ↦ respects_print _ _

theorem respects_renderBranch (start : Nat) (k : Scalar) :
    (coupling ω W S).Respects (renderBranch start k : Frame.Action σ ω Unit) :=
  (respects_read (W.respects_scalar k)).bind fun _ ↦
    (respects_ask fun _ _ _ ↦ rfl).bind fun _ ↦ respects_print _ _

theorem respects_renderBranches (start count : Nat) :
    (coupling ω W S).Respects (renderBranches start count : Frame.Action σ ω Unit) := by
  induction count with
  | zero => exact .pure ()
  | succ count ih =>
    exact (respects_print _ _).bind fun _ ↦ (respects_renderBranch start .i32).bind fun _ ↦ ih

theorem respects_renderTable (start : Nat) :
    (coupling ω W S).Respects (renderTable start : Frame.Action σ ω Unit) := by
  refine (respects_read (W.respects_scalar .i32)).bind fun bits ↦
    .check ((respects_print _ _).bind fun _ ↦ ?_)
  cases (Scalar.i32.signed bits).toNat with
  | zero => exact respects_print _ _
  | succ count =>
    exact (respects_renderBranch start .i32).bind fun _ ↦
      (respects_renderBranches start count).bind fun _ ↦ respects_print _ _

theorem respects_render (start : Nat) (k : Operand) :
    (coupling ω W S).Respects (k.render start : Frame.Action σ ω Unit) := by
  cases k with
  | scalar k => exact respects_renderScalar k
  | sym8 => exact respects_renderSymbol .u8
  | sym16 => exact respects_renderSymbol .u16
  | sym32 => exact respects_renderSymbol .u32
  | rel8 => exact respects_renderBranch start .i8
  | rel16 => exact respects_renderBranch start .i16
  | rel32 => exact respects_renderBranch start .i32
  | table32 => exact respects_renderTable start

theorem respects_renderRest (start : Nat) (ks : List Operand) :
    (coupling ω W S).Respects (renderRest start ks : Frame.Action σ ω Unit) := by
  induction ks with
  | nil => exact .pure ()
  | cons k ks ih =>
    exact (respects_print _ _).bind fun _ ↦ (respects_render start k).bind fun _ ↦ ih

theorem respects_renderAll (start : Nat) (ks : List Operand) :
    (coupling ω W S).Respects (renderAll start ks : Frame.Action σ ω Unit) := by
  cases ks with
  | nil => exact .pure ()
  | cons k ks =>
    exact (respects_print _ _).bind fun _ ↦ (respects_render start k).bind fun _ ↦
      respects_renderRest start ks

end Operand

namespace Instruction

/-- Branches are relative to a place that windows which are alike agree on. -/
theorem respects_render (opcode : Opcode) (i : Instruction) :
    (coupling ω W S).Respects (i.render opcode : Frame.Action σ ω Unit) := by
  have from_place : i.render opcode = (do
      let f ← get
      Frame.write (Output.print i.head.1 i.head.2)
      Operand.renderAll (f.input.totalRead - opcode.length) i.kinds
      Frame.write (Output.push .newline) : Frame.Action σ ω Unit) := by
    funext f
    exact render_eq opcode i f
  rw [from_place]
  refine .get (fun f f' like ↦ ?_) fun f ↦ ?_
  · rw [W.totalRead_eq like.input]
  · exact (respects_print _ _).bind fun _ ↦ (Operand.respects_renderAll _ _).bind fun _ ↦
      respects_write (Output.respects_push S .newline)

omit W S in
/-- An instruction is printed to the queue alone while its line is held back. -/
theorem sink_render (opcode : Opcode) (i : Instruction) {f : Frame σ ω} (held : f.Held) :
    (ending (i.render opcode f)).output.sink = f.output.sink := by
  have rendered := rendered_render opcode i held
  generalize i.render opcode f = result at rendered
  cases rendered with
  | line => rfl
  | part grown => exact grown.sink_eq

end Instruction

end Rendering

/-! ## The loop of a table decoder -/

namespace Table

open Disasm.Frame (coupling respects_read respects_write respects_print respects_record
  respects_setAutoCommit respects_input_setAutoCommit)

variable {W : Window.Likeness} {S : Sink.Likeness σ}

theorem respects_next (t : Table) :
    (coupling ω W S).Respects (t.next : Frame.Action σ ω (Option (Index.Lookup Instruction))) := by
  refine .get (fun f f' like ↦ ?_) fun f ↦ ?_
  · rw [W.totalRead_eq like.input]
  · exact (respects_read (t.index.respects_lookup W t.eager)).bind fun found ↦
      (respects_record _).bind fun _ ↦ .pure found

theorem respects_takeBack : (coupling ω W S).Respects (takeBack : Frame.Action σ ω Unit) :=
  .update
    (fun _ _ like ↦ { like with
      input := W.setAutoCommit true (W.discard like.input)
      output := { like.output with queue_eq := rfl } })
    fun _ _ _ lost ↦ lost

/-- How the line of an instruction is concluded. -/
def conclude (name : String) (found : Index.Lookup Instruction) :
    Except Error Unit → Frame.Action σ ω Progress
  | .ok _ => do
    modify fun f ↦ { f with input := f.input.setAutoCommit true }
    Frame.write (Output.setAutoCommit true)
    return .more
  | .error .outOfBounds => do
    let opcode := found.opcode?.getD .empty
    takeBack
    Frame.record ⟨.warn,
      s!"{name}: instruction [{opcode.text}] at {Text.Hex.marked 1 found.offset} is truncated"⟩
    printLabel found.offset
    let mnemonic := found.descriptor.mnemonic?.getD "instruction"
    Frame.write (Output.println .error s!"<truncated {mnemonic}>")
    Frame.write (Output.setAutoCommit true)
    return .finished
  | .error e => do
    takeBack
    Frame.write (Output.setAutoCommit true)
    throw e

theorem renderFound_eq_line (name : String) (found : Index.Lookup Instruction) :
    (renderFound name found : Frame.Action σ ω Progress) =
      Frame.line (labelSegment found.offset)
        (found.descriptor.render (found.opcode?.getD .empty)) (conclude name found) := rfl

theorem respects_conclude (name : String) (found : Index.Lookup Instruction)
    (r : Except Error Unit) :
    (coupling ω W S).Respects (conclude name found r : Frame.Action σ ω Progress) := by
  fun_cases conclude (σ := σ) (ω := ω) name found r with
  | case1 =>
    exact (respects_input_setAutoCommit true).bind fun _ ↦
      (respects_setAutoCommit true).bind fun _ ↦ .pure _
  | case2 =>
    exact respects_takeBack.bind fun _ ↦ (respects_record _).bind fun _ ↦
      (respects_print _ _).bind fun _ ↦
        (respects_write (Output.respects_println S _ _)).bind fun _ ↦
          (respects_setAutoCommit true).bind fun _ ↦ .pure _
  | case3 =>
    exact respects_takeBack.bind fun _ ↦ (respects_setAutoCommit true).bind fun _ ↦ .throw _

theorem respects_renderFound (name : String) (found : Index.Lookup Instruction) :
    (coupling ω W S).Respects (renderFound name found : Frame.Action σ ω Progress) := by
  rw [renderFound_eq_line]
  exact Frame.respects_line _ (Instruction.respects_render _ _)
    (fun _ held ↦ Instruction.sink_render _ _ held) (respects_conclude name found)

theorem respects_renderFor (t : Table) (name : String) (count : Nat) :
    (coupling ω W S).Respects (t.renderFor name count : Frame.Action σ ω Unit) := by
  induction count with
  | zero => exact .pure ()
  | succ count ih =>
    refine (respects_next t).bind fun found? ↦ ?_
    cases found? with
    | none => exact .pure ()
    | some found =>
      refine (respects_renderFound name found).bind fun progress ↦ ?_
      cases progress with
      | finished => exact .pure ()
      | more => exact ih

/-! ### The count of instructions

The loop counts down from a number that depends on the window.  Windows that are
alike may have different reserves, so that it is shown first that any larger number
does as well. -/

theorem conclude_error_ne_more (name : String) (found : Index.Lookup Instruction) (e : Error)
    (f f' : Frame σ ω) : conclude name found (.error e) f ≠ .ok .more f' := by
  intro concluded
  by_cases short : e = .outOfBounds
  · subst short
    obtain ⟨_, f₁, -, concluded⟩ := Action.bind_eq_ok.1 concluded
    obtain ⟨_, f₂, -, concluded⟩ := Action.bind_eq_ok.1 concluded
    obtain ⟨_, f₃, -, concluded⟩ := Action.bind_eq_ok.1 concluded
    obtain ⟨_, f₄, -, concluded⟩ := Action.bind_eq_ok.1 concluded
    obtain ⟨_, f₅, -, concluded⟩ := Action.bind_eq_ok.1 concluded
    cases concluded
  · have thrown : conclude name found (.error e) f = (do
        takeBack
        Frame.write (Output.setAutoCommit true)
        throw e : Frame.Action σ ω Progress) f := by
      rw [conclude]
      exact short
    rw [thrown] at concluded
    obtain ⟨_, f₁, -, concluded⟩ := Action.bind_eq_ok.1 concluded
    obtain ⟨_, f₂, -, concluded⟩ := Action.bind_eq_ok.1 concluded
    cases concluded

/-- A line that was printed has only moved the window on. -/
theorem reserve_of_more {name : String} {found : Index.Lookup Instruction} {f f' : Frame σ ω}
    (settled : f.input.Settled) (rendered : renderFound name found f = .ok .more f') :
    f'.input.Settled ∧ Index.reserve f'.input ≤ Index.reserve f.input := by
  have held : f.begun.Held := ⟨rfl, settled.setAutoCommit false⟩
  obtain ⟨f₁, printed, grown⟩ := Frame.write_print held (labelSegment found.offset)
  rw [renderFound_eq_line, Frame.line_of_begun printed] at rendered
  obtain ⟨r, f₂, tried, concluded⟩ := Action.bind_eq_ok.1 rendered
  have inner := found.descriptor.rendered_render (found.opcode?.getD .empty) (grown.held held)
  rw [Frame.attempt] at tried
  generalize found.descriptor.render (found.opcode?.getD .empty) f₁ = result at inner tried
  cases inner with
  | @line rest n w moved =>
    cases tried
    rw [conclude] at concluded
    obtain ⟨_, f₃, switched, concluded⟩ := Action.bind_eq_ok.1 concluded
    cases switched
    obtain ⟨_, f₄, committed, concluded⟩ := Action.bind_eq_ok.1 concluded
    cases concluded
    have input := Frame.input_of_write committed
    have total := grown.moved.trans moved held.settled
    have fewer := Index.reserve_of_moved total held.settled
    rw [input]
    refine ⟨(total.settled held.settled).setAutoCommit true, ?_⟩
    rw [Index.reserve_setAutoCommit]
    rw [show Index.reserve f.begun.input = Index.reserve f.input from
      Index.reserve_setAutoCommit false f.input] at fewer
    change Index.reserve w ≤ Index.reserve f.input
    omega
  | @part e segments n f₂ =>
    cases tried
    exact absurd concluded (conclude_error_ne_more _ _ _ _ _)

/-- The count of instructions does not matter if it exceeds the reserve. -/
theorem renderFor_eq (t : Table) (name : String) {count count' : Nat} {f : Frame σ ω}
    (settled : f.input.Settled) (enough : Index.reserve f.input < count)
    (enough' : Index.reserve f.input < count') :
    t.renderFor name count f = t.renderFor name count' f := by
  induction count generalizing count' f with
  | zero => exact absurd enough (Nat.not_lt_zero _)
  | succ count ih =>
    cases count' with
    | zero => exact absurd enough' (Nat.not_lt_zero _)
    | succ count' =>
      rw [renderFor, renderFor]
      cases looked : t.next f with
      | error e f₁ => rw [Action.bind_of_error looked, Action.bind_of_error looked]
      | ok found? f₁ =>
        rw [Action.bind_of_ok looked, Action.bind_of_ok looked]
        cases found? with
        | none => rfl
        | some found =>
          obtain ⟨n, positive, moved⟩ := moved_next settled looked
          have fewer := Index.reserve_of_moved moved settled
          dsimp only
          cases rendered : renderFound name found f₁ with
          | error e f₂ => rw [Action.bind_of_error rendered, Action.bind_of_error rendered]
          | ok progress f₂ =>
            rw [Action.bind_of_ok rendered, Action.bind_of_ok rendered]
            cases progress with
            | finished => rfl
            | more =>
              obtain ⟨settled₂, le⟩ := reserve_of_more (moved.settled settled) rendered
              exact ih settled₂ (by omega) (by omega)

theorem run_eq_renderFor (t : Table) (name : String) {count : Nat} {f : Frame σ ω}
    (settled : f.input.Settled) (enough : Index.reserve f.input < count) :
    t.run name f = t.renderFor name count f :=
  t.renderFor_eq name settled (Nat.lt_succ_self _) enough

/-- The loop of a table decoder cannot tell frames apart that stand side by side. -/
theorem respects_run (t : Table) (name : String) :
    (coupling ω W S).Respects (t.run name : Frame.Action σ ω Unit) where
  paired f f' like := by
    obtain ⟨settled, settled'⟩ := W.settled like.input
    -- one count that is enough on both sides, so that the same action runs there
    let count := max (Index.reserve f.input) (Index.reserve f'.input) + 1
    have enough : Index.reserve f.input < count := Nat.lt_succ_of_le (Nat.le_max_left _ _)
    have enough' : Index.reserve f'.input < count := Nat.lt_succ_of_le (Nat.le_max_right _ _)
    rw [t.run_eq_renderFor name settled enough, t.run_eq_renderFor name settled' enough']
    exact (respects_renderFor t name count).paired f f' like
  keeps e f f' lost := (respects_renderFor t name (Index.reserve f'.input + 1)).keeps e f f' lost

end Table

/-! ## Ranges -/

namespace Range

open Disasm.Frame (coupling respects_read respects_record respects_setAutoCommit)

variable {W : Window.Likeness} {S : Sink.Likeness σ} {loop : Frame.Action σ ω Unit}

theorem respects_steps (r : Range) (settings : Settings) (hl : (coupling ω W S).Respects loop) :
    (coupling ω W S).Respects (r.steps settings loop) := by
  refine (respects_read (W.respects_skip r.offset)).bind fun _ ↦ (respects_record _).bind fun _ ↦
    hl.bind fun _ ↦ (respects_setAutoCommit true).bind fun _ ↦ .get (fun f f' like ↦ ?_) fun f ↦ ?_
  · rw [W.position_eq like.input]
  · exact (respects_record _).bind fun _ ↦ .pure _

/-- How decoding a range ends on both sides, if it begins side by side: alike, or with
a failure of the first sink. -/
theorem decode_beside {r r' : Range} {settings settings' : Settings} {binding : Binding}
    {source source' : Source} {sink sink' : σ} {session session' : Session ω}
    (hl : (coupling ω W S).Respects loop)
    (same : r'.steps settings' loop = r.steps settings loop)
    (input : W.Like (r.frame settings binding source sink session).input
      (r'.frame settings' binding source' sink' session').input)
    (sinks : S.Like sink sink') :
    let first := r.decode settings binding loop source sink session
    let second := r'.decode settings' binding loop source' sink' session'
    (first.1 = second.1 ∧ W.Like first.2.input second.2.input ∧
        Output.Alike S first.2.output second.2.output) ∨
      ∃ e, first.1 = .error e ∧ S.Lost e first.2.output.sink second.2.output.sink := by
  intro first second
  have both := (r.respects_steps settings hl).paired
    (r.frame settings binding source sink session)
    (r'.frame settings' binding source' sink' session')
    ⟨input, ⟨sinks, rfl, rfl⟩, binding.activeSymbols_enter session session'⟩
  simp only [first, second, decode, same]
  generalize r.steps settings loop (r.frame settings binding source sink session) = a at both
  generalize r.steps settings loop (r'.frame settings' binding source' sink' session') = b at both
  cases both with
  | ok like => exact .inl ⟨rfl, like.input, like.output⟩
  | error like => exact .inl ⟨rfl, like.input, like.output⟩
  | lost lost =>
    refine .inr ⟨_, rfl, ?_⟩
    cases b <;> exact lost

end Range

end Disasm
