import Disasm.Proofs.Decoder.Restart
import Disasm.Proofs.Decoder.Spelling

/-!
# Branches name the lines that they lead to

The place of an instruction is told twice, and not in the same way.  A lookup takes it before
it consumes the opcode, and it becomes the label of the line.  Rendering goes back from where
the window stands by the length of the opcode, and takes that for the start of branches.  Both
are the same for every instruction of the table, so that the label of a branch by `d` is that
of the line `d` bytes further on, and of no other line.
-/

namespace Disasm

/-! ## The start of branches -/

theorem Window.length_of_bytes {n : Nat} {w w' : Window} {bs : Bytes}
    (inside : w.pending ≤ w.lookahead.length) (taken : Window.bytes n w = .ok bs w') :
    bs.length = n := by
  obtain ⟨r, w₁, asked, eq⟩ := consumes_bytes n w inside
  rw [eq] at taken
  cases asked with
  | short | denied => cases taken
  | enough _ there =>
    cases taken
    exact List.length_take_of_le there

/-- An instruction of the table has an opcode, and just that was consumed. -/
theorem Index.moved_of_known {δ : Type} {ix : Index δ} {eager : Bool} {w w' : Window}
    {found : Lookup δ} (settled : w.Settled)
    (looked : ix.lookup eager w = .ok (some found) w') (known : found.known = true) :
    ∃ o, found.opcode? = some o ∧ w.Moved o.length w' := by
  obtain ⟨_, _, got, looked⟩ := Action.bind_eq_ok.1 looked
  cases got
  obtain ⟨front, w₁, peeked, looked⟩ := Action.bind_eq_ok.1 looked
  have first := Window.moved_peek (max ix.maxOpcodeLength 1) settled
  rw [peeked] at first
  split at looked
  next => cases looked
  next filled =>
    cases matched : ix.match? eager front with
    | none =>
      simp only [matched] at looked
      obtain ⟨ahead, w₂, -, looked⟩ := Action.bind_eq_ok.1 looked
      obtain ⟨bytes, w₃, -, looked⟩ := Action.bind_eq_ok.1 looked
      cases looked
      cases known
    | some place =>
      obtain ⟨e, there, -⟩ := match?_begins (mt List.isEmpty_iff.2 filled) matched
      simp only [matched, there, Option.map_some, Option.getD_some] at looked
      obtain ⟨bytes, w₂, taken, looked⟩ := Action.bind_eq_ok.1 looked
      have settled₁ := first.settled settled
      have size : bytes.length = e.opcode.length :=
        Window.length_of_bytes settled₁.pending_le taken
      have moved := first.trans (moved_of_bytes settled₁ taken) settled
      rw [Nat.zero_add, ← size] at moved
      cases loaded : ix.load place with
      | error err =>
        rw [loaded] at looked
        cases looked
      | ok d =>
        rw [loaded] at looked
        cases looked
        exact ⟨⟨bytes, size ▸ e.opcode.length_le⟩,
          dif_pos ⟨rfl, size ▸ e.opcode.length_le⟩, moved⟩

namespace Table

variable {σ ω : Type} [Sink σ] {t : Table} {f f₁ : Frame σ ω}
  {found : Index.Lookup Instruction}

/-- The window stands behind the opcode that was found. -/
theorem totalRead_of_known (settled : f.input.Settled) (looked : t.next f = .ok (some found) f₁)
    (known : found.known = true) :
    ∃ o, found.opcode? = some o ∧ found.offset = f.input.totalRead ∧
      f₁.input.totalRead = found.offset + o.length := by
  rw [next_eq] at looked
  cases answer : t.index.lookup t.eager f.input with
  | error e w =>
    rw [answer] at looked
    cases looked
  | ok found? w =>
    rw [answer] at looked
    cases looked
    obtain ⟨o, opcode, moved⟩ := Index.moved_of_known settled answer known
    have place := Index.offset_of_lookup answer
    exact ⟨o, opcode, place, place ▸ moved.totalRead_eq⟩

end Table

/-! ## The line of an instruction -/

/-- A branch whose offset was read is printed, or fails. -/
theorem Operand.renderBranch_of_read {σ ω : Type} [Sink σ] {k : Scalar} {f f' : Frame σ ω}
    {bits : Nat} (start : Nat) (taken : Frame.read (Window.scalar k) f = .ok bits f') :
    renderBranch start k f =
      match branchTo start (k.signed bits) with
      | .ok (kind, text) => Frame.write (Output.print kind text) f'
      | .error e => .error e f' := by
  refine (Action.bind_of_ok taken).trans ?_
  rw [branchTo_eq]
  cases target start (k.signed bits) with
  | ok address => exact Action.bind_of_ok rfl
  | error e => exact Action.bind_of_error rfl

namespace Instruction

variable {σ ω : Type} [Sink σ] {P : Window.Prospect}

/-- Behind the opcode of an instruction at `start`, that is the start of branches. -/
theorem render_of_start {opcode : Opcode} {start : Nat} {f : Frame σ ω} (i : Instruction)
    (behind : f.input.totalRead = start + opcode.length) :
    i.render opcode f = (do
      Frame.write (Output.print i.head.1 i.head.2)
      Operand.renderAll start i.kinds
      Frame.write (Output.push .newline)) f := by
  rw [render_eq, behind, Nat.add_sub_cancel]

open Disasm.Frame (Grown)

/-- How rendering an instruction inside a line may end, if its operands are spelled like this:
with the spelling in the queue, or with a failure. -/
inductive Spelled (Excused : Error → Prop) (spelling : Except Error (List (OutputKind × String)))
    (i : Instruction) (f : Frame σ ω) : EStateM.Result Error (Frame σ ω) Unit → Prop
  | line {segments : List (OutputKind × String)} {w : Window} : spelling = .ok segments →
      Spelled Excused spelling i f (.ok () { f with
        input := w
        output := { f.output with
          queue := f.output.queue ++ Operation.line (i.head :: segments) } })
  | part {e : Error} {segments : List (OutputKind × String)} {n : Nat} {f' : Frame σ ω} :
      Grown segments n f f' → spelling = .error e ∨ Excused e →
      Spelled Excused spelling i f (.error e f')

theorem spelled_render {opcode : Opcode} {start : Nat} {f : Frame σ ω} {bs : Bytes}
    (i : Instruction) (held : f.Held) (offers : P.Offers bs f.input)
    (behind : f.input.totalRead = start + opcode.length) :
    Spelled P.Excused (Operand.spellAll f.session.activeSymbols start f.input.order bs i.kinds)
      i f (i.render opcode f) := by
  have spelled := Frame.Spells.printFirst i.head.1 i.head.2
    (Operand.spells_renderAll start i.kinds) f bs held offers
  dsimp only at spelled
  rw [i.render_of_start behind, ← bind_assoc]
  generalize (Frame.write (Output.print i.head.1 i.head.2) >>= fun _ ↦
    Operand.renderAll start i.kinds : Frame.Action σ ω Unit) = front at spelled ⊢
  generalize Operand.spellAll _ start _ bs i.kinds = spelling at spelled ⊢
  cases ran : front f with
  | error e f₁ =>
    rw [ran] at spelled
    rw [Action.bind_of_error ran]
    cases spelled with
    | failed grown fault =>
      refine .part grown (fault.imp_left fun failed ↦ ?_)
      cases spelling with
      | error _ => exact failed
      | ok _ => cases failed
  | ok u f₁ =>
    rw [ran] at spelled
    rw [Action.bind_of_ok ran]
    cases spelled with
    | done grown eq offers₁ =>
      cases spelling with
      | error _ => cases eq
      | ok segments =>
        cases eq
        rw [Frame.write, Output.push_of_off (grown.held held).off, grown.frame]
        simp only [List.append_assoc]
        exact .line rfl

end Instruction

namespace Table

variable {ω : Type} {found : Index.Lookup Instruction} {f : Frame Transcript ω}

/-- What an instruction that was found is shown as, if its operands are spelled like this: a
line with the spelling behind its label and what stands first, a line that says that the
instruction is cut off, or a failure.  It is not cut off and does not fail unless the spelling
does, or that is excused. -/
inductive Shown (Excused : Error → Prop)
    (spelling : Except Error (List (OutputKind × String))) (found : Index.Lookup Instruction)
    (f : Frame Transcript ω) : EStateM.Result Error (Frame Transcript ω) Progress → Prop
  | line {segments : List (OutputKind × String)} {w : Window} : spelling = .ok segments →
      Shown Excused spelling found f
        (.ok .more (f.written w (labelSegment found.offset :: found.descriptor.head :: segments)))
  | truncated {w : Window} {session : Session ω} :
      spelling = .error .outOfBounds ∨ Excused .outOfBounds →
      Shown Excused spelling found f (.ok .finished { f.written w
        [labelSegment found.offset, truncatedSegment found.descriptor] with session })
  | failed {e : Error} {w : Window} : e ≠ .outOfBounds → spelling = .error e ∨ Excused e →
      Shown Excused spelling found f (.error e { f with input := w })

/-- Where nothing is excused, what can be spelled is shown. -/
theorem Shown.of_ok {spelling : Except Error (List (OutputKind × String))}
    {segments : List (OutputKind × String)} {result}
    (shown : Shown (fun _ ↦ False) spelling found f result) (spelled : spelling = .ok segments) :
    ∃ w, result = .ok .more
      (f.written w (labelSegment found.offset :: found.descriptor.head :: segments)) := by
  subst spelled
  cases shown with
  | @line _ w same =>
    cases same
    exact ⟨w, rfl⟩
  | truncated fault => cases fault.resolve_right id
  | failed other fault => cases fault.resolve_right id

/-- The line of an instruction is the spelling of its operands from the place of its label. -/
theorem shown_renderFound (P : Window.Prospect) (name : String) {opcode : Opcode} {bs : Bytes}
    (ready : f.Ready) (offers : P.Offers bs (f.input.setAutoCommit false))
    (known : found.opcode? = some opcode)
    (behind : f.input.totalRead = found.offset + opcode.length) :
    Shown P.Excused
      (Operand.spellAll f.session.activeSymbols found.offset f.input.order bs
        found.descriptor.kinds)
      found f (renderFound name found f) := by
  have held := ready.held_begun
  obtain ⟨f₁, printed, first⟩ := Frame.write_print held (labelSegment found.offset)
  have input : f₁.input = f.input.setAutoCommit false := Frame.input_of_write printed
  have held₁ := first.held held
  -- the window stands behind the opcode also when the label was printed
  have behind₁ : f₁.input.totalRead = found.offset + opcode.length := by
    rw [input]
    exact behind
  have same : found.opcode?.getD .empty = opcode := by
    rw [known]
    rfl
  have spelled := found.descriptor.spelled_render held₁ (input ▸ offers) behind₁
  rw [first.session_eq, input] at spelled
  generalize ran : found.descriptor.render opcode f₁ = result at spelled
  rw [← same] at ran
  cases spelled with
  | @line segments w eq =>
    rw [renderFound_of_ok printed ran held₁.off]
    rw [first.session_eq, first.sink_eq, first.queue_eq,
      show f.begun.output.queue = [] from ready.queue_nil]
    exact .line eq
  | @part e segments n f₂ grown fault =>
    have off := (grown.held held₁).off
    have sink : f₂.output.sink = f.output.sink := grown.sink_eq.trans first.sink_eq
    by_cases short : e = .outOfBounds
    · subst short
      obtain ⟨session, eq⟩ := renderFound_of_outOfBounds name printed ran off
      rw [eq, sink]
      exact .truncated fault
    · have session : f₂.session = f.session := grown.session_eq.trans first.session_eq
      rw [renderFound_of_error printed ran short off, sink, session, ← ready.output_eq]
      exact .failed short fault

/-- The label of a branch is that of the line that it leads to, and of no other. -/
theorem branchTo_names_line {start : Nat} {d : Int} (inside : 0 ≤ start + d)
    (bounded : start + d < 2 ^ (64 : Nat)) :
    Operand.branchTo start d = .ok (.label, label (start + d).toNat) ∧
      ∀ a : Nat, (.label, label (start + d).toNat ++ ": ") = labelSegment a ↔ start + d = a := by
  refine ⟨if_pos ⟨inside, bounded⟩, fun a ↦ ?_⟩
  change labelSegment (start + d).toNat = labelSegment a ↔ _
  rw [labelSegment_injective.eq_iff]
  omega

/-- Branches name the lines that they lead to.  Let a decoder that was sent to a range find an
instruction of the table.  Its place, as the lookup tells it, is the start of its branches: its
operands are rendered from there, wherever among them a branch stands.  A branch by `d` is
printed as the label of `d` bytes further on, which is that of the line there and of no other;
if that is no address, it fails as malformed.  So the line that begins with the label of the
place goes on with the spelling of the operands, unless bytes cannot be read, and without such
trouble it does so or fails just as the spelling says. -/
theorem branches_name_lines {t : Table} {r : Range} {settings : Settings} {binding : Binding}
    {source : Source} {s : Transcript} {session : Session ω} {f₀ f f₁ : Frame Transcript ω}
    {founds : List (Index.Lookup Instruction)} {found : Index.Lookup Instruction}
    (begins : r.Begins settings binding source s session f₀)
    (passes : Passes t settings.name f₀ founds f) (looked : t.next f = .ok (some found) f₁)
    (known : found.known = true) :
    let o := found.offset
    let spelling (bs : Bytes) :=
      Operand.spellAll f₁.session.activeSymbols o f₁.input.order bs found.descriptor.kinds
    let shown := renderFound settings.name found f₁
    (o = f.input.totalRead ∧ ∃ opcode, found.opcode? = some opcode ∧
      ∀ g : Frame Transcript ω, g.input.totalRead = f₁.input.totalRead →
        found.descriptor.render opcode g = (do
          Frame.write (Output.print found.descriptor.head.1 found.descriptor.head.2)
          Operand.renderAll o found.descriptor.kinds
          Frame.write (Output.push .newline)) g) ∧
    (∀ (k : Scalar) (g g' : Frame Transcript ω) (bits : Nat),
      Frame.read (Window.scalar k) g = .ok bits g' →
      Operand.renderBranch o k g =
        match Operand.branchTo o (k.signed bits) with
        | .ok (kind, text) => Frame.write (Output.print kind text) g'
        | .error e => .error e g') ∧
    (∀ d : Int,
      (0 ≤ o + d ∧ o + d < 2 ^ (64 : Nat) →
        Operand.branchTo o d = .ok (.label, label (o + d).toNat) ∧
          ∀ a : Nat, (.label, label (o + d).toNat ++ ": ") = labelSegment a ↔ o + d = a) ∧
      (¬(0 ≤ o + d ∧ o + d < 2 ^ (64 : Nat)) →
        ∃ e, Operand.branchTo o d = .error e ∧ e.category = .malformed)) ∧
    Shown (fun e ↦ e = .outOfBounds ∨ e = .readDenied) (spelling f₁.input.stream) found f₁ shown ∧
    (f₁.input.Smooth →
      Shown (fun _ ↦ False) (spelling f₁.input.remaining) found f₁ shown) := by
  intro o spelling shown
  have ready := passes.ready begins.ready
  obtain ⟨opcode, opcode_eq, place, behind⟩ := totalRead_of_known ready.settled looked known
  have ready₁ := (ready_next ready looked).1
  refine ⟨⟨place, opcode, opcode_eq, fun g same ↦ ?_⟩, ?_, fun d ↦ ⟨?_, ?_⟩, ?_, fun smooth ↦ ?_⟩
  · exact found.descriptor.render_of_start (same.trans behind)
  · intro k g g' bits taken
    exact Operand.renderBranch_of_read o taken
  · rintro ⟨inside, bounded⟩
    exact branchTo_names_line inside bounded
  · intro outside
    exact ⟨_, if_neg outside, rfl⟩
  · exact shown_renderFound Window.ofStream settings.name ready₁
      ⟨ready₁.settled.setAutoCommit false, rfl⟩ opcode_eq behind
  · exact shown_renderFound Window.ofRemaining settings.name ready₁
      ⟨smooth.setAutoCommit false, rfl⟩ opcode_eq behind

/-- A range that begins behind the first byte, and an opcode of two bytes.  A branch leads
back to that byte, and a jump table to the next line and to the instruction itself. -/
theorem branches_name_lines_of_jump_table :
    let file : File :=
      ⟨[0x4F, 0x50, 0x49, 0x58, 2, 0, 0, 0, 3, 0, 2, 0, 1, 0x10, 0, 0, 0, 2, 0x10, 0x20, 5, 0,
        1, 3, 110, 111, 112, 2, 2, 98, 114, 3, 0x01, 0x21, 0x30], by decide⟩
    let t : Table := .ofIndex ⟨.instruction, file, ⟨2, 3, 2⟩,
      [⟨⟨[0x10], by decide⟩, 0⟩, ⟨⟨[0x10, 0x20], by decide⟩, 5⟩], {}⟩
    let source : Source :=
      { data := [0xEE, 0x10, 0x20, 7, 0xFF, 0xFF, 2, 0, 0, 0, 17, 0, 0, 0, 0, 0, 0, 0, 0x10]
        plan := [.deliver 2, .interrupt, .deliver 3] }
    let session : Session Unit := { world := () }
    let r : Range := { offset := 1 }
    let settings : Settings := { name := "m" }
    ∃ f₀ f₁ found w, r.Begins settings ⟨"m", some {}⟩ source ({} : Transcript) session f₀ ∧
      t.next f₀ = .ok (some found) f₁ ∧ found.known = true ∧ found.offset = 1 ∧
      renderFound settings.name found f₁ = .ok .more (f₁.written w
        [labelSegment 1, (.keyword, "br"), (.plain, " "), (.value, "0x7"), (.operator, ", "),
          (.label, "L0000"), (.operator, ", "), (.operator, "["), (.label, "L0012"),
          (.operator, ", "), (.label, "L0001"), (.operator, "]")]) ∧
      (OutputKind.label, "L0012" ++ ": ") = labelSegment 18 := by
  intro file t source session r settings
  let w₀ : Window :=
    { source := ⟨source.data.drop 1, [.interrupt, .deliver 3], 1⟩, committed := 1 }
  let w₁ : Window := { source := ⟨source.data.drop 3, [], 3⟩, committed := 3 }
  let found : Index.Lookup Instruction :=
    ⟨1, [0x10, 0x20], true, .operands "br" [.scalar .u8, .rel16, .table32]⟩
  have skipped : Window.skip r.offset
      (r.frame settings ⟨"m", some {}⟩ source ({} : Transcript) session).input = .ok () w₀ := by
    dsimp only [r, settings, source, session, w₀]
    cbv
  have answer : t.index.lookup t.eager w₀ = .ok (some found) w₁ := by
    dsimp only [t, file, source, w₀, w₁, found]
    cbv
  let f₀ : Frame Transcript Unit := r.begun settings ⟨"m", some {}⟩ w₀ {} session
  let f₁ : Frame Transcript Unit :=
    { f₀ with input := w₁, session := f₀.session.record (Index.lookupRecord 1 (some found)) }
  have begins := Range.begins_begun skipped
  have looked : t.next f₀ = .ok (some found) f₁ := by
    rw [next_eq, show f₀.input = w₀ from rfl, answer]
    rfl
  have smooth : f₁.input.Smooth := .mk (Source.steady_of_forall (by decide)) (by decide)
    (Nat.le_refl 0) fun _ ↦ rfl
  obtain ⟨-, -, named, -, shown⟩ := branches_name_lines begins (.nil f₀) looked rfl
  have spelled : Operand.spellAll f₁.session.activeSymbols found.offset f₁.input.order
      f₁.input.remaining found.descriptor.kinds = .ok [(.plain, " "), (.value, "0x7"),
        (.operator, ", "), (.label, "L0000"), (.operator, ", "), (.operator, "["),
        (.label, "L0012"), (.operator, ", "), (.label, "L0001"), (.operator, "]")] := by
    dsimp only [f₁, f₀, found, w₁, source, r, settings, session]
    cbv
  obtain ⟨w, line⟩ := (shown smooth).of_ok spelled
  have text : label (found.offset + 17 : Int).toNat = "L0012" := by
    dsimp only [found]
    cbv
  have next := (((named 17).1 (by decide)).2 18).2 rfl
  rw [text] at next
  exact ⟨f₀, f₁, found, w, begins, looked, rfl, rfl, line, next⟩

end Table

end Disasm
