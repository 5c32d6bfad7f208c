import Disasm.Proofs.Decoder.Lines
import Disasm.Proofs.Index.Lookup
import Disasm.Proofs.Instruction
import Disasm.Proofs.Window.Arrival

/-!
# A disassembly tiles its range

Over a steady source that denies no read, and with a table in order, the lines of
a disassembly stand for consecutive spans of the bytes.  `Tiles` says what spans
there may be and how long each is, `Truncated` what an instruction is that the
end cuts off.  One instruction that is passed is one tile; the rest is induction
over those that are.
-/

namespace Disasm

/-- The descriptors of a table of instructions have mnemonics. -/
theorem Index.mnemonic?_of_descriptor {ix : Index Instruction} (made : ix.factory = .instruction)
    {o : Opcode} {i : Instruction} (described : ix.descriptor o = .ok (some i)) :
    ∃ m, i.mnemonic? = some m := by
  rw [descriptor] at described
  split at described
  next => cases described
  next place _ =>
    cases loaded : ix.load place with
    | error e =>
      rw [loaded] at described
      cases described
    | ok i' =>
      rw [loaded] at described
      cases described
      rw [load, made] at loaded
      split at loaded
      next => cases loaded
      next e _ =>
        split at loaded
        next => cases loaded
        next data _ =>
          split at loaded
          next taken =>
            cases loaded
            exact Instruction.mnemonic?_of_load taken
          next => cases loaded

namespace Table

variable {ω : Type}

/-- A line and the bytes that it stands for. -/
structure Span where
  start : Nat
  size : Nat
  line : Transcript.Line

/-- The spans follow one upon the other. -/
def Consecutive : (start : Nat) → List Span → (finish : Nat) → Prop
  | start, [], finish => start = finish
  | start, span :: spans, finish =>
    span.start = start ∧ Consecutive (start + span.size) spans finish

/-- From `start` on, where `bs` are the bytes to come, spans stand for whole
instructions and for unknown runs, and `rest` are the bytes behind them. -/
inductive Tiles (t : Table) (order : ByteOrder) (level : Nat) :
    (start : Nat) → (bs : Bytes) → List Span → (rest : Bytes) → Prop
  | nil (start : Nat) (bs : Bytes) : Tiles t order level start bs [] bs
  | known {start size : Nat} {bs rest : Bytes} {o : Opcode} {i : Instruction} {m : String}
      {segments : List (OutputKind × String)} {spans : List Span} :
      t.index.LongestCandidate t.eager bs o → t.index.descriptor o = .ok (some i) →
      i.mnemonic? = some m → size = o.length + i.width order (bs.drop o.length) →
      size ≤ bs.length → Tiles t order level (start + size) (bs.drop size) spans rest →
      Tiles t order level start bs
        (⟨start, size, ⟨level, labelSegment start :: (.keyword, m) :: segments⟩⟩ :: spans) rest
  | unknown {start size : Nat} {bs rest : Bytes} {spans : List Span} :
      bs ≠ [] → (∀ o, ¬t.index.Candidate t.eager bs o) →
      IsLeast (t.index.runEnds t.eager t.index.config.chunkSize bs) size →
      Tiles t order level (start + size) (bs.drop size) spans rest →
      Tiles t order level start bs
        (⟨start, size, ⟨level, [labelSegment start,
          (.error, ".byte " ++ Text.Hex.bytes (bs.take size))]⟩⟩ :: spans) rest

/-- The instruction at `start` needs more bytes for its operands than there are
behind its opcode.  Its line says so and stands for the opcode alone. -/
inductive Truncated (t : Table) (order : ByteOrder) (level start : Nat) (bs : Bytes) : Span → Prop
  | mk {o : Opcode} {i : Instruction} {m : String} :
      t.index.LongestCandidate t.eager bs o → t.index.descriptor o = .ok (some i) →
      i.mnemonic? = some m → bs.length < o.length + i.width order (bs.drop o.length) →
      Truncated t order level start bs
        ⟨start, o.length, ⟨level, [labelSegment start, (.error, s!"<truncated {m}>")]⟩⟩

section Tiling

variable {t : Table} {name : String} {order : ByteOrder} {level start : Nat} {bs rest : Bytes}
  {spans : List Span}

/-- The spans cover the bytes before the rest. -/
theorem Tiles.consecutive (tiles : Tiles t order level start bs spans rest) :
    rest.length ≤ bs.length ∧ Consecutive start spans (start + (bs.length - rest.length)) := by
  induction tiles with
  | nil start bs => exact ⟨Nat.le_refl _, by rw [Consecutive, Nat.sub_self, Nat.add_zero]⟩
  | @known start size bs rest o i m segments spans _ _ _ _ fits _ ih =>
    obtain ⟨le, next⟩ := ih
    rw [List.length_drop] at le next
    refine ⟨Nat.le_trans le (Nat.sub_le _ _), rfl, ?_⟩
    rwa [show start + (bs.length - rest.length) =
      start + size + (bs.length - size - rest.length) by omega]
  | @unknown start size bs rest spans nonempty _ least _ ih =>
    obtain ⟨le, next⟩ := ih
    have fits : size ≤ bs.length := Index.le_length_of_isLeast nonempty least
    rw [List.length_drop] at le next
    refine ⟨Nat.le_trans le (Nat.sub_le _ _), rfl, ?_⟩
    rwa [show start + (bs.length - rest.length) =
      start + size + (bs.length - size - rest.length) by omega]

theorem Tiles.labelled (tiles : Tiles t order level start bs spans rest) :
    ∀ span ∈ spans, span.line.segments.head? = some (labelSegment span.start) := by
  induction tiles with
  | nil => nofun
  | known _ _ _ _ _ _ ih | unknown _ _ _ _ ih => exact List.forall_mem_cons.2 ⟨rfl, ih⟩

variable {f f₁ f₂ f' : Frame Transcript ω} {found : Index.Lookup Instruction}
  {founds : List (Index.Lookup Instruction)}

/-- A lookup on a smooth window answers what it must. -/
theorem finds_next (searchable : t.index.Searchable) (smooth : f.input.Smooth)
    (countable : t.index.config.chunkSize + t.index.maxOpcodeLength < addressBound ∨
      f.input.remaining.length < addressBound)
    {found? : Option (Index.Lookup Instruction)} (looked : t.next f = .ok found? f') :
    ∃ n, t.index.Finds t.eager f.input.totalRead f.input.remaining (.ok found?) n ∧
      f.input.Moved n f'.input := by
  obtain ⟨n, finds, moved⟩ := Index.finds_lookup searchable t.eager smooth countable
  rw [next_eq] at looked
  cases answer : t.index.lookup t.eager f.input with
  | error e w =>
    rw [answer] at looked
    cases looked
  | ok found? w =>
    rw [answer] at looked finds moved
    cases looked
    exact ⟨n, finds, moved⟩

theorem head_of_mnemonic? {i : Instruction} {m : String} (named : i.mnemonic? = some m) :
    i.head = (.keyword, m) := by
  cases i with
  | simple | operands =>
    cases named
    rfl
  | unknown => cases named

section Step

variable (searchable : t.index.Searchable) (made : t.index.factory = .instruction)
  (ready : f.Ready) (smooth : f.input.Smooth)
  (countable : t.index.config.chunkSize + t.index.maxOpcodeLength < addressBound ∨
    f.input.remaining.length < addressBound)
  (clean : f.output.sink.Clean)

include searchable made ready smooth countable clean

/-- An instruction that is passed is the next tile. -/
theorem tile_of_more (looked : t.next f = .ok (some found) f₁)
    (rendered : renderFound name found f₁ = .ok .more f₂) :
    ∃ span : Span, f.input.Moved span.size f₂.input ∧
      f₂.output = { sink := f.output.sink.addLine span.line } ∧
      ∀ spans rest, Tiles t f.input.order f.output.sink.level (f.input.totalRead + span.size)
          (f.input.remaining.drop span.size) spans rest →
        Tiles t f.input.order f.output.sink.level f.input.totalRead f.input.remaining
          (span :: spans) rest := by
  obtain ⟨n, finds, moved₁⟩ := finds_next searchable smooth countable looked
  obtain ⟨ready₁, same, told⟩ := told_of_next ready looked rendered
  rw [← same] at clean ⊢
  cases told with
  | @line segments k w moved exactly plain =>
    have total := moved₁.trans moved smooth.toSettled
    have size := exactly (moved₁.smooth smooth)
    rw [moved₁.order_eq, moved₁.remaining_eq smooth] at size
    rw [Frame.output_written w clean]
    cases finds with
    | @known o i longest described =>
      obtain ⟨m, named⟩ := Index.mnemonic?_of_descriptor made described
      refine ⟨⟨f.input.totalRead, o.length + k, _⟩, total, rfl, fun spans rest tiles ↦ ?_⟩
      rw [head_of_mnemonic? named]
      exact .known longest described named (congrArg _ size) (total.le_remaining smooth) tiles
    | unknown nonempty unmatched least =>
      rw [made] at size plain ⊢
      cases plain rfl
      cases (size : k = 0)
      refine ⟨⟨f.input.totalRead, n, _⟩, total, rfl, fun spans rest tiles ↦ ?_⟩
      exact .unknown nonempty unmatched least tiles

/-- Where a decoder stops, nothing is left or an instruction is cut off. -/
theorem tile_of_stops (stops : Stops t name f f') :
    (f.input.remaining = [] ∧ f.input.Moved 0 f'.input ∧ f'.output = f.output) ∨
      ∃ span, Truncated t f.input.order f.output.sink.level f.input.totalRead f.input.remaining
          span ∧
        f.input.Moved span.size f'.input ∧
        f'.output = { sink := f.output.sink.addLine span.line } := by
  cases stops with
  | finished looked =>
    obtain ⟨n, finds, moved⟩ := finds_next searchable smooth countable looked
    cases finds with
    | finished ended => exact .inl ⟨ended, moved, (ready_next ready looked).2⟩
  | truncated looked rendered =>
    obtain ⟨n, finds, moved₁⟩ := finds_next searchable smooth countable looked
    obtain ⟨ready₁, same, told⟩ := told_of_next ready looked rendered
    rw [← same] at clean ⊢
    cases told with
    | @truncated w session moved lack =>
      have total := moved₁.trans moved smooth.toSettled
      have fewer := lack (moved₁.smooth smooth)
      rw [moved₁.order_eq, moved₁.remaining_eq smooth, List.length_drop] at fewer
      refine .inr ?_
      cases finds with
      | @known o i longest described =>
        obtain ⟨m, named⟩ := Index.mnemonic?_of_descriptor made described
        dsimp only at fewer
        refine ⟨_, .mk longest described named (by omega), total, ?_⟩
        refine (Frame.output_written w clean).trans ?_
        rw [truncatedSegment, named]
        rfl
      | unknown nonempty unmatched least =>
        rw [made] at fewer
        exact absurd fewer (Nat.not_lt_zero _)

end Step

/-- The instructions that are passed tile the bytes on the way. -/
theorem tiles_of_passes (searchable : t.index.Searchable) (made : t.index.factory = .instruction)
    (passes : Passes t name f founds f') (ready : f.Ready) (smooth : f.input.Smooth)
    (countable : t.index.config.chunkSize + t.index.maxOpcodeLength < addressBound ∨
      f.input.remaining.length < addressBound)
    (clean : f.output.sink.Clean) :
    ∃ spans n, f.input.Moved n f'.input ∧
      Tiles t f.input.order f.output.sink.level f.input.totalRead f.input.remaining spans
        f'.input.remaining ∧
      f'.output.sink.lines = f.output.sink.lines ++ spans.map (·.line) := by
  induction passes with
  | nil f => exact ⟨[], 0, .refl ready.settled, .nil _ _, (List.append_nil _).symm⟩
  | @cons f f₁ f₂ f' found founds looked rendered passes ih =>
    obtain ⟨span, moved, output, tile⟩ :=
      tile_of_more searchable made ready smooth countable clean looked rendered
    have ready₂ : f₂.Ready := ready.of_moved moved (by rw [output])
    have fewer := moved.length_remaining_le smooth
    obtain ⟨spans, n, moved', tiles, lines⟩ := ih ready₂ (moved.smooth smooth)
      (countable.imp_right (Nat.lt_of_le_of_lt fewer)) (by rw [output]; rfl)
    rw [moved.order_eq, moved.totalRead_eq, moved.remaining_eq smooth, output] at tiles
    rw [output] at lines
    refine ⟨span :: spans, _, moved.trans moved' ready.settled, tile _ _ tiles, ?_⟩
    rw [lines, Transcript.addLine, List.append_assoc]
    rfl

/-- The loop of a decoder tiles the bytes to come, up to an instruction that is
cut off if there is one. -/
theorem tiles_run (searchable : t.index.Searchable) (made : t.index.factory = .instruction)
    (ready : f.Ready) (smooth : f.input.Smooth)
    (countable : t.index.config.chunkSize + t.index.maxOpcodeLength < addressBound ∨
      f.input.remaining.length < addressBound)
    (clean : f.output.sink.Clean) (ran : t.run name f = .ok () f') :
    ∃ spans n, n ≤ f.input.remaining.length ∧
      Tiles t f.input.order f.output.sink.level f.input.totalRead f.input.remaining spans
        (f.input.remaining.drop n) ∧
      ((n = f.input.remaining.length ∧ f.input.Moved n f'.input ∧
          f'.output.sink.lines = f.output.sink.lines ++ spans.map (·.line)) ∨
        ∃ last, Truncated t f.input.order f.output.sink.level (f.input.totalRead + n)
            (f.input.remaining.drop n) last ∧
          f.input.Moved (n + last.size) f'.input ∧
          f'.output.sink.lines = f.output.sink.lines ++ (spans ++ [last]).map (·.line)) := by
  obtain ⟨founds, f₁, passes, stops⟩ := stops_run ready ran
  obtain ⟨spans, n, moved, tiles, lines⟩ :=
    tiles_of_passes searchable made passes ready smooth countable clean
  obtain ⟨clean₁, level, -⟩ := passes.lines ready clean
  have inside := moved.le_remaining smooth
  have rest := moved.remaining_eq smooth
  have countable₁ := countable.imp_right (Nat.lt_of_le_of_lt (moved.length_remaining_le smooth))
  have last := tile_of_stops searchable made (passes.ready ready) (moved.smooth smooth) countable₁
    clean₁ stops
  rw [rest, moved.order_eq, moved.totalRead_eq, level] at last
  refine ⟨spans, n, inside, rest ▸ tiles, last.imp ?_ ?_⟩
  · rintro ⟨ended, moved', output⟩
    refine ⟨?_, moved.trans moved' ready.settled, by rw [output, lines]⟩
    have := List.drop_eq_nil_iff.1 ended
    omega
  · rintro ⟨span, truncated, moved', output⟩
    refine ⟨span, truncated, moved.trans moved' ready.settled, ?_⟩
    rw [output, Transcript.addLine, lines, List.map_append, List.append_assoc]
    rfl

end Tiling

/-- Behind the bytes that are skipped, the window gives the others up to the limit. -/
theorem remaining_of_begins {r : Range} {settings : Settings} {binding : Binding} {data : Bytes}
    {plan : List PlannedRead} {s : Transcript} {session : Session ω} {f : Frame Transcript ω}
    (begins : r.Begins settings binding { data, plan } s session f)
    (steady : Source.Steady { data, plan }) (undenied : .deny ∉ plan) :
    f.input.Smooth ∧ f.input.order = settings.order ∧ f.input.totalRead = r.offset ∧
      r.offset ≤ (Source.visible (r.bound settings) data).length ∧
      f.input.remaining = (Source.visible (r.bound settings) data).drop r.offset := by
  have smooth : (r.frame settings binding { data, plan } s session).input.Smooth :=
    .fresh steady undenied
  have all : (r.frame settings binding { data, plan } s session).input.remaining =
      Source.visible (r.bound settings) data :=
    congrArg Window.Tape.remaining (Window.tape_fresh data plan settings.order (r.bound settings))
  have skipped := Window.moved_skip r.offset smooth.toSettled begins.skipped
  refine ⟨skipped.smooth smooth, skipped.order_eq, skipped.totalRead_eq.trans (Nat.zero_add _), ?_⟩
  rw [← all]
  exact ⟨skipped.le_remaining smooth, skipped.remaining_eq smooth⟩

/-- A disassembly tiles its range.  Let `bytes` be what the limit allows to read of
the data.  The lines stand one by one for consecutive spans of the bytes, from the
offset on: for whole instructions, each as long as its opcode and its operands, and
for unknown runs.  They end with the bytes, or before an instruction whose operands
are cut off; then one more line says so, and its opcode is still decoded. -/
theorem decode_tiles {config : Index.Config} {file : File} {t : Table}
    (opened : Index.openFile .instruction config file = .ok t.index)
    (verify : config.verifyOrder = true) (r : Range) (settings : Settings) (binding : Binding)
    {data : Bytes} {plan : List PlannedRead} (steady : Source.Steady { data, plan })
    (undenied : .deny ∉ plan)
    (countable : max config.unknownChunk 1 + t.index.maxOpcodeLength < addressBound ∨
      data.length < addressBound)
    {s : Transcript} (clean : s.Clean) (session : Session ω) {n : Nat} {f : Frame Transcript ω}
    (decoded : r.decode settings binding (t.run settings.name) { data, plan } s session =
      (.ok n, f)) :
    let bytes := Source.visible (r.bound settings) data
    ∃ spans place, r.offset ≤ place ∧ place ≤ bytes.length ∧
      Consecutive r.offset spans place ∧
      (∀ span ∈ spans, span.line.segments.head? = some (labelSegment span.start)) ∧
      Tiles t settings.order s.level r.offset (bytes.drop r.offset) spans (bytes.drop place) ∧
      ((place = bytes.length ∧ r.offset + n = bytes.length ∧
          f.output.sink.lines = s.lines ++ spans.map (·.line)) ∨
        ∃ last, Truncated t settings.order s.level place (bytes.drop place) last ∧
          r.offset + n = place + last.size ∧
          f.output.sink.lines = s.lines ++ (spans ++ [last]).map (·.line)) := by
  intro bytes
  have image := Index.openFile_eq_ok_iff.1 opened
  have searchable : t.index.Searchable := ⟨image.sorted verify, fun o ↦ image.opcode_ne_nil⟩
  rw [← image.config_eq] at countable
  cases decoded_run decoded with
  | @done f₀ f₁ _ begins ran same =>
    obtain ⟨smooth, order, start, (inside : r.offset ≤ bytes.length),
      (rest : f₀.input.remaining = bytes.drop r.offset)⟩ :=
      remaining_of_begins begins steady undenied
    have sink : f₀.output.sink = s := congrArg Output.sink begins.output_eq
    have small : f₀.input.remaining.length ≤ data.length := by
      rw [rest, List.length_drop]
      exact Nat.le_trans (Nat.sub_le _ _) (Source.visible_isPrefix _ data).length_le
    obtain ⟨spans, k, within, tiles, last⟩ := tiles_run searchable image.factory_eq begins.ready
      smooth (countable.imp_right (Nat.lt_of_le_of_lt small)) (sink ▸ clean) ran
    have position : ∀ m, f₀.input.Moved m f₁.input →
        r.offset + (f₁.input.position - r.offset) = r.offset + m := by
      intro m moved
      rw [(ready_run begins.ready (.inl ran)).position_eq, moved.totalRead_eq, start,
        Nat.add_sub_cancel_left]
    rw [rest, List.length_drop] at within
    rw [rest, order, start, sink, List.drop_drop] at tiles last
    have consecutive := tiles.consecutive.2
    rw [List.length_drop, List.length_drop, show r.offset + (bytes.length - r.offset -
      (bytes.length - (r.offset + k))) = r.offset + k by omega] at consecutive
    refine ⟨spans, r.offset + k, Nat.le_add_right _ _, by omega, consecutive, tiles.labelled,
      tiles, ?_⟩
    rw [same]
    refine last.imp ?_ ?_
    · rintro ⟨whole, moved, lines⟩
      rw [List.length_drop] at whole
      have ended : r.offset + k = bytes.length := by omega
      exact ⟨ended, (position k moved).trans ended, lines⟩
    · rintro ⟨span, truncated, moved, lines⟩
      exact ⟨span, truncated, (position _ moved).trans (Nat.add_assoc ..).symm, lines⟩

/-- An instruction, an unknown byte, a jump table of one branch, and a jump table that
the end cuts off, behind a byte that is skipped. -/
theorem decode_tiles_before_truncated :
    let file : File :=
      ⟨[0x4F, 0x50, 0x49, 0x58, 2, 0, 0, 0, 2, 0, 2, 0, 1, 0x00, 0, 0, 1, 0x10, 5, 0,
        1, 3, 110, 111, 112, 2, 2, 115, 119, 1, 0x30], by decide⟩
    let t : Table := .ofIndex ⟨.instruction, file, ⟨2, 2, 2⟩,
      [⟨⟨[0x00], by decide⟩, 0⟩, ⟨⟨[0x10], by decide⟩, 5⟩], {}⟩
    let data : Bytes :=
      [0xFF, 0x00, 0x41, 0x10, 1, 0, 0, 0, 2, 0, 0, 0, 0x10, 2, 0, 0, 0, 0, 0, 0, 0]
    let decoded := Range.decode { offset := 1 } { name := "m" } ⟨"m", some {}⟩ (t.run "m")
      { data, plan := [.interrupt, .deliver 5] } ({} : Transcript) ({ world := () } : Session Unit)
    (Index.openFile .instruction {} file = .ok t.index ∧ decoded.1 = .ok 12 ∧
      decoded.2.output.sink.texts =
        ["L0001: nop", "L0002: .byte 41", "L0003: sw [L0005]", "L000C: <truncated sw>"]) ∧
    ∃ spans place last, Consecutive 1 spans place ∧
      Tiles t .little 0 1 (data.drop 1) spans (data.drop place) ∧
      Truncated t .little 0 place (data.drop place) last ∧ 1 + 12 = place + last.size ∧
      decoded.2.output.sink.lines = (spans ++ [last]).map (·.line) := by
  intro file t data decoded
  have opened : Index.openFile .instruction {} file = .ok t.index := by cbv
  have done : decoded.1 = .ok 12 := by
    dsimp only [decoded]
    cbv
  have texts : decoded.2.output.sink.texts =
      ["L0001: nop", "L0002: .byte 41", "L0003: sw [L0005]", "L000C: <truncated sw>"] := by
    dsimp only [decoded]
    cbv
  have clean : Transcript.Clean {} := rfl
  have pair : ∀ p : Except Error Nat × Frame Transcript Unit, p.1 = .ok 12 →
      p = (.ok 12, p.2) := by
    rintro ⟨result, f⟩ rfl
    rfl
  refine ⟨⟨opened, done, texts⟩, ?_⟩
  obtain ⟨spans, place, -, -, consecutive, -, tiles, ended⟩ :=
    decode_tiles opened rfl { offset := 1 } { name := "m" } ⟨"m", some {}⟩
      (Source.steady_of_forall (by decide)) (by decide) (.inl (by decide)) clean { world := () }
      (pair decoded done)
  obtain ⟨-, whole, -⟩ | ⟨last, truncated, size, lines⟩ := ended
  · exact absurd whole (by decide)
  · exact ⟨spans, place, last, consecutive, tiles, truncated, size, lines⟩

end Table

end Disasm
