import Disasm.Proofs.Decoder.SideBySide
import Disasm.Proofs.Text.Hex
import Disasm.Proofs.Window.Arrival

/-!
# Beginning again at a line

Between two lines a decoder remembers nothing but where it stands.  Each line of a
disassembly tells the place where it begins, and a decoder that is sent there by
skipping goes on as the first one did: the window has come there in another way and
may have read less far ahead, but it has the same tape.
-/

namespace Disasm

/-! ## Labels -/

theorem Table.labelSegment_injective : Function.Injective labelSegment := by
  intro m n same
  have texts : label m ++ ": " = label n ++ ": " := congrArg Prod.snd same
  have digits := (String.append_right_inj _).1 ((String.append_left_inj _).1 texts)
  exact Text.Hex.upper_injective 4 digits

/-- What is found stands where the window stood. -/
theorem Index.offset_of_lookup {δ : Type} {ix : Index δ} {eager : Bool} {w w' : Window}
    {found : Lookup δ} (looked : ix.lookup eager w = .ok (some found) w') :
    found.offset = w.totalRead := by
  obtain ⟨_, _, got, looked⟩ := Action.bind_eq_ok.1 looked
  cases got
  obtain ⟨front, w₁, -, looked⟩ := Action.bind_eq_ok.1 looked
  split at looked
  · cases looked
  · cases matched : ix.match? eager front with
    | some place =>
      rw [matched] at looked
      obtain ⟨bytes, w₂, -, looked⟩ := Action.bind_eq_ok.1 looked
      cases loaded : ix.load place with
      | ok descriptor =>
        rw [loaded] at looked
        cases looked
        rfl
      | error e =>
        rw [loaded] at looked
        cases looked
    | none =>
      rw [matched] at looked
      obtain ⟨ahead, w₂, -, looked⟩ := Action.bind_eq_ok.1 looked
      obtain ⟨bytes, w₃, -, looked⟩ := Action.bind_eq_ok.1 looked
      cases looked
      rfl

/-! ## Lines in front of a transcript -/

namespace Transcript

/-- The transcript with further lines in front. -/
def behind (front : List Line) (s : Transcript) : Transcript :=
  { s with lines := front ++ s.lines }

/-- No operation looks at the lines that were ended. -/
theorem perform_behind (front : List Line) (s : Transcript) (op : Operation) :
    (s.behind front).perform op = (s.perform op).behind front := by
  cases op with
  | newline =>
    have lines : front ++ s.lines ++ [s.begun] = front ++ (s.lines ++ [s.begun]) :=
      List.append_assoc ..
    exact congrArg (Transcript.mk · {} s.level) lines
  | print | indent | unindent => rfl

/-- A transcript is like one that lacks some lines in front. -/
def lacking (front : List Line) : Sink.Likeness Transcript where
  toCoupling := .exact fun s s' ↦ s = s'.behind front
  apply op :=
    { paired := by
        rintro _ s rfl
        exact .ok (perform_behind front s op)
      keeps := fun _ _ _ lost ↦ lost.elim }
  apart lost := lost.elim

end Transcript

/-! ## Places in the data -/

namespace Window

/-- The window stands behind the first `o` bytes of the data, and has the others to
come. -/
structure Stands (data : Bytes) (order : ByteOrder) (o : Nat) (w : Window) : Prop where
  smooth : w.Smooth
  inside : o ≤ data.length
  totalRead_eq : w.totalRead = o
  tape_eq : w.tape = (Tape.ofBytes data order).consume o

namespace Stands

variable {data : Bytes} {order : ByteOrder} {m n : Nat} {w w' : Window}

theorem fresh {plan : List PlannedRead} (steady : Source.Steady { data, plan })
    (undenied : .deny ∉ plan) : Stands data order 0 { source := { data, plan }, order } where
  smooth := .fresh steady undenied
  inside := Nat.zero_le _
  totalRead_eq := rfl
  tape_eq := (tape_fresh data plan order none).trans (Tape.consume_zero fun _ ↦ rfl).symm

theorem remaining_eq (stands : Stands data order m w) : w.remaining = data.drop m := by
  change w.tape.remaining = _
  rw [stands.tape_eq, Tape.remaining_consume]
  rfl

theorem moved (stands : Stands data order m w) (moved : w.Moved n w') :
    Stands data order (m + n) w' where
  smooth := moved.smooth stands.smooth
  inside := by
    have inside := stands.inside
    have within := moved.le_remaining stands.smooth
    rw [stands.remaining_eq, List.length_drop] at within
    omega
  totalRead_eq := by rw [moved.totalRead_eq, stands.totalRead_eq]
  tape_eq := by rw [moved.tape_eq stands.smooth, stands.tape_eq, Tape.consume_consume]

/-- Every place in the data can be skipped to. -/
theorem skip (stands : Stands data order 0 w) (inside : n ≤ data.length) :
    ∃ w', Window.skip n w = .ok () w' ∧ Stands data order n w' := by
  obtain ⟨w', -, ⟨-, skipped, -⟩ | ⟨beyond, -⟩⟩ := skip_on_tape n stands.smooth
  · have standing := stands.moved (moved_skip n stands.smooth.toSettled skipped)
    rw [Nat.zero_add] at standing
    exact ⟨w', skipped, standing⟩
  · rw [stands.remaining_eq, List.drop_zero] at beyond
    omega

end Stands

end Window

namespace Table

variable {ω : Type} {t : Table} {name : String}

/-! ## Places between two lines -/

/-- Once a line was printed, the decoder goes on as if it began there. -/
theorem run_of_more {σ : Type} [Sink σ] {f f₁ f₂ : Frame σ ω} {found : Index.Lookup Instruction}
    (settled : f.input.Settled) (looked : t.next f = .ok (some found) f₁)
    (rendered : renderFound name found f₁ = .ok .more f₂) : t.run name f = t.run name f₂ := by
  obtain ⟨n, positive, moved⟩ := moved_next settled looked
  have fewer := Index.reserve_of_moved moved settled
  obtain ⟨settled₂, le⟩ := reserve_of_more (moved.settled settled) rendered
  have first : t.run name f = t.renderFor name (Index.reserve f.input) f₂ := by
    rw [run, renderFor, Action.bind_of_ok looked]
    exact Action.bind_of_ok rendered
  have enough : Index.reserve f₂.input < Index.reserve f.input := by omega
  rw [first, t.run_eq_renderFor name settled₂ enough]

variable {f f₁ f₂ f' g : Frame Transcript ω} {founds : List (Index.Lookup Instruction)}
  {found : Index.Lookup Instruction}

/-- The decoder comes from `f` to `g` and prints whole lines on the way. -/
structure Reaches (f : Frame Transcript ω) (lines : List Transcript.Line)
    (g : Frame Transcript ω) : Prop where
  ready : g.Ready
  moved : ∃ n, f.input.Moved n g.input
  sink_eq : g.output.sink = { f.output.sink with lines := f.output.sink.lines ++ lines }
  symbols_eq : g.session.activeSymbols = f.session.activeSymbols

theorem Reaches.refl (ready : f.Ready) : Reaches f [] f where
  ready := ready
  moved := ⟨0, .refl ready.settled⟩
  sink_eq := by rw [List.append_nil]
  symbols_eq := rfl

theorem Reaches.trans {lines lines' : List Transcript.Line} (ready : f.Ready)
    (first : Reaches f lines f₁) (second : Reaches f₁ lines' f₂) :
    Reaches f (lines ++ lines') f₂ where
  ready := second.ready
  moved := by
    obtain ⟨m, moved⟩ := first.moved
    obtain ⟨n, moved'⟩ := second.moved
    exact ⟨m + n, moved.trans moved' ready.settled⟩
  sink_eq := by
    rw [second.sink_eq, first.sink_eq, List.append_assoc]
  symbols_eq := second.symbols_eq.trans first.symbols_eq

/-- What is found next stands where the window stands.  The window moves on, and the same
symbols are known. -/
theorem found_next {found? : Option (Index.Lookup Instruction)} (settled : f.input.Settled)
    (looked : t.next f = .ok found? f₁) :
    (∃ n, f.input.Moved n f₁.input) ∧ f₁.session.activeSymbols = f.session.activeSymbols ∧
      ∀ found, found? = some found → found.offset = f.input.totalRead := by
  obtain ⟨n, moved⟩ := t.index.moves_lookup t.eager f.input settled
  rw [next_eq] at looked
  cases answer : t.index.lookup t.eager f.input with
  | error e w =>
    rw [answer] at looked
    cases looked
  | ok found? w =>
    rw [answer] at looked moved
    cases looked
    refine ⟨⟨n, moved⟩, rfl, ?_⟩
    rintro found rfl
    exact Index.offset_of_lookup answer

section Line

variable (ready : f.Ready) (blank : f.output.sink.current = {})

include ready blank

/-- An instruction that is passed leaves a line that tells its place. -/
theorem reaches_of_more (looked : t.next f = .ok (some found) f₁)
    (rendered : renderFound name found f₁ = .ok .more f₂) :
    ∃ line, line.segments.head? = some (labelSegment f.input.totalRead) ∧ Reaches f [line] f₂ := by
  obtain ⟨⟨m, moved₁⟩, symbols, place⟩ := found_next ready.settled looked
  obtain ⟨ready₁, same, told⟩ := told_of_next ready looked rendered
  have clean : f₁.output.sink.Clean := by
    rw [Transcript.Clean, same, blank]
  cases told with
  | @line rest n w moved exactly plain =>
    refine ⟨⟨f.output.sink.level, labelSegment found.offset :: found.descriptor.head :: rest⟩,
      congrArg (fun o ↦ some (labelSegment o)) (place found rfl), ?_⟩
    exact {
      ready := ready₁.of_moved moved rfl
      moved := ⟨m + n, moved₁.trans moved ready.settled⟩
      sink_eq := by rw [Frame.output_written w clean, same, Transcript.addLine, ← blank]
      symbols_eq := symbols }

/-- The last line tells its place, too. -/
theorem line_of_stops (stops : Stops t name f f') :
    f'.output.sink.lines = f.output.sink.lines ∨
      ∃ line, line.segments.head? = some (labelSegment f.input.totalRead) ∧
        f'.output.sink.lines = f.output.sink.lines ++ [line] := by
  cases stops with
  | finished looked => exact .inl (by rw [(ready_next ready looked).2])
  | @truncated f₁ _ found looked rendered =>
    obtain ⟨-, -, place⟩ := found_next ready.settled looked
    obtain ⟨ready₁, same, told⟩ := told_of_next ready looked rendered
    have clean : f₁.output.sink.Clean := by rw [Transcript.Clean, same, blank]
    cases told with
    | @truncated w session moved lack =>
      refine .inr ⟨⟨f.output.sink.level,
        [labelSegment found.offset, truncatedSegment found.descriptor]⟩,
        congrArg (fun o ↦ some (labelSegment o)) (place found rfl), ?_⟩
      change (Frame.written w _ _).output.sink.lines = _
      rw [Frame.output_written w clean, same, Transcript.addLine]

end Line

theorem Reaches.blank {lines : List Transcript.Line} (reaches : Reaches f lines g)
    (blank : f.output.sink.current = {}) : g.output.sink.current = {} := by
  rw [reaches.sink_eq]
  exact blank

theorem Passes.reaches (passes : Passes t name f founds f') (ready : f.Ready)
    (blank : f.output.sink.current = {}) : ∃ lines, Reaches f lines f' := by
  induction passes with
  | nil f => exact ⟨[], .refl ready⟩
  | cons looked rendered passes ih =>
    obtain ⟨first, -, reaches⟩ := reaches_of_more ready blank looked rendered
    obtain ⟨lines, later⟩ := ih reaches.ready (reaches.blank blank)
    exact ⟨_, reaches.trans ready later⟩

/-- The lines that were ended stay. -/
theorem lines_isPrefix (passes : Passes t name f founds f₁) (stops : Stops t name f₁ f')
    (ready : f.Ready) (blank : f.output.sink.current = {}) :
    f.output.sink.lines <+: f'.output.sink.lines := by
  obtain ⟨lines, reaches⟩ := passes.reaches ready blank
  have grown : f.output.sink.lines <+: f₁.output.sink.lines := by
    rw [reaches.sink_eq]
    exact List.prefix_append _ _
  obtain same | ⟨last, -, one⟩ := line_of_stops reaches.ready (reaches.blank blank) stops
  · rwa [same]
  · rw [one]
    exact grown.trans (List.prefix_append _ _)

/-- Before each line there is a place from which the run could have begun. -/
theorem exists_reaches (passes : Passes t name f founds f₁) (stops : Stops t name f₁ f')
    (ran : t.run name f = .ok () f') (ready : f.Ready) (blank : f.output.sink.current = {})
    {before after : List Transcript.Line} {line : Transcript.Line}
    (lines : f'.output.sink.lines = f.output.sink.lines ++ (before ++ line :: after)) :
    ∃ g, Reaches f before g ∧ t.run name g = .ok () f' ∧
      line.segments.head? = some (labelSegment g.input.totalRead) := by
  induction passes generalizing before with
  | nil f =>
    obtain none | ⟨last, labelled, one⟩ := line_of_stops ready blank stops
    · rw [none] at lines
      simp at lines
    · rw [one] at lines
      have split : [last] = before ++ line :: after := List.append_cancel_left lines
      cases before with
      | nil =>
        cases split
        exact ⟨f, .refl ready, ran, labelled⟩
      | cons b before => simp at split
  | @cons f f₂ f₃ f₁ found founds looked rendered passes ih =>
    obtain ⟨first, labelled, reaches⟩ := reaches_of_more ready blank looked rendered
    have ran₃ : t.run name f₃ = .ok () f' := run_of_more ready.settled looked rendered ▸ ran
    obtain ⟨rest, grown⟩ := lines_isPrefix passes stops reaches.ready (reaches.blank blank)
    rw [reaches.sink_eq, List.append_assoc] at grown
    have split : [first] ++ rest = before ++ line :: after :=
      List.append_cancel_left (grown.trans lines)
    cases before with
    | nil =>
      -- the line is the first one, and the run itself begins there
      cases split
      exact ⟨f, .refl ready, ran, labelled⟩
    | cons b before =>
      obtain ⟨rfl, later⟩ := List.cons.inj split
      have lines₃ : f'.output.sink.lines = f₃.output.sink.lines ++ (before ++ line :: after) := by
        rw [lines, reaches.sink_eq, List.append_assoc]
        rfl
      obtain ⟨g, reaches', ran', labelled'⟩ :=
        ih stops ran₃ reaches.ready (reaches.blank blank) lines₃
      exact ⟨g, reaches.trans ready reaches', ran', labelled'⟩

theorem Stops.moved (stops : Stops t name f f') (ready : f.Ready) :
    ∃ n, f.input.Moved n f'.input := by
  cases stops with
  | finished looked => exact (found_next ready.settled looked).1
  | truncated looked rendered =>
    obtain ⟨⟨m, moved⟩, -⟩ := found_next ready.settled looked
    obtain ⟨-, -, told⟩ := told_of_next ready looked rendered
    cases told with
    | truncated moved' lack => exact ⟨_, moved.trans moved' ready.settled⟩

/-- A run only moves on. -/
theorem totalRead_le_of_run (ready : f.Ready) (blank : f.output.sink.current = {})
    (ran : t.run name f = .ok () f') : f.input.totalRead ≤ f'.input.totalRead := by
  obtain ⟨founds, f₁, passes, stops⟩ := stops_run ready ran
  obtain ⟨lines, reaches⟩ := passes.reaches ready blank
  obtain ⟨m, moved⟩ := reaches.moved
  obtain ⟨n, moved'⟩ := stops.moved reaches.ready
  rw [(moved.trans moved' ready.settled).totalRead_eq]
  exact Nat.le_add_right _ _

/-! ## Ranges -/

/-- Before anything was read, all bytes are to come. -/
theorem stands_frame {r : Range} {settings : Settings} {binding : Binding} {data : Bytes}
    {plan : List PlannedRead} {s : Transcript} {session : Session ω} (whole : r.limit = none)
    (unlimited : settings.limit = none) (steady : Source.Steady { data, plan })
    (undenied : .deny ∉ plan) :
    (r.frame settings binding { data, plan } s session).input.Stands data settings.order 0 := by
  have free : r.bound settings = none := by
    rw [Range.bound, whole, unlimited]
    rfl
  rw [Range.frame, free]
  exact .fresh steady undenied

/-- A range that was decoded to its end was begun behind a skip. -/
theorem run_of_decode {r : Range} {settings : Settings} {binding : Binding} {source : Source}
    {s : Transcript} {session : Session ω} {n : Nat}
    (decoded : r.decode settings binding (t.run name) source s session = (.ok n, f)) :
    ∃ w f₁, Window.skip r.offset (r.frame settings binding source s session).input = .ok () w ∧
      t.run name (r.begun settings binding w s session) = .ok () f₁ ∧
      n = f₁.input.position - r.offset ∧ f.output = f₁.output := by
  cases skipped : Window.skip r.offset (r.frame settings binding source s session).input with
  | error e w =>
    obtain ⟨f', outside, -⟩ := Range.decode_of_outside (t.run name) skipped
    rw [outside] at decoded
    cases decoded
  | ok u w =>
    cases ran : t.run name (r.begun settings binding w s session) with
    | error e f₁ =>
      obtain ⟨session', failed⟩ := Range.decode_of_failed skipped ran
      rw [failed] at decoded
      cases decoded
    | ok u f₁ =>
      have ready := ready_run (Range.begins_begun skipped).ready (.inl ran)
      obtain ⟨session', done⟩ := Range.decode_of_done skipped ran ready.output_on
      rw [done] at decoded
      cases decoded
      exact ⟨w, f₁, rfl, ran, rfl, rfl⟩

/-- A decoder stands at `o` in the data, behind the lines `front`, and its run ends with
`f'`. -/
structure Place (t : Table) (settings : Settings) (binding : Binding) (data : Bytes)
    (front : List Transcript.Line) (o : Nat) (g f' : Frame Transcript ω) : Prop where
  ready : g.Ready
  stands : g.input.Stands data settings.order o
  sink_eq : g.output.sink = ({} : Transcript).behind front
  symbols_eq : ∀ session : Session ω,
    g.session.activeSymbols = (session.enter binding).activeSymbols
  ran : t.run settings.name g = .ok () f'

section Place

variable {settings : Settings} {binding : Binding} {data : Bytes} {plan : List PlannedRead}
  {front : List Transcript.Line} {o n : Nat}

/-- The bytes up to the end of a run include those before the place. -/
theorem Place.le_position (place : Place t settings binding data front o g f') :
    o ≤ f'.input.position := by
  have blank : g.output.sink.current = {} := by
    rw [place.sink_eq]
    rfl
  rw [(ready_run place.ready (.inl place.ran)).position_eq, ← place.stands.totalRead_eq]
  exact totalRead_le_of_run place.ready blank place.ran

/-- Every line of a disassembly begins at a place of its decoder, and tells it. -/
theorem exists_place (unlimited : settings.limit = none)
    (steady : Source.Steady { data, plan }) (undenied : .deny ∉ plan) {session : Session ω}
    (decoded : Range.decode {} settings binding (t.run settings.name) { data, plan }
      ({} : Transcript) session = (.ok n, f))
    {after : List Transcript.Line} {line : Transcript.Line}
    (lines : f.output.sink.lines = front ++ line :: after) :
    ∃ (o : Nat) (g f' : Frame Transcript ω), Place t settings binding data front o g f' ∧
      line.segments.head? = some (labelSegment o) ∧ n = f'.input.position ∧
      f.output = f'.output := by
  obtain ⟨w, f', skipped, ran, counted, output⟩ := run_of_decode decoded
  have fresh : (Range.frame {} settings binding { data, plan } ({} : Transcript)
      session).input.Stands data settings.order 0 := stands_frame rfl unlimited steady undenied
  have begins := Range.begins_begun skipped
  obtain ⟨founds, f₁, passes, stops⟩ := stops_run begins.ready ran
  rw [output] at lines
  obtain ⟨g, reaches, ran', labelled⟩ := exists_reaches passes stops ran begins.ready rfl lines
  obtain ⟨k, moved⟩ := reaches.moved
  have skip := Window.moved_skip 0 fresh.smooth.toSettled skipped
  have stands := (fresh.moved skip).moved moved
  rw [stands.totalRead_eq] at labelled
  refine ⟨_, g, f', ⟨reaches.ready, stands, ?_, fun session' ↦ ?_, ran'⟩, labelled, counted, output⟩
  · rw [reaches.sink_eq, Transcript.behind, List.append_nil]
    rfl
  · exact reaches.symbols_eq.trans (binding.activeSymbols_enter session session')

/-- A decoder that is sent to the place of another one does what that one does. -/
theorem Place.decode (place : Place t settings binding data front o g f')
    (unlimited : settings.limit = none) (steady : Source.Steady { data, plan })
    (undenied : .deny ∉ plan) (session : Session ω) :
    ∃ f, Range.decode { offset := o } settings binding (t.run settings.name) { data, plan }
        ({} : Transcript) session = (.ok (f'.input.position - o), f) ∧
      f'.output.sink = f.output.sink.behind front := by
  let r : Range := { offset := o }
  have fresh : (r.frame settings binding { data, plan } ({} : Transcript)
      session).input.Stands data settings.order 0 := stands_frame rfl unlimited steady undenied
  obtain ⟨w, skipped, stands⟩ := fresh.skip place.stands.inside
  -- the other window has come here instruction by instruction, this one by skipping
  have tapes := place.stands.tape_eq.trans stands.tape_eq.symm
  have beside : Frame.Beside Window.sameTape (Transcript.lacking front) g
      (r.begun settings binding w {} session) :=
    { input := ⟨place.stands.smooth, stands.smooth, tapes⟩
      output := ⟨place.sink_eq, place.ready.output_on, place.ready.queue_nil⟩
      symbols_eq := place.symbols_eq session }
  have both := (t.respects_run settings.name).paired g _ beside
  rw [place.ran] at both
  generalize ran : t.run settings.name (r.begun settings binding w ({} : Transcript) session) =
    result at both
  cases both with
  | @ok _ _ f₁ like =>
    have on : f₁.output.autoCommit = true :=
      like.output.autoCommit_eq.symm.trans (ready_run place.ready (.inl place.ran)).output_on
    obtain ⟨session', done⟩ := Range.decode_of_done skipped ran on
    rw [Window.sameTape.position_eq like.input]
    exact ⟨_, done, like.output.sink⟩

end Place

/-- A disassembly can be begun again at each of its lines.  Every line tells the place
where it begins; a decoder that is sent there, however the bytes may arrive this time, prints
that line and all that follow, and counts the bytes from there. -/
theorem decode_restarts {settings : Settings} (unlimited : settings.limit = none)
    (binding : Binding) {data : Bytes} {plan : List PlannedRead}
    (steady : Source.Steady { data, plan }) (undenied : .deny ∉ plan) (session : Session ω)
    {n : Nat}
    (decoded : Range.decode {} settings binding (t.run settings.name) { data, plan }
      ({} : Transcript) session = (.ok n, f)) :
    (∀ line ∈ f.output.sink.lines, ∃ o ≤ n, line.segments.head? = some (labelSegment o)) ∧
    ∀ before line after o, f.output.sink.lines = before ++ line :: after →
      line.segments.head? = some (labelSegment o) →
      ∀ plan', Source.Steady { data, plan := plan' } → .deny ∉ plan' → ∀ session' : Session ω,
        let again := Range.decode { offset := o } settings binding (t.run settings.name)
          { data, plan := plan' } ({} : Transcript) session'
        again.1 = .ok (n - o) ∧
          again.2.output.sink = { f.output.sink with lines := line :: after } := by
  refine ⟨fun line among ↦ ?_, fun before line after o lines labelled ↦ ?_⟩
  · obtain ⟨before, after, lines⟩ := List.append_of_mem among
    obtain ⟨o, g, f₁, place, labelled, rfl, -⟩ :=
      exists_place unlimited steady undenied decoded lines
    exact ⟨o, place.le_position, labelled⟩
  · intro plan' steady' undenied' session' again
    obtain ⟨o', g, f₁, place, labelled', rfl, output⟩ :=
      exists_place unlimited steady undenied decoded lines
    -- the place that the line tells is the one where it was printed
    obtain rfl := labelSegment_injective (Option.some.inj (labelled.symm.trans labelled'))
    obtain ⟨f', decoded', behind⟩ := place.decode unlimited steady' undenied' session'
    dsimp only [again]
    rw [decoded']
    refine ⟨rfl, ?_⟩
    rw [output, behind] at lines ⊢
    rw [← List.append_cancel_left lines]
    rfl

/-- An instruction, an unknown byte, a jump table, and one that the end cuts off.  Decoding
begins again at the jump table, with bytes that arrive in other chunks. -/
theorem decode_restarts_at_jump_table :
    let file : File :=
      ⟨[0x4F, 0x50, 0x49, 0x58, 2, 0, 0, 0, 2, 0, 2, 0, 1, 0x00, 0, 0, 1, 0x10, 5, 0,
        1, 3, 110, 111, 112, 2, 2, 115, 119, 1, 0x30], by decide⟩
    let t : Table := .ofIndex ⟨.instruction, file, ⟨2, 2, 2⟩,
      [⟨⟨[0x00], by decide⟩, 0⟩, ⟨⟨[0x10], by decide⟩, 5⟩], {}⟩
    let data : Bytes := [0x00, 0x41, 0x10, 1, 0, 0, 0, 2, 0, 0, 0, 0x10, 2, 0, 0, 0, 0, 0, 0, 0]
    let settings : Settings := { name := "m" }
    let decode (r : Range) (plan : List PlannedRead) :=
      r.decode settings ⟨"m", some {}⟩ (t.run settings.name) { data, plan } ({} : Transcript)
        ({ world := () } : Session Unit)
    let full := decode {} [.interrupt, .deliver 5]
    let again := decode { offset := 2 } [.deliver 1, .deliver 3]
    let table : Transcript.Line := ⟨0, [labelSegment 2, (.keyword, "sw"), (.plain, " "),
      (.operator, "["), (.label, "L0004"), (.operator, "]")]⟩
    let last : Transcript.Line := ⟨0, [labelSegment 11, (.error, "<truncated sw>")]⟩
    (full.1 = .ok 12 ∧ full.2.output.sink.lines =
      [⟨0, [labelSegment 0, (.keyword, "nop")]⟩, ⟨0, [labelSegment 1, (.error, ".byte 41")]⟩,
        table, last]) ∧
    again.1 = .ok (12 - 2) ∧
      again.2.output.sink = { full.2.output.sink with lines := [table, last] } := by
  intro file t data settings decode full again table last
  have done : full.1 = .ok 12 := by
    dsimp only [full, decode]
    cbv
  have lines : full.2.output.sink.lines =
      [⟨0, [labelSegment 0, (.keyword, "nop")]⟩, ⟨0, [labelSegment 1, (.error, ".byte 41")]⟩] ++
        table :: [last] := by
    dsimp only [full, decode]
    cbv
  have pair : ∀ p : Except Error Nat × Frame Transcript Unit, p.1 = .ok 12 →
      p = (.ok 12, p.2) := by
    rintro ⟨result, f⟩ rfl
    rfl
  have decoded : Range.decode {} settings ⟨"m", some {}⟩ (t.run settings.name)
      { data, plan := [.interrupt, .deliver 5] } ({} : Transcript)
      ({ world := () } : Session Unit) = (.ok 12, full.2) := pair full done
  have restarts := (decode_restarts rfl ⟨"m", some {}⟩ (Source.steady_of_forall (by decide))
    (by decide) { world := () } decoded).2 _ _ _ 2 lines rfl [.deliver 1, .deliver 3]
      (Source.steady_of_forall (by decide)) (by decide) { world := () }
  dsimp only at restarts
  refine ⟨⟨done, lines⟩, ?_⟩
  dsimp only [again, decode]
  exact restarts

end Table

end Disasm
