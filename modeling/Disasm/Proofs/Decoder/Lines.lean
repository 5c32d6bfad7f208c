import Disasm.Decoder.Range
import Disasm.Proofs.Decoder.Line
import Disasm.Proofs.Index.Progress

/-!
# One line for each instruction

The loop of a table decoder passes instruction after instruction until it stops
or fails.  `Passes`, `Stops` and `Fails` say what it does, for every source; what
holds at the end is then read off what is told of one instruction.
-/

namespace Disasm

variable {ω : Type}

namespace Table

/-! ## Instruction after instruction -/

/-- Looking up works on the window and the log alone. -/
theorem next_eq {σ : Type} [Sink σ] (t : Table) (f : Frame σ ω) :
    t.next f =
      match t.index.lookup t.eager f.input with
      | .ok found w => .ok found { f with
          input := w
          session := f.session.record (Index.lookupRecord f.input.totalRead found) }
      | .error e w => .error e { f with input := w } := by
  have got : (get : Frame.Action σ ω _) f = .ok f f := rfl
  refine (Action.bind_of_ok got).trans ?_
  cases looked : t.index.lookup t.eager f.input with
  | ok found w =>
    have read : Frame.read (t.index.lookup t.eager) f = .ok found { f with input := w } := by
      rw [Frame.read, looked]
    exact Action.bind_of_ok read
  | error e w =>
    have read : Frame.read (t.index.lookup t.eager) f = .error e { f with input := w } := by
      rw [Frame.read, looked]
    exact Action.bind_of_error read

/-- On the way from one frame to another, instruction after instruction is found
and its line is printed. -/
inductive Passes (t : Table) (name : String) :
    Frame Transcript ω → List (Index.Lookup Instruction) → Frame Transcript ω → Prop
  | nil (f : Frame Transcript ω) : Passes t name f [] f
  | cons {f f₁ f₂ f' : Frame Transcript ω} {found : Index.Lookup Instruction}
      {founds : List (Index.Lookup Instruction)} : t.next f = .ok (some found) f₁ →
      renderFound name found f₁ = .ok .more f₂ → Passes t name f₂ founds f' →
      Passes t name f (found :: founds) f'

/-- The work stops at `f`: nothing follows, or an instruction that is cut off. -/
inductive Stops (t : Table) (name : String) (f : Frame Transcript ω) : Frame Transcript ω → Prop
  | finished {f' : Frame Transcript ω} : t.next f = .ok none f' → Stops t name f f'
  | truncated {f₁ f' : Frame Transcript ω} {found : Index.Lookup Instruction} :
      t.next f = .ok (some found) f₁ → renderFound name found f₁ = .ok .finished f' →
      Stops t name f f'

/-- The instruction at `f` cannot be looked up, or its operands cannot be decoded. -/
inductive Fails (t : Table) (name : String) (f : Frame Transcript ω) (e : Error) :
    Frame Transcript ω → Prop
  | lookup {f' : Frame Transcript ω} : t.next f = .error e f' → Fails t name f e f'
  | operands {f₁ f' : Frame Transcript ω} {found : Index.Lookup Instruction} :
      t.next f = .ok (some found) f₁ → renderFound name found f₁ = .error e f' →
      Fails t name f e f'

/-- How a decoder that may print `count` instructions ends. -/
inductive Ran (t : Table) (name : String) (count : Nat) (f : Frame Transcript ω) :
    EStateM.Result Error (Frame Transcript ω) Unit → Prop
  | spent {founds : List (Index.Lookup Instruction)} {f' : Frame Transcript ω} :
      Passes t name f founds f' → founds.length = count → Ran t name count f (.ok () f')
  | stopped {founds : List (Index.Lookup Instruction)} {f₁ f' : Frame Transcript ω} :
      Passes t name f founds f₁ → Stops t name f₁ f' → Ran t name count f (.ok () f')
  | failed {founds : List (Index.Lookup Instruction)} {f₁ f' : Frame Transcript ω} {e : Error} :
      Passes t name f founds f₁ → Fails t name f₁ e f' → Ran t name count f (.error e f')

theorem Ran.cons {t : Table} {name : String} {count : Nat} {f f₁ f₂ : Frame Transcript ω}
    {found : Index.Lookup Instruction} {result : EStateM.Result Error (Frame Transcript ω) Unit}
    (looked : t.next f = .ok (some found) f₁) (rendered : renderFound name found f₁ = .ok .more f₂)
    (ran : Ran t name count f₂ result) : Ran t name (count + 1) f result := by
  cases ran with
  | spent passes all => exact .spent (.cons looked rendered passes) (congrArg (· + 1) all)
  | stopped passes stops => exact .stopped (.cons looked rendered passes) stops
  | failed passes fails => exact .failed (.cons looked rendered passes) fails

/-- A decoder goes from instruction to instruction until it stops or fails. -/
theorem ran_renderFor (t : Table) (name : String) (count : Nat) (f : Frame Transcript ω) :
    Ran t name count f (t.renderFor name count f) := by
  induction count generalizing f with
  | zero => exact .spent (.nil f) rfl
  | succ count ih =>
    rw [renderFor]
    cases looked : t.next f with
    | error e f₁ =>
      rw [Action.bind_of_error looked]
      exact .failed (.nil f) (.lookup looked)
    | ok found? f₁ =>
      rw [Action.bind_of_ok looked]
      cases found? with
      | none => exact .stopped (.nil f) (.finished looked)
      | some found =>
        dsimp only
        cases rendered : renderFound name found f₁ with
        | error e f₂ =>
          rw [Action.bind_of_error rendered]
          exact .failed (.nil f) (.operands looked rendered)
        | ok progress f₂ =>
          rw [Action.bind_of_ok rendered]
          cases progress with
          | finished => exact .stopped (.nil f) (.truncated looked rendered)
          | more => exact .cons looked rendered (ih f₂)

/-! ## What every step keeps -/

section Invariants

variable {t : Table} {name : String} {found : Index.Lookup Instruction}
  {founds : List (Index.Lookup Instruction)} {f f' : Frame Transcript ω}

theorem ready_next {found? : Option (Index.Lookup Instruction)} (ready : f.Ready)
    (looked : t.next f = .ok found? f') : f'.Ready ∧ f'.output = f.output := by
  obtain ⟨n, moved⟩ := t.index.moves_lookup t.eager f.input ready.settled
  rw [next_eq] at looked
  cases answer : t.index.lookup t.eager f.input with
  | error e w =>
    rw [answer] at looked
    cases looked
  | ok found? w =>
    rw [answer] at looked moved
    cases looked
    exact ⟨ready.of_moved moved ready.output_eq, rfl⟩

theorem moved_next {σ : Type} [Sink σ] {f f' : Frame σ ω} (settled : f.input.Settled)
    (looked : t.next f = .ok (some found) f') : ∃ n, 1 ≤ n ∧ f.input.Moved n f'.input := by
  rw [next_eq] at looked
  cases answer : t.index.lookup t.eager f.input with
  | error e w =>
    rw [answer] at looked
    cases looked
  | ok found? w =>
    rw [answer] at looked
    cases looked
    exact Index.exists_moved_of_lookup settled answer

/-- What becomes of the instruction that was found next. -/
theorem told_of_next {f₁ : Frame Transcript ω} {result} (ready : f.Ready)
    (looked : t.next f = .ok (some found) f₁) (rendered : renderFound name found f₁ = result) :
    f₁.Ready ∧ f₁.output = f.output ∧ Told found f₁ result := by
  obtain ⟨ready₁, same⟩ := ready_next ready looked
  exact ⟨ready₁, same, rendered ▸ told_renderFound name found ready₁⟩

/-- A failure leaves the output as it was. -/
theorem Fails.ready {e : Error} (fails : Fails t name f e f') (ready : f.Ready) :
    f'.Ready ∧ f'.output = f.output := by
  cases fails with
  | lookup looked =>
    obtain ⟨n, moved⟩ := t.index.moves_lookup t.eager f.input ready.settled
    rw [next_eq] at looked
    cases answer : t.index.lookup t.eager f.input with
    | ok found? w =>
      rw [answer] at looked
      cases looked
    | error e' w =>
      rw [answer] at looked moved
      cases looked
      exact ⟨ready.of_moved moved ready.output_eq, rfl⟩
  | operands looked rendered =>
    obtain ⟨ready₁, same, told⟩ := told_of_next ready looked rendered
    cases told with
    | failed other moved => exact ⟨ready₁.of_moved moved ready₁.output_eq, same⟩

theorem Stops.ready (stops : Stops t name f f') (ready : f.Ready) : f'.Ready := by
  cases stops with
  | finished looked => exact (ready_next ready looked).1
  | truncated looked rendered =>
    obtain ⟨ready₁, -, told⟩ := told_of_next ready looked rendered
    cases told with
    | truncated moved lack => exact ready₁.of_moved moved rfl

theorem Passes.ready (passes : Passes t name f founds f') (ready : f.Ready) : f'.Ready := by
  induction passes with
  | nil f => exact ready
  | cons looked rendered passes ih =>
    obtain ⟨ready₁, -, told⟩ := told_of_next ready looked rendered
    cases told with
    | line moved exactly plain => exact ih (ready₁.of_moved moved rfl)

/-- Each instruction takes a byte of the reserve. -/
theorem Passes.length_le (passes : Passes t name f founds f') (ready : f.Ready) :
    founds.length ≤ Index.reserve f.input := by
  induction passes with
  | nil f => exact Nat.zero_le _
  | cons looked rendered passes ih =>
    obtain ⟨ready₁, -, told⟩ := told_of_next ready looked rendered
    obtain ⟨m, positive, moved₁⟩ := moved_next ready.settled looked
    cases told with
    | line moved exactly plain =>
      have rest := ih (ready₁.of_moved moved rfl)
      have first := Index.reserve_of_moved moved₁ ready.settled
      have second := Index.reserve_of_moved moved ready₁.settled
      rw [Frame.input_written] at rest
      rw [List.length_cons]
      omega

theorem Stops.clean (stops : Stops t name f f') (ready : f.Ready) (clean : f.output.sink.Clean) :
    f'.output.sink.Clean := by
  cases stops with
  | finished looked => rwa [(ready_next ready looked).2]
  | truncated looked rendered =>
    obtain ⟨ready₁, same, told⟩ := told_of_next ready looked rendered
    cases told with
    | @truncated w session moved lack =>
      rw [← same] at clean
      change (Frame.written w _ _).output.sink.Clean
      rw [Frame.output_written w clean]
      exact Transcript.clean_addLine _ _

/-- The line of an instruction begins with its label. -/
def LineOf (level : Nat) (found : Index.Lookup Instruction) (line : Transcript.Line) : Prop :=
  ∃ rest, line = ⟨level, labelSegment found.offset :: found.descriptor.head :: rest⟩

/-- For each instruction that was passed there is one line more. -/
theorem Passes.lines (passes : Passes t name f founds f') (ready : f.Ready)
    (clean : f.output.sink.Clean) :
    f'.output.sink.Clean ∧ f'.output.sink.level = f.output.sink.level ∧
      ∃ lines, f'.output.sink.lines = f.output.sink.lines ++ lines ∧
        List.Forall₂ (LineOf f.output.sink.level) founds lines := by
  induction passes with
  | nil f => exact ⟨clean, rfl, [], (List.append_nil _).symm, .nil⟩
  | @cons f f₁ f₂ f' found founds looked rendered passes ih =>
    obtain ⟨ready₁, same, told⟩ := told_of_next ready looked rendered
    cases told with
    | @line rest n w moved exactly plain =>
      rw [← same] at clean ⊢
      have later := ih (ready₁.of_moved moved rfl)
      rw [Frame.output_written w clean] at later
      obtain ⟨clean', level, lines, eq, each⟩ := later (Transcript.clean_addLine _ _)
      refine ⟨clean', level, _ :: lines, ?_, .cons ⟨rest, rfl⟩ each⟩
      rw [eq, Transcript.addLine, List.append_assoc]
      rfl

end Invariants

end Table

/-! ## Ranges -/

namespace Range

variable {σ : Type} [Sink σ] {r : Range} {settings : Settings} {binding : Binding}
  {loop : Frame.Action σ ω Unit} {source : Source} {sink : σ} {session : Session ω}

/-- The frame in which the loop of a decoder begins. -/
structure Begins (r : Range) (settings : Settings) (binding : Binding) (source : Source) (sink : σ)
    (session : Session ω) (f : Frame σ ω) : Prop where
  skipped : Window.skip r.offset (r.frame settings binding source sink session).input =
    .ok () f.input
  output_eq : f.output = { sink }
  ready : f.Ready

/-- How decoding a range ends, if the loop keeps frames ready. -/
inductive Decoded (r : Range) (settings : Settings) (binding : Binding)
    (loop : Frame.Action σ ω Unit) (source : Source) (sink : σ) (session : Session ω) :
    Except Error Nat × Frame σ ω → Prop
  /-- The range begins behind the end. -/
  | outside {e : Error} {w : Window} {f : Frame σ ω} :
      Window.skip r.offset (r.frame settings binding source sink session).input = .error e w →
      f.output.sink = sink → Decoded r settings binding loop source sink session (.error e, f)
  | failed {e : Error} {f₀ f₁ f : Frame σ ω} : Begins r settings binding source sink session f₀ →
      loop f₀ = .error e f₁ → f.output = f₁.output →
      Decoded r settings binding loop source sink session (.error e, f)
  | done {f₀ f₁ f : Frame σ ω} : Begins r settings binding source sink session f₀ →
      loop f₀ = .ok () f₁ → f.output = f₁.output →
      Decoded r settings binding loop source sink session (.ok (f₁.input.position - r.offset), f)

/-- The frame in which the loop begins, once the window was skipped to the range. -/
def begun (r : Range) (settings : Settings) (binding : Binding) (w : Window) (sink : σ)
    (session : Session ω) : Frame σ ω where
  input := w
  output := { sink }
  session := (session.enter binding).record ⟨.debug,
    s!"decoder '{settings.name}' started at offset "
      ++ s!"{Text.Hex.marked 1 r.offset} ({settings.order.name})"⟩

section Decode

variable {e : Error} {w : Window} {f : Frame σ ω}

omit [Sink σ] in
theorem read_skip (skipped : Window.skip r.offset
      (r.frame settings binding source sink session).input = .ok () w) :
    Frame.read (Window.skip r.offset) (r.frame settings binding source sink session) =
      .ok () { r.frame settings binding source sink session with input := w } := by
  rw [Frame.read, skipped]

variable (loop) in
theorem decode_of_outside (skipped : Window.skip r.offset
      (r.frame settings binding source sink session).input = .error e w) :
    ∃ f, r.decode settings binding loop source sink session = (.error e, f) ∧
      f.output = { sink } := by
  have first : Frame.read (Window.skip r.offset) (r.frame settings binding source sink session) =
      .error e { r.frame settings binding source sink session with input := w } := by
    rw [Frame.read, skipped]
  have ended : r.steps settings loop (r.frame settings binding source sink session) = _ :=
    Action.bind_of_error first
  rw [decode, ended]
  exact ⟨_, rfl, rfl⟩

theorem decode_of_failed (skipped : Window.skip r.offset
      (r.frame settings binding source sink session).input = .ok () w)
    (ran : loop (r.begun settings binding w sink session) = .error e f) :
    ∃ session', r.decode settings binding loop source sink session =
      (.error e, { f with session := session' }) := by
  have ended : r.steps settings loop (r.frame settings binding source sink session) = .error e f :=
    (Action.bind_of_ok (read_skip skipped)).trans
      ((Action.bind_of_ok rfl).trans (Action.bind_of_error ran))
  rw [decode, ended]
  exact ⟨_, rfl⟩

theorem decode_of_done (skipped : Window.skip r.offset
      (r.frame settings binding source sink session).input = .ok () w)
    (ran : loop (r.begun settings binding w sink session) = .ok () f)
    (on : f.output.autoCommit = true) :
    ∃ session', r.decode settings binding loop source sink session =
      (.ok (f.input.position - r.offset), { f with session := session' }) := by
  have stays : Frame.write (Output.setAutoCommit true) f = .ok () f := by
    rw [Frame.write, Output.setAutoCommit_of_on on]
  have ended : r.steps settings loop (r.frame settings binding source sink session) =
      .ok (f.input.position - r.offset) _ :=
    (Action.bind_of_ok (read_skip skipped)).trans ((Action.bind_of_ok rfl).trans
      ((Action.bind_of_ok ran).trans ((Action.bind_of_ok stays).trans rfl)))
  rw [decode, ended]
  exact ⟨_, rfl⟩

end Decode

omit [Sink σ] in
theorem begins_begun {w : Window} (skipped : Window.skip r.offset
      (r.frame settings binding source sink session).input = .ok () w) :
    Begins r settings binding source sink session (r.begun settings binding w sink session) := by
  have fresh : (r.frame settings binding source sink session).Ready :=
    ⟨⟨Nat.le_refl 0, fun _ ↦ rfl⟩, rfl, rfl, rfl⟩
  have moved := Window.moved_skip r.offset fresh.settled skipped
  exact ⟨skipped, rfl, fresh.of_moved moved rfl⟩

theorem decoded_decode (keeps : ∀ f f₁, f.Ready → loop f = .ok () f₁ → f₁.Ready) :
    Decoded r settings binding loop source sink session
      (r.decode settings binding loop source sink session) := by
  cases skipped : Window.skip r.offset (r.frame settings binding source sink session).input with
  | error e w =>
    obtain ⟨f, decoded, output⟩ := decode_of_outside loop skipped
    rw [decoded]
    exact .outside skipped (by rw [output])
  | ok u w =>
    have begins := begins_begun skipped
    cases ran : loop (r.begun settings binding w sink session) with
    | error e f₁ =>
      obtain ⟨session', decoded⟩ := decode_of_failed skipped ran
      rw [decoded]
      exact .failed begins ran rfl
    | ok u f₁ =>
      have ready := keeps _ f₁ begins.ready ran
      obtain ⟨session', decoded⟩ := decode_of_done skipped ran ready.output_on
      rw [decoded]
      exact .done begins ran rfl

end Range

namespace Table

section Run

variable {t : Table} {name : String} {f f' : Frame Transcript ω}

/-- The loop of a decoder ends where it stops, and never because the count of
instructions is spent. -/
theorem stops_run (ready : f.Ready) (ran : t.run name f = .ok () f') :
    ∃ founds f₁, Passes t name f founds f₁ ∧ Stops t name f₁ f' := by
  have ends := t.ran_renderFor name (Index.reserve f.input + 1) f
  rw [show t.renderFor name (Index.reserve f.input + 1) f = .ok () f' from ran] at ends
  cases ends with
  | stopped passes stops => exact ⟨_, _, passes, stops⟩
  | spent passes all =>
    have := passes.length_le ready
    omega

/-- If the loop of a decoder fails, it does at some instruction. -/
theorem fails_run {e : Error} (ran : t.run name f = .error e f') :
    ∃ founds f₁, Passes t name f founds f₁ ∧ Fails t name f₁ e f' := by
  have ends := t.ran_renderFor name (Index.reserve f.input + 1) f
  rw [show t.renderFor name (Index.reserve f.input + 1) f = .error e f' from ran] at ends
  cases ends with
  | failed passes fails => exact ⟨_, _, passes, fails⟩

theorem ready_run (ready : f.Ready)
    (ran : t.run name f = .ok () f' ∨ ∃ e, t.run name f = .error e f') : f'.Ready := by
  rcases ran with ran | ⟨e, ran⟩
  · obtain ⟨founds, f₁, passes, stops⟩ := stops_run ready ran
    exact stops.ready (passes.ready ready)
  · obtain ⟨founds, f₁, passes, fails⟩ := fails_run ran
    exact (fails.ready (passes.ready ready)).1

theorem decoded_run {r : Range} {settings : Settings} {binding : Binding} {source : Source}
    {s : Transcript} {session : Session ω} {result : Except Error Nat}
    (decoded : r.decode settings binding (t.run name) source s session = (result, f)) :
    Range.Decoded r settings binding (t.run name) source s session (result, f) :=
  decoded ▸ Range.decoded_decode fun _ _ ready ran ↦ ready_run ready (.inl ran)

end Run

/-- A failing instruction leaves no part of its line.  Whatever the source does,
no line is unfinished when decoding a range ends; and if an instruction could not
be looked up or decoded, there is one line for each before it and nothing else.
The loop gives both sides back with automatic commits and with nothing pending. -/
theorem decode_leaves_no_part (t : Table) (r : Range) (settings : Settings) (binding : Binding)
    (source : Source) {s : Transcript} (clean : s.Clean) (session : Session ω)
    {result : Except Error Nat} {f : Frame Transcript ω}
    (decoded : r.decode settings binding (t.run settings.name) source s session = (result, f)) :
    f.output.sink.Clean ∧
      (∀ e, result = .error e →
        (∃ w, Window.skip r.offset (r.frame settings binding source s session).input = .error e w ∧
          f.output.sink = s) ∨
        ∃ f₀ founds f₁ f₂ lines, r.Begins settings binding source s session f₀ ∧
          Passes t settings.name f₀ founds f₁ ∧ Fails t settings.name f₁ e f₂ ∧
          f.output.sink = f₁.output.sink ∧
          f.output.sink.lines = s.lines ++ lines ∧ List.Forall₂ (LineOf s.level) founds lines) ∧
      ∀ g g' : Frame Transcript ω, g.Ready →
        (t.run settings.name g = .ok () g' ∨ ∃ e, t.run settings.name g = .error e g') →
        g'.input.autoCommit = true ∧ g'.input.pending = 0 ∧
          g'.output.autoCommit = true ∧ g'.output.queue = [] := by
  rw [← and_assoc]
  refine ⟨?_, fun g g' ready ran ↦ ?_⟩
  · cases decoded_run decoded with
    | @outside e w _ skipped same =>
      refine ⟨same ▸ clean, fun e' eq ↦ ?_⟩
      cases eq
      exact .inl ⟨w, skipped, same⟩
    | @failed e f₀ f₂ _ begins ran same =>
      have sink : f₀.output.sink = s := congrArg Output.sink begins.output_eq
      obtain ⟨founds, f₁, passes, fails⟩ := fails_run ran
      obtain ⟨clean₁, -, lines, eq, each⟩ := passes.lines begins.ready (sink ▸ clean)
      rw [sink] at eq each
      rw [same, (fails.ready (passes.ready begins.ready)).2]
      refine ⟨clean₁, fun e' eq' ↦ ?_⟩
      cases eq'
      exact .inr ⟨f₀, founds, f₁, f₂, lines, begins, passes, fails, rfl, eq, each⟩
    | @done f₀ f₂ _ begins ran same =>
      have sink : f₀.output.sink = s := congrArg Output.sink begins.output_eq
      obtain ⟨founds, f₁, passes, stops⟩ := stops_run begins.ready ran
      rw [same]
      refine ⟨stops.clean (passes.ready begins.ready) ?_, nofun⟩
      exact (passes.lines begins.ready (sink ▸ clean)).1
  · have ready' := ready_run ready ran
    exact ⟨ready'.input_on, ready'.settled.settled ready'.input_on, ready'.output_on,
      ready'.queue_nil⟩

/-- An instruction that has printed its first operand when a symbol turns out to be
unknown, behind another one. -/
theorem decode_leaves_no_part_of_symbol :
    let file : File :=
      ⟨[0x4F, 0x50, 0x49, 0x58, 2, 0, 0, 0, 2, 0, 2, 0, 1, 0x00, 0, 0, 1, 0x10, 5, 0,
        1, 3, 110, 111, 112, 2, 3, 108, 100, 99, 2, 0x01, 0x10], by decide⟩
    let t : Table := .ofIndex ⟨.instruction, file, ⟨2, 2, 2⟩,
      [⟨⟨[0x00], by decide⟩, 0⟩, ⟨⟨[0x10], by decide⟩, 5⟩], {}⟩
    let source : Source := { data := [0x00, 0x10, 7, 9], plan := [.deliver 3, .interrupt] }
    let session : Session Unit := { world := () }
    let decoded := Range.decode {} { name := "m" } ⟨"m", some {}⟩ (t.run "m") source
      ({} : Transcript) session
    (decoded.1 = .error (.unknownSymbol 9) ∧
      decoded.2.output.sink.texts = ["L0000: nop"]) ∧
    decoded.2.output.sink.Clean ∧
    ∃ f₀ founds f₁ f₂ lines,
      Range.Begins {} { name := "m" } ⟨"m", some {}⟩ source ({} : Transcript) session f₀ ∧
      Passes t "m" f₀ founds f₁ ∧ Fails t "m" f₁ (.unknownSymbol 9) f₂ ∧
      decoded.2.output.sink = f₁.output.sink ∧
      decoded.2.output.sink.lines = [] ++ lines ∧ List.Forall₂ (LineOf 0) founds lines := by
  intro file t source session decoded
  have failed : decoded.1 = .error (.unknownSymbol 9) := by
    dsimp only [decoded]
    cbv
  have texts : decoded.2.output.sink.texts = ["L0000: nop"] := by
    dsimp only [decoded]
    cbv
  have clean : Transcript.Clean {} := rfl
  have pair : ∀ p : Except Error Nat × Frame Transcript Unit,
      p.1 = .error (.unknownSymbol 9) → p = (.error (.unknownSymbol 9), p.2) := by
    rintro ⟨result, f⟩ rfl
    rfl
  obtain ⟨finished, ended, -⟩ :=
    decode_leaves_no_part t {} { name := "m" } ⟨"m", some {}⟩ source clean session
      (pair decoded failed)
  refine ⟨⟨failed, texts⟩, finished, ?_⟩
  obtain ⟨w, skipped, -⟩ | found := ended _ rfl
  · cases skipped
  · exact found

end Table

end Disasm
