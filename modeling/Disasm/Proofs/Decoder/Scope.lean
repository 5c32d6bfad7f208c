import Disasm.Decoder.Range
import Disasm.Decoder.Table
import Disasm.Proofs.Coupling
import Disasm.Script.Device

/-!
# Which decoder is running

A call puts its decoder on top of those that are running, and at its end cuts them
back to as many as there were.  This restores them because nothing else changes them:
the loop of a decoder works on its frame and calls further decoders, and that is all.
A `Loop` is such a loop, with the calls inside as loops of their own, and `Meets`
says which sessions are met on the way, inside which calls.
-/

namespace Disasm

open Disasm.Action (ending)

variable {σ ω α β : Type}

/-! ## What an action keeps -/

namespace Frame

/-- Whatever happens, the action keeps what `I` says of the session. -/
def Keeps (I : Session ω → Prop) (x : Action σ ω α) : Prop :=
  ∀ f, I f.session → I (ending (x f)).session

namespace Keeps

variable {I : Session ω → Prop} {x : Action σ ω α}

theorem pure (a : α) : Keeps I (Pure.pure a : Action σ ω α) := fun _ held ↦ held

theorem throw (e : Error) : Keeps I (MonadExcept.throw e : Action σ ω α) := fun _ held ↦ held

theorem get : Keeps I (MonadState.get : Action σ ω (Frame σ ω)) := fun _ held ↦ held

theorem bind {y : α → Action σ ω β} (hx : Keeps I x) (hy : ∀ a, Keeps I (y a)) :
    Keeps I (x >>= y) := by
  intro f held
  have first := hx f held
  cases ran : x f with
  | ok a g =>
    rw [ran] at first
    rw [Action.bind_of_ok ran]
    exact hy a g first
  | error e g =>
    rw [ran] at first
    rw [Action.bind_of_error ran]
    exact first

theorem check {p : Prop} [Decidable p] {e : Error} {y : α → Action σ ω β} {z : Action σ ω β}
    (hz : Keeps I z) : Keeps I (if p then MonadExcept.throw e >>= y else z) := by
  split
  · exact fun _ held ↦ held
  · exact hz

theorem read (action : Window.Action α) : Keeps I (Frame.read action : Action σ ω α) := by
  intro f held
  rw [Frame.read]
  split <;> exact held

theorem write (action : Output.Action σ α) : Keeps I (Frame.write action : Action σ ω α) := by
  intro f held
  rw [Frame.write]
  split <;> exact held

theorem ask (question : Session ω → Except Error α) :
    Keeps I (Frame.ask question : Action σ ω α) := by
  intro f held
  rw [Frame.ask]
  split <;> exact held

theorem attempt (hx : Keeps I x) : Keeps I (Frame.attempt x) := by
  intro f held
  have ended := hx f held
  rw [Frame.attempt]
  generalize x f = r at ended
  cases r <;> exact ended

theorem update {change : Frame σ ω → Frame σ ω}
    (kept : ∀ f, I f.session → I (change f).session) : Keeps I (modify change) := kept

/-- A record changes nothing but the log. -/
theorem record (silent : ∀ r s, I s → I (s.record r)) (r : Log.Record) :
    Keeps I (Frame.record r : Action σ ω Unit) :=
  update fun f held ↦ silent r f.session held

end Keeps

theorem ask_eq_ok {question : Session ω → Except Error α} {a : α}
    {f g : Frame σ ω} (asked : ask question f = .ok a g) :
    question f.session = .ok a ∧ g = f := by
  rw [ask] at asked
  split at asked
  · next answered =>
    cases asked
    exact ⟨answered, rfl⟩
  · cases asked

/-- The action leaves the running decoders as they are. -/
def Own (x : Action σ ω α) : Prop := ∀ running, Keeps (·.running = running) x

end Frame

/-! ## Table decoders -/

section Rendering

open Disasm.Frame (Keeps)

variable [Sink σ] {I : Session ω → Prop}

namespace Operand

theorem keeps_renderScalar (k : Scalar) : Keeps I (renderScalar k : Frame.Action σ ω Unit) :=
  (Keeps.read _).bind fun _ ↦ .write _

theorem keeps_renderSymbol (k : Scalar) : Keeps I (renderSymbol k : Frame.Action σ ω Unit) :=
  (Keeps.read _).bind fun _ ↦ (Keeps.ask _).bind fun _ ↦ (Keeps.ask _).bind fun _ ↦
    (Keeps.write _).bind fun _ ↦ .write _

theorem keeps_renderBranch (start : Nat) (k : Scalar) :
    Keeps I (renderBranch start k : Frame.Action σ ω Unit) :=
  (Keeps.read _).bind fun _ ↦ (Keeps.ask _).bind fun _ ↦ .write _

theorem keeps_renderBranches (start count : Nat) :
    Keeps I (renderBranches start count : Frame.Action σ ω Unit) := by
  induction count with
  | zero => exact .pure ()
  | succ count ih =>
    exact (Keeps.write _).bind fun _ ↦ (keeps_renderBranch start .i32).bind fun _ ↦ ih

theorem keeps_renderTable (start : Nat) :
    Keeps I (renderTable start : Frame.Action σ ω Unit) := by
  refine (Keeps.read _).bind fun bits ↦ .check ((Keeps.write _).bind fun _ ↦ ?_)
  cases (Scalar.i32.signed bits).toNat with
  | zero => exact .write _
  | succ count =>
    exact (keeps_renderBranch start .i32).bind fun _ ↦
      (keeps_renderBranches start count).bind fun _ ↦ .write _

theorem keeps_render (start : Nat) (k : Operand) :
    Keeps I (k.render start : Frame.Action σ ω Unit) := by
  cases k with
  | scalar k => exact keeps_renderScalar k
  | sym8 | sym16 | sym32 => exact keeps_renderSymbol _
  | rel8 | rel16 | rel32 => exact keeps_renderBranch start _
  | table32 => exact keeps_renderTable start

theorem keeps_renderRest (start : Nat) (ks : List Operand) :
    Keeps I (renderRest start ks : Frame.Action σ ω Unit) := by
  induction ks with
  | nil => exact .pure ()
  | cons k ks ih =>
    exact (Keeps.write _).bind fun _ ↦ (keeps_render start k).bind fun _ ↦ ih

theorem keeps_renderAll (start : Nat) (ks : List Operand) :
    Keeps I (renderAll start ks : Frame.Action σ ω Unit) := by
  cases ks with
  | nil => exact .pure ()
  | cons k ks =>
    exact (Keeps.write _).bind fun _ ↦ (keeps_render start k).bind fun _ ↦
      keeps_renderRest start ks

end Operand

theorem Instruction.keeps_render (opcode : Opcode) (i : Instruction) :
    Keeps I (i.render opcode : Frame.Action σ ω Unit) := by
  cases i with
  | simple m | unknown bytes => exact (Keeps.write _).bind fun _ ↦ .write _
  | operands m ks =>
    exact Keeps.get.bind fun _ ↦ (Keeps.write _).bind fun _ ↦
      (Operand.keeps_renderAll _ ks).bind fun _ ↦ .write _

namespace Table

variable (silent : ∀ r s, I s → I (s.record r))
include silent

omit [Sink σ] in
theorem keeps_next (t : Table) :
    Keeps I (t.next : Frame.Action σ ω (Option (Index.Lookup Instruction))) :=
  Keeps.get.bind fun _ ↦ (Keeps.read _).bind fun _ ↦ (Keeps.record silent _).bind fun _ ↦
    .pure _

theorem keeps_renderFound (name : String) (found : Index.Lookup Instruction) :
    Keeps I (renderFound name found : Frame.Action σ ω Progress) := by
  have switched (on : Bool) : Keeps I
      (modify fun f ↦ { f with input := f.input.setAutoCommit on } : Frame.Action σ ω Unit) :=
    .update fun _ held ↦ held
  have takenBack : Keeps I (takeBack : Frame.Action σ ω Unit) := .update fun _ held ↦ held
  refine (Keeps.write _).bind fun _ ↦ (switched false).bind fun _ ↦
    (Keeps.write _).bind fun _ ↦ (Instruction.keeps_render _ _).attempt.bind fun r ↦ ?_
  split
  · exact (switched true).bind fun _ ↦ (Keeps.write _).bind fun _ ↦ .pure _
  · exact takenBack.bind fun _ ↦ (Keeps.record silent _).bind fun _ ↦
      (Keeps.write _).bind fun _ ↦ (Keeps.write _).bind fun _ ↦ (Keeps.write _).bind fun _ ↦
        .pure _
  · exact takenBack.bind fun _ ↦ (Keeps.write _).bind fun _ ↦ .throw _

theorem keeps_renderFor (t : Table) (name : String) (count : Nat) :
    Keeps I (t.renderFor name count : Frame.Action σ ω Unit) := by
  induction count with
  | zero => exact .pure ()
  | succ count ih =>
    refine (keeps_next silent t).bind fun found? ↦ ?_
    split
    · exact .pure ()
    · refine (keeps_renderFound silent name _).bind fun progress ↦ ?_
      cases progress with
      | finished => exact .pure ()
      | more => exact ih

theorem keeps_run (t : Table) (name : String) :
    Keeps I (t.run name : Frame.Action σ ω Unit) := fun f ↦
  keeps_renderFor silent t name (Index.reserve f.input + 1) f

end Table

end Rendering

/-! ## The innermost decoder -/

namespace Session

/-- The innermost running decoder as one of some type.  `view` tells which decoders are,
and what they are then. -/
def activeAs {T : Type} (view : Binding → Option T) (type : String) (s : Session ω) :
    Except Error T := do
  let b ← s.active
  match view b with
  | some t => return t
  | none => throw (.decoderType type b.name)

/-- What is known while the loop of `d` runs, if `depth` decoders were running when it was
called. -/
structure Innermost (d : Binding) (depth : Nat) (s : Session ω) : Prop where
  active : s.active = .ok d
  scene : s.scene = ⟨depth + 1, some d⟩
  activeAs {T : Type} (view : Binding → Option T) (type : String) :
    s.activeAs view type = (view d).elim (.error (.decoderType type d.name)) .ok
  activeSymbols : s.activeSymbols = s.activeAs Binding.symbols Binding.tableType

theorem innermost_of_running {s : Session ω} {d : Binding} {outer : List Binding}
    (running : s.running = outer ++ [d]) : s.Innermost d outer.length := by
  have active : s.active = .ok d := by
    rw [Session.active, running, List.getLast?_concat]
  refine ⟨active, ?_, fun view type ↦ ?_, ?_⟩
  · rw [Session.scene, running, List.getLast?_concat, List.length_append]
    rfl
  · rw [Session.activeAs, active]
    cases viewed : view d <;> simp [bind, Except.bind, viewed] <;> rfl
  · rw [Session.activeSymbols, Session.activeAs, active]
    cases known : d.symbols <;> simp [bind, Except.bind, known]

theorem active_of_idle {s : Session ω} (idle : s.running = []) :
    s.active = .error .noActiveDecoder := by
  rw [Session.active, idle]
  rfl

/-- The running decoders are restored by cutting off what came on top of them. -/
theorem running_leave {b : Binding} {s s' : Session ω}
    (entered : s'.running = s.running ++ [b]) :
    (s'.leave s.running.length).running = s.running := by
  rw [leave, entered]
  exact List.take_left

end Session

/-! ## Calls -/

namespace Range

variable (r : Range) (settings : Settings)

/-- What a call does before its loop: it skips to the range. -/
def opening : Frame.Action σ ω Unit := do
  Frame.read (Window.skip r.offset)
  Frame.record ⟨.debug, s!"decoder '{settings.name}' started at offset "
    ++ s!"{Text.Hex.marked 1 r.offset} ({settings.order.name})"⟩

theorem keeps_opening {I : Session ω → Prop} (silent : ∀ r s, I s → I (s.record r)) :
    Frame.Keeps I (r.opening settings : Frame.Action σ ω Unit) :=
  (Frame.Keeps.read _).bind fun _ ↦ .record silent _

variable [Sink σ]

/-- What a call does after its loop. -/
def closing : Frame.Action σ ω Nat := do
  Frame.write (Output.setAutoCommit true)
  let decoded := (← get).input.position - r.offset
  Frame.record ⟨.debug, s!"decoder '{settings.name}' finished, {decoded} bytes"⟩
  return decoded

theorem keeps_closing {I : Session ω → Prop} (silent : ∀ r s, I s → I (s.record r)) :
    Frame.Keeps I (r.closing settings : Frame.Action σ ω Nat) :=
  (Frame.Keeps.write _).bind fun _ ↦ Frame.Keeps.get.bind fun _ ↦
    (Frame.Keeps.record silent _).bind fun _ ↦ .pure _

theorem steps_eq (loop : Frame.Action σ ω Unit) :
    r.steps settings loop = r.opening settings >>= fun _ ↦ loop >>= fun _ ↦ r.closing settings := by
  rw [opening, bind_assoc]
  rfl

/-- What the loop keeps of its session holds up to the end of the call, however that ends. -/
theorem exists_leave_decode {I : Session ω → Prop} (silent : ∀ r s, I s → I (s.record r))
    (b : Binding) {loop : Frame.Action σ ω Unit} (keeps : Frame.Keeps I loop) (source : Source)
    (sink : σ) (session : Session ω) (entered : I (session.enter b)) :
    ∃ s, I s ∧ (r.decode settings b loop source sink session).2.session =
      s.leave session.running.length := by
  have steps : Frame.Keeps I (r.steps settings loop) := by
    rw [steps_eq]
    exact (keeps_opening r settings silent).bind fun _ ↦ keeps.bind fun _ ↦
      keeps_closing r settings silent
  have ended := steps (r.frame settings b source sink session) entered
  rw [decode]
  generalize r.steps settings loop _ = ran at ended
  cases ran <;> exact ⟨_, ended, rfl⟩

/-- Afterwards those decoders are running that were before, however the call ends. -/
theorem running_decode (b : Binding) {loop : Frame.Action σ ω Unit} (own : Frame.Own loop)
    (source : Source) (sink : σ) (session : Session ω) :
    (r.decode settings b loop source sink session).2.session.running = session.running := by
  obtain ⟨s, entered, eq⟩ := r.exists_leave_decode settings (fun _ _ held ↦ held) b
    (own (session.running ++ [b])) source sink session rfl
  rw [eq]
  exact Session.running_leave entered

end Range

/-- A call of a decoder: what it decodes and where it prints, and what is known of the
decoder. -/
structure Invocation (σ : Type) where
  range : Range := {}
  settings : Settings
  /-- The symbols of a table decoder. -/
  symbols : Option Symbols := none
  source : Source
  sink : σ

namespace Invocation

/-- How the decoder appears while it runs. -/
def binding (c : Invocation σ) : Binding := ⟨c.settings.name, c.symbols⟩

/-- The call, of a decoder with the given loop. -/
def decode [Sink σ] (c : Invocation σ) (loop : Frame.Action σ ω Unit) (session : Session ω) :
    Except Error Nat × Frame σ ω :=
  c.range.decode c.settings c.binding loop c.source c.sink session

/-- The call reaches its loop, in the frame `f`. -/
def Opens (c : Invocation σ) (session : Session ω) (f : Frame σ ω) : Prop :=
  c.range.opening c.settings (c.range.frame c.settings c.binding c.source c.sink session) =
    .ok () f

theorem Opens.running_eq {c : Invocation σ} {session : Session ω} {f : Frame σ ω}
    (opens : c.Opens session f) : f.session.running = session.running ++ [c.binding] := by
  have own : Frame.Own (c.range.opening c.settings : Frame.Action σ ω Unit) := fun _ ↦
    c.range.keeps_opening c.settings fun _ _ held ↦ held
  have kept := own _ (c.range.frame c.settings c.binding c.source c.sink session) rfl
  rw [Opens] at opens
  rwa [opens] at kept

/-- A call from the beginning of its source reaches its loop. -/
theorem exists_opens (c : Invocation σ) (start : c.range.offset = 0) (session : Session ω) :
    ∃ f, c.Opens session f :=
  ⟨_, by rw [Opens, Range.opening, start]; rfl⟩

end Invocation

/-! ## Loops -/

/-- The loop of a decoder, or other work that calls decoders.  What comes next may depend
on all that is known by then, and failures may be caught. -/
inductive Loop (ω : Type) : Type → Type → Type 1
  | done {σ α : Type} (result : Except Error α) : Loop ω σ α
  /-- Work that calls no decoder: the frame gives no other way to the running ones. -/
  | work {σ α β : Type} (step : Frame.Action σ ω β) (own : Frame.Own step)
      (next : Except Error β → Loop ω σ α) : Loop ω σ α
  /-- A call of a decoder with the loop `body`, and what is left of its frame. -/
  | call {σ σ' α : Type} [Sink σ'] (c : Invocation σ') (body : Loop ω σ' Unit)
      (next : Except Error Nat × Frame σ' ω → Loop ω σ α) : Loop ω σ α

namespace Loop

/-- Runs a loop.  A call shares the session. -/
def run {σ α : Type} : Loop ω σ α → Frame.Action σ ω α
  | done (.ok a), f => .ok a f
  | done (.error e), f => .error e f
  | work step _ next, f => (Frame.attempt step >>= fun r ↦ (next r).run) f
  | call c body next, f =>
    let r := c.decode body.run f.session
    (next r).run { f with session := r.2.session }

/-- On the way of a loop that begins in a frame a session is met, inside of calls of the
given decoders. -/
inductive Meets : {σ α : Type} → Loop ω σ α → Frame σ ω → List Binding → Session ω → Prop
  | here {σ α : Type} {loop : Loop ω σ α} {f : Frame σ ω} : Meets loop f [] f.session
  | worked {σ α β : Type} {step : Frame.Action σ ω β} {own : Frame.Own step}
      {next : Except Error β → Loop ω σ α} {f g : Frame σ ω} {r : Except Error β}
      {inside : List Binding} {s : Session ω} (ran : Frame.attempt step f = .ok r g)
      (later : Meets (next r) g inside s) : Meets (work step own next) f inside s
  | within {σ σ' α : Type} [Sink σ'] {c : Invocation σ'} {body : Loop ω σ' Unit}
      {next : Except Error Nat × Frame σ' ω → Loop ω σ α} {f : Frame σ ω} {g : Frame σ' ω}
      {inside : List Binding} {s : Session ω} (opens : c.Opens f.session g)
      (deeper : Meets body g inside s) : Meets (call c body next) f (c.binding :: inside) s
  | returned {σ σ' α : Type} [Sink σ'] {c : Invocation σ'} {body : Loop ω σ' Unit}
      {next : Except Error Nat × Frame σ' ω → Loop ω σ α} {f : Frame σ ω}
      {r : Except Error Nat × Frame σ' ω} {inside : List Binding} {s : Session ω}
      (ended : c.decode body.run f.session = r)
      (later : Meets (next r) { f with session := r.2.session } inside s) :
      Meets (call c body next) f inside s

theorem own_run {σ α : Type} (loop : Loop ω σ α) : Frame.Own loop.run := by
  induction loop with
  | done result =>
    intro running f held
    cases result <;> exact held
  | work step own next ih =>
    exact fun running ↦ (own running).attempt.bind fun r ↦ ih r running
  | call c body next body_ih ih =>
    intro running f held
    refine ih _ running _ ?_
    exact (Range.running_decode _ _ _ body_ih _ _ _).trans held

/-- Those decoders are running that were when the loop began, and on top of them those
whose calls the loop is inside of. -/
theorem Meets.running_eq {σ α : Type} {loop : Loop ω σ α} {f : Frame σ ω}
    {inside : List Binding} {s : Session ω} (meets : loop.Meets f inside s) :
    s.running = f.session.running ++ inside := by
  induction meets with
  | here => exact (List.append_nil _).symm
  | @worked σ α β step own next f g r inside s ran later ih =>
    have kept := (own f.session.running).attempt f rfl
    rw [ran] at kept
    rw [ih]
    exact congrArg (· ++ inside) kept
  | within opens deeper ih =>
    rw [ih, opens.running_eq, List.append_assoc, List.singleton_append]
  | @returned σ σ' α sink c body next f r inside s ended later ih =>
    rw [ih, ← ended]
    exact congrArg (· ++ inside) (Range.running_decode _ _ _ body.own_run _ _ _)

end Loop

end Disasm
