import Disasm.Script.World

/-!
# Running scripts

A script runs its items in order.  A call enters the called decoder, runs it in
a frame of its own, and comes back to the same running decoders.  Calls nest to
a bounded depth, and a loop is repeated a bounded number of times.
-/

namespace Disasm.Script

/-- Work of a script on its frame. -/
abbrev Work := Frame.Action Device World

/-- How a call ends. -/
structure Return where
  outcome : Except Error Nat
  /-- Nothing is left behind if the call could not begin. -/
  report : Option CallReport
  session : Session World

/-- How calls are carried out. -/
abbrev Caller := Call → Source → Session World → Return

/-- The failure to find a decoder by its name. -/
def noDecoder (name : String) : Error := .other s!"no decoder {name}"

/-- The settings of the decoder called `self`. -/
def settingsOf (self : String) : Work Settings := do
  match (← get).session.world.decoder? self with
  | some d => return d.settings
  | none => throw (noDecoder self)

/-- What a step does on the frame of the script called `self`. -/
def Act.perform (self : String) : Act → Work Answer
  | .output step => return .output (← Frame.write step.perform)
  | .scene => return .scene (← get).session.scene
  | .activeTable => do
    let _ ← Frame.ask Session.activeSymbols
    return .name (← Frame.ask Session.active).name
  | .activeScript => return .name (← Frame.ask Session.active).name
  | .settings order limit => do
    modify fun f ↦ { f with session := configure self order limit f.session }
    return .settings (← settingsOf self)
  | .operand kind start => do kind.render start; return .unit
  | .instruction text spec => do
    let opcode ← Frame.ask fun _ ↦ Opcode.parse text
    let i ← Frame.ask fun _ ↦ spec.read
    i.render opcode
    return .unit

/-- A call with the source it decodes. -/
def performCall (caller : Caller) (call : Call) (source : Source) (w : Window)
    (output : Output Device) (session : Session World) :
    Window.Answer Report × Window × Output Device × Session World :=
  let r := caller call source session
  let answer : Window.Answer Report :=
    match r.outcome with
    | .ok n => { report := .mk (some (.decoded n)) output r.report }
    | .error e => { failure := some e, report := .mk none output r.report }
  (answer, w, output, r.session)

/-- What a step does that is not the window's. -/
def perform (caller : Caller) (self : String) :
    Window.Performer Step Report (Output Device × Session World)
  | .call call, w, (output, session) =>
    match call.input with
    | .source source => performCall caller call source w output session
    | .take count =>
      match Window.bytes count w with
      | .ok data w' => performCall caller call { data } w' output session
      | .error e w' =>
        ({ failure := some e, report := .mk none output none }, w', output, session)
  | .act act, w, (output, session) =>
    match act.perform self ⟨w, output, session⟩ with
    | .ok a f =>
      ({ report := .mk (some a) f.output none }, f.input, f.output, f.session)
    | .error e f =>
      ({ failure := some e, report := .mk none f.output none },
        f.input, f.output, f.session)

/-- Runs steps up to the first that fails and keeps their records. -/
def group (caller : Caller) (self : String) (body : Window.Program Step) : Work Unit :=
  fun f ↦
    let t := body.run (perform caller self) true f.input (f.output, f.session)
    let (output, session) := t.state
    let f' : Frame Device World :=
      ⟨t.window, output, { session with world := session.world.note t.records }⟩
    match t.failure with
    | none => .ok () f'
    | some e => .error e f'

/-- Repeats work as long as bytes follow, at most `count` times. -/
def repeated (body : Work Unit) : (count : Nat) → Work Unit
  | 0 => pure ()
  | count + 1 => do
    if ← Frame.read Window.hasRemaining then
      body
      repeated body count

/-- How often a loop is repeated at most. -/
def maxRepeats : Nat := 1000000

/-- Work whose failure may be caught. -/
def guarded (catches : Bool) (body : Work Unit) : Work Unit :=
  if catches then do let _ ← Frame.attempt body else body

/-- Runs a part of a script. -/
def Item.run (caller : Caller) (self : String) : Item → Work Unit
  | attempt body catches => guarded catches (group caller self body)
  | whileRemaining body catches =>
    guarded catches (repeated (group caller self body) maxRepeats)

/-- Runs the parts of a script in order, up to the first that fails. -/
def runItems (caller : Caller) (self : String) : List Item → Work Unit
  | [] => pure ()
  | item :: rest => do
    item.run caller self
    runItems caller self rest

/-- Begins the records of a script and runs it. -/
def run (caller : Caller) (self : String) (items : List Item) : Work Unit := do
  modify fun f ↦ { f with
    session := { f.session with world := { f.session.world with trace := some [] } } }
  runItems caller self items

/-- The loop of a decoder. -/
def loop (caller : Caller) (self : String) (d : Decoder) : Work Unit :=
  match d.body with
  | .table t => t.run d.settings.name
  | .script items => run caller self items

/-- Calls a decoder that exists. -/
def enterCall (caller : Caller) (call : Call) (d : Decoder) (source : Source)
    (session : Session World) : Return :=
  let scene := (session.enter d.binding).scene
  let inner := { session with world := { session.world with trace := none } }
  let (outcome, f) := call.range.decode d.settings d.binding (loop caller call.decoder d)
    source { call.sink with scene } inner
  let after := f.session
  { outcome
    report := some (.mk f.input.source.delivered f.output.sink after.scene after.world.trace)
    session := { after with world := { after.world with trace := session.world.trace } } }

/-- Calls a decoder, with at most `depth` calls inside each other. -/
def callWithin : (depth : Nat) → Caller
  | 0, _, _, session => ⟨.error (.other "calls nest too deep"), none, session⟩
  | depth + 1, call, source, session =>
    let session := configure call.decoder call.order call.limit session
    match session.world.decoder? call.decoder with
    | none => ⟨.error (noDecoder call.decoder), none, session⟩
    | some d => enterCall (callWithin depth) call d source session

/-- How deep calls nest at most. -/
def maxDepth : Nat := 1000

/-- Calls a decoder. -/
def callDecoder : Caller := callWithin maxDepth

end Disasm.Script
