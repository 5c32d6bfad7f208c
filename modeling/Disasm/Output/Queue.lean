import Disasm.Output.Sink

/-!
# Deferred output

An output stands before a sink.  With automatic commits each operation goes to
the sink at once; otherwise operations wait in a queue until they are committed
or discarded.
-/

namespace Disasm

/-- A sink with a queue before it. -/
structure Output (σ : Type) where
  /-- Where operations go in the end. -/
  sink : σ
  /-- Whether operations go there at once. -/
  autoCommit : Bool := true
  /-- The operations that wait, oldest first. -/
  queue : List Operation := []
deriving DecidableEq

namespace Output

variable {σ : Type} [Sink σ]

/-- Work on an output.  The output survives a failure. -/
abbrev Action (σ : Type) := EStateM Error (Output σ)

/-- Sends operations to the sink, up to the first that fails. -/
def send (ops : List Operation) : Action σ Unit := fun o ↦
  match Sink.applyAll ops o.sink with
  | .ok _ sink => .ok () { o with sink }
  | .error e sink => .error e { o with sink }

/-- Sends the queue to the sink.  What stands behind an operation that fails is
lost. -/
def commit : Action σ Unit := fun o ↦ send o.queue { o with queue := [] }

/-- Drops the queue. -/
def discard (o : Output σ) : Output σ := { o with queue := [] }

/-- Switches automatic commits.  Switching them on commits first, and stays
undone if that fails. -/
def setAutoCommit (on : Bool) : Action σ Unit := do
  if on ∧ !(← get).autoCommit then commit
  modify ({ · with autoCommit := on })

/-- Carries out an operation, now or later. -/
def push (op : Operation) : Action σ Unit := fun o ↦
  if o.autoCommit then send [op] o
  else .ok () { o with queue := o.queue ++ [op] }

/-- Prints a piece of text. -/
def print (kind : OutputKind) (text : String) : Action σ Unit := push (.print kind text)

/-- Prints a piece of text and ends the line. -/
def println (kind : OutputKind) (text : String) : Action σ Unit := do
  print kind text
  push .newline

/-- The output's state as text. -/
def describe (o : Output σ) : String :=
  s!"EncodeBuffer \x7b auto_commit: {o.autoCommit}, pending: {o.queue.length} \x7d"

/-! ## Steps -/

/-- A step of a program on an output. -/
inductive Step
  | operation (op : Operation)
  | println (kind : OutputKind) (text : String)
  | autoCommit (on : Bool)
  | commit
  | discard
  /-- The operations that wait. -/
  | queue
  /-- The sink as it is now. -/
  | snapshot
  | describe
deriving DecidableEq

/-- What a step answers. -/
inductive Answer (σ : Type)
  | unit
  | operations (ops : List Operation)
  | sink (s : σ)
  | text (s : String)
deriving DecidableEq

/-- What a step does. -/
def Step.perform : Step → Action σ (Answer σ)
  | operation op => do push op; return .unit
  | println kind text => do Output.println kind text; return .unit
  | autoCommit on => do setAutoCommit on; return .unit
  | commit => do Output.commit; return .unit
  | discard => do modify Output.discard; return .unit
  | queue => return .operations (← get).queue
  | snapshot => return .sink (← get).sink
  | describe => return .text (← get).describe

/-- The record of a step: its outcome and the output after it. -/
structure Record (σ : Type) where
  outcome : Except Error (Answer σ)
  after : Output σ

/-- Runs steps in order, going on after failures. -/
def run : List Step → Output σ → List (Record σ) × Output σ
  | [], o => ([], o)
  | s :: steps, o =>
    match s.perform o with
    | .ok a o' =>
      let (records, last) := run steps o'
      (⟨.ok a, o'⟩ :: records, last)
    | .error e o' =>
      let (records, last) := run steps o'
      (⟨.error e, o'⟩ :: records, last)

end Output

end Disasm
