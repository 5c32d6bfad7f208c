import Disasm.Decoder.Frame
import Disasm.Output.TextSink
import Disasm.Output.Transcript

/-!
# Devices

A device is a transcript or a text, so that calls of different decoders can
write to either.  It may also remember which decoder was running at each line
end: a device belongs to one call, and while that call prints its decoder is
the innermost.
-/

namespace Disasm

/-- Which decoders are running: how many, and the innermost. -/
structure Scene where
  depth : Nat := 0
  active : Option Binding := none
deriving DecidableEq

/-- The scene of a session. -/
def Session.scene {ω : Type} (s : Session ω) : Scene :=
  ⟨s.running.length, s.running.getLast?⟩

/-- Where a device writes. -/
inductive Medium
  | transcript (t : Transcript)
  | text (s : TextSink)
deriving DecidableEq

/-- A medium that may watch the scene. -/
structure Device where
  medium : Medium
  /-- The scene in which the device prints. -/
  scene : Scene := {}
  /-- The scenes at the line ends so far, if they are to be remembered. -/
  watched : Option (List Scene) := none
deriving DecidableEq

namespace Medium

/-- What an operation does to a medium. -/
def perform (op : Operation) : EStateM Error Medium Unit
  | transcript t => .ok () (transcript (t.perform op))
  | text s =>
    match TextSink.perform op s with
    | .ok _ s' => .ok () (text s')
    | .error e s' => .error e (text s')

end Medium

namespace Device

/-- The device with the scene of a line end remembered, if it watches. -/
def watch (d : Device) : Device :=
  { d with watched := d.watched.map (· ++ [d.scene]) }

/-- What an operation does to a device. -/
def perform (op : Operation) : EStateM Error Device Unit := fun d ↦
  let d' := if op = .newline then d.watch else d
  match Medium.perform op d'.medium with
  | .ok _ medium => .ok () { d' with medium }
  | .error e medium => .error e { d' with medium }

instance : Sink Device where
  apply := perform

/-- The failure to hand on what was written, if there is one. -/
def flushFailure (d : Device) : Option Error :=
  match d.medium with
  | .transcript _ => none
  | .text s =>
    match Writer.flush s.writer with
    | .ok .. => none
    | .error e _ => some e

end Device

end Disasm
