import Disasm.Decoder.Frame

/-!
# Decoding a range

A decoder is run on a source from an offset on, up to a limit counted from
there.  While it runs it is the innermost running decoder.
-/

namespace Disasm

open Text.Hex (marked)

variable {σ ω : Type} [Sink σ]

/-- The range of a source that is decoded. -/
structure Range where
  /-- The bytes before it. -/
  offset : Nat := 0
  /-- Its length, if the settings are not to decide. -/
  limit : Option Nat := none
deriving DecidableEq

namespace Range

/-- How many bytes of the source may be read. -/
def bound (r : Range) (settings : Settings) : Option Nat :=
  (r.limit.or settings.limit).map (saturatingAdd r.offset)

/-- The frame in which a decoder begins. -/
def frame (r : Range) (settings : Settings) (binding : Binding) (source : Source)
    (sink : σ) (session : Session ω) : Frame σ ω where
  input := { source, order := settings.order, limit := r.bound settings }
  output := { sink }
  session := session.enter binding

/-- Skips to the range, runs a decoder's loop and answers how many bytes it
decoded. -/
def steps (r : Range) (settings : Settings) (loop : Frame.Action σ ω Unit) :
    Frame.Action σ ω Nat := do
  Frame.read (Window.skip r.offset)
  Frame.record ⟨.debug, s!"decoder '{settings.name}' started at offset "
    ++ s!"{marked 1 r.offset} ({settings.order.name})"⟩
  loop
  Frame.write (Output.setAutoCommit true)
  let decoded := (← get).input.position - r.offset
  Frame.record ⟨.debug, s!"decoder '{settings.name}' finished, {decoded} bytes"⟩
  return decoded

/-- Runs a decoder's loop on a range of a source.  Afterwards those decoders are
running that were before. -/
def decode (r : Range) (settings : Settings) (binding : Binding)
    (loop : Frame.Action σ ω Unit) (source : Source) (sink : σ) (session : Session ω) :
    Except Error Nat × Frame σ ω :=
  let finish (f : Frame σ ω) : Frame σ ω :=
    { f with session := f.session.leave session.running.length }
  match r.steps settings loop (r.frame settings binding source sink session) with
  | .ok n f => (.ok n, finish f)
  | .error e f => (.error e, finish f)

end Range

end Disasm
