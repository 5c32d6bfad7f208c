import Disasm.Script.Basic

/-!
# Decoders and the world they share

Decoders are known by name to each other's scripts, and their settings can
change while they run.
-/

namespace Disasm

/-- What a decoder does. -/
inductive Decoder.Body
  | table (table : Table)
  | script (items : List Script.Item)

/-- A decoder. -/
structure Decoder where
  settings : Settings
  body : Decoder.Body

/-- How a decoder appears while it runs. -/
def Decoder.binding (d : Decoder) : Binding where
  name := d.settings.name
  symbols := match d.body with
    | .table t => some t.symbols
    | .script _ => none

namespace Script

/-- All decoders, and the records of the script that is running. -/
structure World where
  decoders : List (String × Decoder) := []
  /-- The records so far, once a script has begun. -/
  trace : Option (List (Window.Record Report)) := none

namespace World

/-- The decoder of a name. -/
def decoder? (world : World) (name : String) : Option Decoder :=
  world.decoders.lookup name

/-- Changes the settings of a decoder. -/
def configure (world : World) (name : String) (change : Settings → Settings) : World :=
  { world with
    decoders := world.decoders.map fun (n, d) ↦
      if n = name then (n, { d with settings := change d.settings }) else (n, d) }

/-- Adds records to those of the running script. -/
def note (world : World) (records : List (Window.Record Report)) : World :=
  { world with trace := world.trace.map (· ++ records) }

end World

/-- The settings with a byte order and a default limit put in, where given. -/
def adjust (order : Option ByteOrder) (limit : Option (Option Nat)) (s : Settings) :
    Settings :=
  { s with order := order.getD s.order, limit := limit.getD s.limit }

/-- Changes the settings of a decoder in a session. -/
def configure (name : String) (order : Option ByteOrder) (limit : Option (Option Nat))
    (s : Session World) : Session World :=
  { s with world := s.world.configure name (adjust order limit) }

end Script

end Disasm
