import Disasm.Bytes.Order
import Disasm.Text.Quoted

/-!
# Settings of decoders
-/

namespace Disasm

/-- What every decoder has: a name, a byte order and a limit for calls that give
none. -/
structure Settings where
  name : String
  order : ByteOrder := .little
  limit : Option Nat := none
deriving DecidableEq

/-- The settings as text. -/
def Settings.describe (s : Settings) : String :=
  let limit := match s.limit with
    | none => "None"
    | some n => s!"Some({n})"
  let name := Text.quoted s.name
  s!"DecoderSettings \x7b name: {name}, "
    ++ s!"byte_order: Cell \x7b value: {s.order.name} \x7d, "
    ++ s!"default_limit: Cell \x7b value: {limit} \x7d \x7d"

end Disasm
