/-!
# Kinds of output

Every piece of output is classified, so that a text can leave kinds out.
-/

namespace Disasm

/-- What a piece of output is. -/
inductive OutputKind
  | plain | value | comment | keyword | operator | label | error
deriving DecidableEq

namespace OutputKind

/-- All kinds. -/
def all : List OutputKind :=
  [plain, value, comment, keyword, operator, label, error]

/-- The name of a kind. -/
def name : OutputKind → String
  | plain => "plain"
  | value => "value"
  | comment => "comment"
  | keyword => "keyword"
  | operator => "operator"
  | label => "label"
  | error => "error"

/-- The kind with the given name. -/
def ofName? (s : String) : Option OutputKind := all.find? (·.name = s)

/-- The bit that stands for a kind. -/
def bit : OutputKind → UInt8
  | plain => 0x01
  | value => 0x02
  | comment => 0x04
  | keyword => 0x08
  | operator => 0x10
  | label => 0x20
  | error => 0x40

end OutputKind

/-- A set of kinds. -/
structure Channels where
  /-- The bits of the kinds in the set. -/
  bits : UInt8
deriving DecidableEq

namespace Channels

/-- All kinds. -/
def all : Channels := ⟨0x7F⟩

/-- The set of the given bits; bits of no kind are dropped. -/
def ofBits (bits : UInt8) : Channels := ⟨bits &&& 0x7F⟩

/-- Whether a kind is in the set. -/
def accepts (c : Channels) (kind : OutputKind) : Bool := c.bits &&& kind.bit = kind.bit

/-- The set of the kinds in a list. -/
def ofKinds (kinds : List OutputKind) : Channels :=
  ⟨kinds.foldl (fun bits kind ↦ bits ||| kind.bit) 0⟩

end Channels

end Disasm
