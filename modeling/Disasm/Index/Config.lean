import Disasm.Bytes.Order

/-!
# Configuration of an index
-/

namespace Disasm.Index

/-- How an index is opened and searched. -/
structure Config where
  /-- The most bytes of an unknown run; zero counts as one. -/
  unknownChunk : Nat := 16
  /-- Whether the table must be in order. -/
  verifyOrder : Bool := true
  /-- Whether the longest opcode is looked for, and not only one byte. -/
  eager : Bool := true
deriving DecidableEq

namespace Config

/-- A table in any order is accepted. -/
def lenient : Config := { verifyOrder := false }

/-- The most bytes of an unknown run. -/
def chunkSize (c : Config) : Nat := max c.unknownChunk 1

/-- The configuration as text. -/
def describe (c : Config) : String :=
  s!"IndexConfig \x7b unknown_chunk_size: {c.unknownChunk}, "
    ++ s!"verify_order: {c.verifyOrder}, eager: {c.eager} \x7d"

end Config

end Disasm.Index
