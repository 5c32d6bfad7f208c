import Disasm.Index.Lookup
import Disasm.Window.Program

/-!
# Programs with lookups

The steps that an index adds to the programs of a window.
-/

namespace Disasm.Index

/-- A question to an index. -/
inductive Query
  /-- What stands at the front of the window. -/
  | lookup (eager : Option Bool)
  /-- All that follows in the window. -/
  | scan (eager : Option Bool)
  /-- Whether the table has the opcode of the given bytes. -/
  | contains (bytes : Bytes)
  /-- The descriptor of the opcode of the given bytes. -/
  | descriptor (bytes : Bytes)
  /-- The descriptor of unknown bytes. -/
  | unknown (bytes : Bytes)
deriving DecidableEq

/-- The answer to a question. -/
inductive Report (δ : Type)
  /-- No answer, for a failure. -/
  | none
  | lookup (found : Option (Lookup δ))
  | scan (found : List (Lookup δ))
  | contains (yes : Bool)
  | descriptor (d : Option δ)

variable {δ : Type}

/-- Answers a question at a window, beside which the log is kept. -/
def perform (ix : Index δ) : Window.Performer Query (Report δ) Log
  | .lookup eager, w, log =>
    let result := ix.lookup (eager.getD ix.config.eager) w
    let log := log ++ lookupLog w.totalRead result
    match result with
    | .ok found w' => ({ report := .lookup found }, w', log)
    | .error e w' => ({ failure := some e, report := .none }, w', log)
  | .scan eager, w, log =>
    let s := ix.scan (eager.getD ix.config.eager) w
    ({ failure := s.failure, report := .scan s.found }, s.window, log ++ s.log)
  | .contains bytes, w, log =>
    match Opcode.ofBytes bytes with
    | .ok opcode => ({ report := .contains (ix.contains opcode) }, w, log)
    | .error e => ({ failure := some e, report := .none }, w, log)
  | .descriptor bytes, w, log =>
    match Opcode.ofBytes bytes >>= ix.descriptor with
    | .ok d => ({ report := .descriptor d }, w, log)
    | .error e => ({ failure := some e, report := .none }, w, log)
  | .unknown bytes, w, log =>
    ({ report := .descriptor (some (ix.factory.unknown bytes)) }, w, log)

end Disasm.Index
