/-!
# Log records

What happens along the way is told in records of three levels.
-/

namespace Disasm.Log

/-- How much a record matters. -/
inductive Level
  | trace | debug | warn
deriving DecidableEq

/-- A log record. -/
structure Record where
  level : Level
  message : String
deriving DecidableEq

end Disasm.Log

namespace Disasm

/-- Log records, oldest first. -/
abbrev Log := List Log.Record

end Disasm
