import Disasm.Error
import Disasm.Output.Kind

/-!
# Sinks

A sink takes output operations one by one: pieces of text, line ends and
changes of the indentation.  The first two may fail.
-/

namespace Disasm

/-- An output operation. -/
inductive Operation
  | print (kind : OutputKind) (text : String)
  | newline
  | indent
  | unindent
deriving DecidableEq

/-- A type of sinks. -/
class Sink (σ : Type) where
  /-- Carries out an operation.  The sink survives a failure. -/
  apply : Operation → EStateM Error σ Unit

/-- Carries out operations in order, up to the first that fails. -/
def Sink.applyAll {σ : Type} [Sink σ] : List Operation → EStateM Error σ Unit
  | [] => pure ()
  | op :: ops => do
    Sink.apply op
    applyAll ops

end Disasm
