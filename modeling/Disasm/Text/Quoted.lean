import Disasm.Text.Hex
import Disasm.Text.Unprinted

/-!
# Quoted text

A text between quotation marks.  Marks, backslashes and characters that do not
print are escaped.
-/

namespace Disasm.Text

/-- A character between quotation marks. -/
def quotedChar (c : Char) : String :=
  if c = '"' then "\\\""
  else if c = '\\' then "\\\\"
  else if c = '\n' then "\\n"
  else if c = '\r' then "\\r"
  else if c = '\t' then "\\t"
  else if c.toNat = 0 then "\\0"
  else if isUnprinted c then "\\u\x7b" ++ String.ofList (Hex.digits 1 c.toNat) ++ "\x7d"
  else String.ofList [c]

/-- A text between quotation marks. -/
def quoted (s : String) : String :=
  "\"" ++ String.join (s.toList.map quotedChar) ++ "\""

end Disasm.Text
