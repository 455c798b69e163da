import OperatorScript.Text.Unshown

/-!
Text between double quotes with escapes, as it is shown in error messages.
-/

set_option autoImplicit false
set_option relaxedAutoImplicit false

namespace OperatorScript.Text

/-- A character between double quotes. One that is not shown as it is stands as its code point in
base sixteen. -/
def escapeShown (c : Char) : List Char :=
  if c = '"' then ['\\', '"']
  else if c = '\\' then ['\\', '\\']
  else if c = '\n' then ['\\', 'n']
  else if c = '\r' then ['\\', 'r']
  else if c = '\t' then ['\\', 't']
  else if c = '\x00' then ['\\', '0']
  else if isUnshown c then ['\\', 'u', '\x7b'] ++ Nat.toDigits 16 c.toNat ++ ['\x7d']
  else [c]

def escaped (s : String) : String :=
  String.ofList ('"' :: s.toList.flatMap escapeShown ++ ['"'])

end OperatorScript.Text
