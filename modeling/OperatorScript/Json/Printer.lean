import OperatorScript.Json.Value
import OperatorScript.Number.Shortest
import OperatorScript.Text.Blank

/-!
JSON text of a value, on one line or laid out over several.

Integers are written exactly. A floating-point number is written with the fewest digits that read
back, a tie going to the even digit; exponents from -5 to 15 are positional with at least one digit
after the point, all others scientific with the sign of the exponent. Strings escape the quote, the
backslash and the characters below the blank, and hold every other character as it is.
-/

set_option autoImplicit false
set_option relaxedAutoImplicit false

namespace OperatorScript.Json

def decimalText (d : Decimal) : String :=
  if -5 ≤ d.exponent ∧ d.exponent < 16 then d.positional 1 else d.scientific

/-- The text of a floating-point number; `null` if it is not finite. -/
def realText : Binary64 → String
  | .finite negative m e _ =>
    (if negative then "-" else "") ++
      (if m = 0 then "0.0" else decimalText (Binary64.shortest .even m e))
  | _ => "null"

def Number.text : Number → String
  | .integer value _ => toString value
  | .real value _ => realText value

def hexDigit (n : Nat) : Char := Nat.digitChar n

def escapeChar (c : Char) : List Char :=
  if c = '"' then ['\\', '"']
  else if c = '\\' then ['\\', '\\']
  else if c = '\x08' then ['\\', 'b']
  else if c = '\x0c' then ['\\', 'f']
  else if c = '\n' then ['\\', 'n']
  else if c = '\r' then ['\\', 'r']
  else if c = '\t' then ['\\', 't']
  else if c.toNat < 0x20 then
    ['\\', 'u', '0', '0', hexDigit (c.toNat / 16), hexDigit (c.toNat % 16)]
  else [c]

def quoted (s : String) : String :=
  String.ofList ('"' :: s.toList.flatMap escapeChar ++ ['"'])

mutual

def Value.compact : Value → String
  | .null => "null"
  | .bool b => toString b
  | .num n => n.text
  | .str s => quoted s
  | .arr items => "[" ++ Text.join "," (compactItems items) ++ "]"
  | .obj members => "\x7b" ++ Text.join "," (compactMembers members) ++ "\x7d"

def Value.compactItems : List Value → List String
  | [] => []
  | v :: rest => v.compact :: compactItems rest

def Value.compactMembers : List (String × Value) → List String
  | [] => []
  | (k, v) :: rest => (quoted k ++ ":" ++ v.compact) :: compactMembers rest

end

def indent (level : Nat) : String := String.ofList (List.replicate (2 * level) ' ')

def block (left right : String) (level : Nat) (parts : List String) : String :=
  if parts.isEmpty then left ++ right
  else
    left ++ "\n" ++ Text.join ",\n" (parts.map fun p => indent (level + 1) ++ p) ++ "\n" ++
      indent level ++ right

mutual

def Value.prettyAt (level : Nat) : Value → String
  | .null => "null"
  | .bool b => toString b
  | .num n => n.text
  | .str s => quoted s
  | .arr items => block "[" "]" level (prettyItems (level + 1) items)
  | .obj members => block "\x7b" "\x7d" level (prettyMembers (level + 1) members)

def Value.prettyItems (level : Nat) : List Value → List String
  | [] => []
  | v :: rest => v.prettyAt level :: prettyItems level rest

def Value.prettyMembers (level : Nat) : List (String × Value) → List String
  | [] => []
  | (k, v) :: rest => (quoted k ++ ": " ++ v.prettyAt level) :: prettyMembers level rest

end

def Value.pretty (v : Value) : String := v.prettyAt 0

end OperatorScript.Json
