/-!
Digits of base sixteen and the characters that they name.
-/

set_option autoImplicit false
set_option relaxedAutoImplicit false

namespace OperatorScript.Text

def hexValue? (c : Char) : Option Nat :=
  if c.isDigit then some (c.toNat - '0'.toNat)
  else if 'a' ≤ c ∧ c ≤ 'f' then some (c.toNat - 'a'.toNat + 10)
  else if 'A' ≤ c ∧ c ≤ 'F' then some (c.toNat - 'A'.toNat + 10)
  else none

def charOfHex? (digits : List Char) : Option Char := do
  let values ← digits.mapM hexValue?
  let n := values.foldl (fun n d => 16 * n + d) 0
  if n < 0xd800 ∨ (0xdfff < n ∧ n < 0x110000) then some (Char.ofNat n) else none

example : charOfHex? ['4', '1'] = some 'A' ∧ charOfHex? ['D', '8', '0', '0'] = none := by decide

end OperatorScript.Text
