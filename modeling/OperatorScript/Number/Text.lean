import OperatorScript.Number.Arithmetic
import OperatorScript.Number.Shortest

/-!
The text of a number in output meant for people.

Both zeros are `0`. Magnitudes from `1e21` up and below `1e-6` are scientific with the fewest
digits; between them integral numbers are written exactly and all others positionally with the
fewest digits. A tie between two equally short decimals goes up.
-/

set_option autoImplicit false
set_option relaxedAutoImplicit false

namespace OperatorScript.Binary64

def magnitude : Binary64 → Nat
  | .finite _ m e _ => m * Nat.pow 2 e
  | _ => 0

def scientificFrom : Nat := Nat.pow 10 21 * one

def positionalFrom : Nat := (ofDecimal false 1 (-6)).magnitude

def magnitudeText (mantissa exponent : Nat) : String :=
  let units := mantissa * Nat.pow 2 exponent
  if scientificFrom ≤ units ∨ units < positionalFrom then
    (shortest .up mantissa exponent).scientific
  else if units % one = 0 then toString (units / one)
  else (shortest .up mantissa exponent).positional 0

def text : Binary64 → String
  | .nan => "NaN"
  | .infinite negative => if negative then "-Infinity" else "Infinity"
  | .finite negative m e _ =>
    if m = 0 then "0" else (if negative then "-" else "") ++ magnitudeText m e

end OperatorScript.Binary64
