import OperatorScript.Number.Arithmetic
import OperatorScript.Number.Reading
import OperatorScript.Text.Blank

/-!
Amounts as people write them: with a suffix for the magnitude, as a share of a balance, or as a
word.
-/

set_option autoImplicit false
set_option relaxedAutoImplicit false

namespace OperatorScript.Amount

/-- The suffixes and the powers of ten that they stand for. Two letters are tried before one. -/
def suffixes : List (String × Nat) :=
  [("qa", 15), ("qi", 18), ("sx", 21), ("sp", 24), ("oc", 27), ("no", 30), ("dc", 33),
    ("k", 3), ("m", 6), ("b", 9), ("t", 12)]

def splitSuffix? (s : String) : Option (String × Nat) :=
  suffixes.findSome? fun (suffix, exponent) =>
    (Text.dropEnding? suffix s).map fun digits => (digits, exponent)

def normalize (s : String) : String :=
  String.ofList ((Text.lower (Text.trim s)).toList.filter (· != ','))

/-- Reads an amount. Shares and suffixed numbers are rounded down; what cannot be read is "not a
number". -/
def read (s : String) (balance : Binary64) : Binary64 :=
  let s := normalize s
  if s = "all" ∨ s = "allin" ∨ s = "max" then balance
  else if s = "half" then (balance / .ofInt 2).floor
  else
    match Text.dropEnding? "%" s with
    | some share =>
      match Binary64.read? share with
      | some p => (balance * p / .ofInt 100).floor
      | none => .nan
    | none =>
      match splitSuffix? s with
      | some (digits, exponent) =>
        match Binary64.read? digits with
        | some n => (n * .powerOfTen exponent).floor
        | none => .nan
      | none => (Binary64.read? s).getD .nan

end OperatorScript.Amount
