import OperatorScript.Number.Arithmetic
import OperatorScript.Text.Dict

/-!
JSON values.

A number is an integer of 64 bits, signed or unsigned, or a finite floating-point number; the two
classes stay apart although a value may belong to both. The members of an object are a dictionary.
-/

set_option autoImplicit false
set_option relaxedAutoImplicit false

namespace OperatorScript.Json

/-- The integers that a number can hold exactly: those of 64 bits, with or without a sign. -/
def InRange (i : Int) : Prop := -(Nat.pow 2 63 : Nat) ≤ i ∧ i < (Nat.pow 2 64 : Nat)

instance (i : Int) : Decidable (InRange i) := inferInstanceAs (Decidable (_ ∧ _))

inductive Number where
  | integer (value : Int) (inRange : InRange value)
  | real (value : Binary64) (isFinite : value.isFinite = true)
deriving DecidableEq

def Number.toBinary64 : Number → Binary64
  | .integer value _ => .ofInt value
  | .real value _ => value

def Number.ofBinary64? (x : Binary64) : Option Number :=
  if isFinite : x.isFinite = true then some (.real x isFinite) else none

inductive Value where
  | null
  | bool (value : Bool)
  | num (value : Number)
  | str (value : String)
  | arr (items : List Value)
  | obj (members : List (String × Value))
deriving Inhabited

/-- An object by itself: the members of a JSON object, in order of their names. -/
abbrev Record := Dict Value

namespace Value

/-- The value of a floating-point number, kept as such; one that is not finite becomes `null`. -/
def ofReal (x : Binary64) : Value :=
  match Number.ofBinary64? x with
  | some n => .num n
  | none => .null

/-- The value of an integer; one out of range becomes the nearest floating-point number. -/
def ofInt (i : Int) : Value :=
  if inRange : InRange i then .num (.integer i inRange) else ofReal (.ofInt i)

/-- The value of a computed number: an integer if it is integral and below `2 ^ 53` in magnitude. -/
def ofNumber (x : Binary64) : Value :=
  match x.toInt? with
  | some i => if i.natAbs < Nat.pow 2 53 then ofInt i else ofReal x
  | none => ofReal x

def number? : Value → Option Binary64
  | .num n => some n.toBinary64
  | _ => none

end Value

end OperatorScript.Json
