/-!
Binary floating-point numbers of 64 bits, held as exact values.

A finite number is a sign, a mantissa and an exponent; it stands for the mantissa times two to the
exponent in units of the least positive number, `2 ^ (-1074)`. The form is canonical, so two finite
numbers of one sign are equal exactly when their values are. All rounding goes through
`Binary64.ofUnits`: to the nearest number, a tie to the even mantissa, and to infinity past the
greatest one.
-/

set_option autoImplicit false
set_option relaxedAutoImplicit false

namespace OperatorScript

/-- Mantissas have at most 53 bits, and all of these unless the exponent is the least one. -/
def Binary64.Canonical (mantissa exponent : Nat) : Prop :=
  mantissa < Nat.pow 2 53 ∧ exponent ≤ 2045 ∧ (exponent = 0 ∨ Nat.pow 2 52 ≤ mantissa)

instance (mantissa exponent : Nat) : Decidable (Binary64.Canonical mantissa exponent) :=
  inferInstanceAs (Decidable (_ ∧ _))

/-- A floating-point number. Zero has two signs, and there is one value for "not a number". -/
inductive Binary64 where
  | nan
  | infinite (negative : Bool)
  | finite (negative : Bool) (mantissa exponent : Nat)
      (canonical : Binary64.Canonical mantissa exponent)
deriving DecidableEq

namespace Binary64

/-- How many units make one: the least positive number is `2 ^ (-1074)`. -/
def one : Nat := Nat.pow 2 1074

/-- The quotient rounded to the nearest natural number, a tie to the even one. -/
def nearestEven (num den : Nat) : Nat :=
  let quotient := num / den
  let twice := 2 * (num % den)
  if twice < den then quotient
  else if den < twice then quotient + 1
  else if quotient % 2 = 0 then quotient
  else quotient + 1

def ofUnits (negative : Bool) (num den : Nat) : Binary64 :=
  let exponent := Nat.log2 (num / den) - 52
  let mantissa := nearestEven num (den * Nat.pow 2 exponent)
  let (mantissa, exponent) :=
    if mantissa = Nat.pow 2 53 then (Nat.pow 2 52, exponent + 1) else (mantissa, exponent)
  if canonical : Canonical mantissa exponent then .finite negative mantissa exponent canonical
  else .infinite negative

def zero (negative : Bool) : Binary64 := .finite negative 0 0 (by decide)

def ofInt (i : Int) : Binary64 := ofUnits (decide (i < 0)) (i.natAbs * one) 1

/-- The number nearest to `digits * 10 ^ scale`. Scales at which the answer can only be infinity or
zero are settled before any power is formed. -/
def ofDecimal (negative : Bool) (digits : Nat) (scale : Int) : Binary64 :=
  if digits = 0 then zero negative
  else if 0 ≤ scale then
    if 400 < scale then .infinite negative
    else ofUnits negative (digits * Nat.pow 10 scale.toNat * one) 1
  else if 400 + (Nat.log2 digits : Int) < -scale then zero negative
  else ofUnits negative (digits * one) (Nat.pow 10 (-scale).toNat)

def isFinite : Binary64 → Bool
  | .finite .. => true
  | _ => false

def units? : Binary64 → Option Int
  | .finite negative mantissa exponent _ =>
    let magnitude : Int := (mantissa * Nat.pow 2 exponent : Nat)
    some (if negative then -magnitude else magnitude)
  | _ => none

def toInt? (x : Binary64) : Option Int :=
  match x.units? with
  | some u => if u % (one : Int) = 0 then some (u / (one : Int)) else none
  | none => none

/-- The word of the interchange format: sign, eleven bits of exponent, 52 bits of mantissa. There
is no word for "not a number", which has many. -/
def toWord? : Binary64 → Option Nat
  | .nan => none
  | .infinite negative => some ((if negative then Nat.pow 2 63 else 0) + 2047 * Nat.pow 2 52)
  | .finite negative mantissa exponent _ =>
    some ((if negative then Nat.pow 2 63 else 0) +
      (if mantissa < Nat.pow 2 52 then mantissa else exponent * Nat.pow 2 52 + mantissa))

end Binary64

end OperatorScript
