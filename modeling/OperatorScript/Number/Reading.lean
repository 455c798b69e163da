import OperatorScript.Number.Binary64

/-!
Numbers read from text.

A number is an optional sign followed by `inf`, `infinity` or `nan` in any case, or by digits with
an optional point among or beside them and an optional exponent. An index is digits with an optional
plus. Nothing else may stand in the text.
-/

set_option autoImplicit false
set_option relaxedAutoImplicit false

namespace OperatorScript

def natOfDigits (digits : List Char) : Nat :=
  digits.foldl (fun n c => 10 * n + (c.toNat - '0'.toNat)) 0

def takeDigits (cs : List Char) : List Char × List Char :=
  (cs.takeWhile Char.isDigit, cs.dropWhile Char.isDigit)

def takeSign : List Char → Bool × List Char
  | '-' :: rest => (true, rest)
  | '+' :: rest => (false, rest)
  | cs => (false, cs)

def readExponent? (cs : List Char) : Option Int :=
  let (negative, digits) := takeSign cs
  if digits.isEmpty || !digits.all Char.isDigit then none
  else some (if negative then -(natOfDigits digits : Int) else (natOfDigits digits : Int))

namespace Binary64

def readUnsigned? (negative : Bool) (cs : List Char) : Option Binary64 :=
  let (whole, rest) := takeDigits cs
  let (fraction, rest) :=
    match rest with
    | '.' :: rest => takeDigits rest
    | rest => ([], rest)
  let digits := natOfDigits (whole ++ fraction)
  if whole.isEmpty && fraction.isEmpty then none
  else
    match rest with
    | [] => some (ofDecimal negative digits (-(fraction.length : Int)))
    | e :: rest =>
      if e = 'e' ∨ e = 'E' then
        (readExponent? rest).map fun exponent =>
          ofDecimal negative digits (exponent - (fraction.length : Int))
      else none

def read? (s : String) : Option Binary64 :=
  let (negative, rest) := takeSign s.toList
  let word := rest.map Char.toLower
  if word = "inf".toList ∨ word = "infinity".toList then some (.infinite negative)
  else if word = "nan".toList then some .nan
  else readUnsigned? negative rest

end Binary64

/-- Reads an index of at most 64 bits: digits after an optional plus. -/
def readIndex? (s : String) : Option Nat :=
  let digits :=
    match s.toList with
    | '+' :: rest => rest
    | cs => cs
  if digits.isEmpty || !digits.all Char.isDigit then none
  else
    let n := natOfDigits digits
    if n < Nat.pow 2 64 then some n else none

end OperatorScript
