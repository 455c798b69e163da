import OperatorScript.Number.Reading
import OperatorScript.Text.Blank

/-!
The form of numbers, dates and times in TOML.
-/

set_option autoImplicit false
set_option relaxedAutoImplicit false

namespace OperatorScript.Toml

def isGrouped (isDigit : Char → Bool) (cs : List Char) : Bool :=
  (Text.stretches (· == '_') cs).all fun group => !group.isEmpty && group.all isDigit

def ungrouped (cs : List Char) : List Char := cs.filter (· != '_')

def isWhole (cs : List Char) : Bool :=
  isGrouped Char.isDigit cs && (cs.head? != some '0' || cs.length == 1)

def unsigned (cs : List Char) : List Char := (takeSign cs).2

def isHexDigit (c : Char) : Bool :=
  c.isDigit || ('a' ≤ c && c ≤ 'f') || ('A' ≤ c && c ≤ 'F')

/-- The magnitudes that integers may have: those of 128 bits, one of them for the sign if there is
one. -/
def inRange (negative : Bool) (n : Nat) : Bool :=
  if negative then n ≤ Nat.pow 2 127 else n < Nat.pow 2 128

def bitLength (bits : Nat) (digits : List Char) : Nat :=
  match digits.dropWhile (· == '0') with
  | [] => 0
  | first :: rest =>
    (if first.isDigit then Nat.log2 (first.toNat - 48) + 1 else 4) + bits * rest.length

def isInteger (cs : List Char) : Bool :=
  match cs with
  | '0' :: 'x' :: ds => isGrouped isHexDigit ds && bitLength 4 (ungrouped ds) ≤ 128
  | '0' :: 'o' :: ds =>
    isGrouped (fun c => '0' ≤ c && c ≤ '7') ds && bitLength 3 (ungrouped ds) ≤ 128
  | '0' :: 'b' :: ds =>
    isGrouped (fun c => c == '0' || c == '1') ds && bitLength 1 (ungrouped ds) ≤ 128
  | cs => isWhole (unsigned cs) && inRange (takeSign cs).1 (natOfDigits (ungrouped (unsigned cs)))

def isExponent (cs : List Char) : Bool := isGrouped Char.isDigit (unsigned cs)

def isExponentLetter (c : Char) : Bool := c == 'e' || c == 'E'

def isFloatTail (cs : List Char) : Bool :=
  match cs with
  | '.' :: rest =>
    let fraction := rest.takeWhile (!isExponentLetter ·)
    isGrouped Char.isDigit fraction &&
      (match rest.dropWhile (!isExponentLetter ·) with
        | [] => true
        | _ :: exponent => isExponent exponent)
  | c :: exponent => isExponentLetter c && isExponent exponent
  | [] => false

def isFloat (cs : List Char) : Bool :=
  let body := unsigned cs
  let isWholePart (c : Char) := c.isDigit || c == '_'
  body == ['i', 'n', 'f'] || body == ['n', 'a', 'n'] ||
    (isWhole (body.takeWhile isWholePart) && isFloatTail (body.dropWhile isWholePart) &&
      (match Binary64.read? (String.ofList (ungrouped body)) with
        | some x => x.isFinite
        | none => false))

def digits? (count : Nat) (cs : List Char) : Option (Nat × List Char) :=
  let ds := cs.take count
  if ds.length = count ∧ ds.all Char.isDigit then some (natOfDigits ds, cs.drop count) else none

def daysIn (year month : Nat) : Nat :=
  if month = 2 then
    if (year % 4 = 0 ∧ year % 100 ≠ 0) ∨ year % 400 = 0 then 29 else 28
  else if month = 4 ∨ month = 6 ∨ month = 9 ∨ month = 11 then 30
  else 31

def takeDate? (cs : List Char) : Option (List Char) := do
  let (year, cs) ← digits? 4 cs
  match cs with
  | '-' :: cs =>
    let (month, cs) ← digits? 2 cs
    match cs with
    | '-' :: cs =>
      let (day, cs) ← digits? 2 cs
      if 1 ≤ month ∧ month ≤ 12 ∧ 1 ≤ day ∧ day ≤ daysIn year month then some cs else none
    | _ => none
  | _ => none

def takeFraction? (cs : List Char) : Option (List Char) :=
  match cs with
  | '.' :: rest =>
    if (rest.takeWhile Char.isDigit).isEmpty then none else some (rest.dropWhile Char.isDigit)
  | cs => some cs

/-- Takes a time of day off the front. Its seconds may be left out. -/
def takeTime? (cs : List Char) : Option (List Char) := do
  let (hour, cs) ← digits? 2 cs
  match cs with
  | ':' :: cs =>
    let (minute, cs) ← digits? 2 cs
    if hour ≤ 23 ∧ minute ≤ 59 then
      match cs with
      | ':' :: cs =>
        let (second, cs) ← digits? 2 cs
        if second ≤ 60 then takeFraction? cs else none
      | cs => some cs
    else none
  | _ => none

def isOffset (cs : List Char) : Bool :=
  match cs with
  | [] => true
  | ['Z'] => true
  | ['z'] => true
  | sign :: cs =>
    (sign == '+' || sign == '-') &&
      (match digits? 2 cs with
        | some (hour, ':' :: cs) =>
          match digits? 2 cs with
          | some (minute, []) => hour ≤ 23 && minute ≤ 59
          | _ => false
        | _ => false)

/-- A date, a time of day, or both with a `T` or a blank between them. -/
def isMoment (cs : List Char) : Bool :=
  match takeDate? cs with
  | some [] => true
  | some (c :: rest) =>
    (c == 'T' || c == 't' || c == ' ') &&
      (match takeTime? rest with
        | some offset => isOffset offset
        | none => false)
  | none => takeTime? cs == some []

def isOther (cs : List Char) : Bool := isInteger cs || isFloat cs || isMoment cs

end OperatorScript.Toml
