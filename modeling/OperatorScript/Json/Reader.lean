import OperatorScript.Json.Value
import OperatorScript.Json.SyntaxError
import OperatorScript.Number.Reading
import OperatorScript.Text.Hex
import OperatorScript.Text.Offset

/-!
Reading JSON text.

A reader takes the characters that are left and gives what it read with the characters after it, or
stops at a place in the text. Loops are bounded by the length of the text; nesting is bounded by a
number of levels, beyond which no bracket is opened.
-/

set_option autoImplicit false
set_option relaxedAutoImplicit false

namespace OperatorScript.Json

/-- Where and why reading stops: at `rest`, with `shown` bytes of it taken into account. -/
structure Stop where
  problem : Problem
  rest : List Char
  shown : Nat

def stopBefore {α : Type} (problem : Problem) (rest : List Char) : Except Stop (α × List Char) :=
  .error { problem, rest, shown := 0 }

/-- Stops at the next byte, or at the end if there is none. -/
def stopAt {α : Type} (problem : Problem) (rest : List Char) : Except Stop (α × List Char) :=
  .error { problem, rest, shown := 1 }

def isJsonBlank (c : Char) : Bool := c == ' ' || c == '\n' || c == '\t' || c == '\r'

def skipBlanks (cs : List Char) : List Char := cs.dropWhile isJsonBlank

def readWord (value : Value) : List Char → List Char → Except Stop (Value × List Char)
  | [], rest => .ok (value, rest)
  | _ :: _, [] => stopAt .valueCutShort []
  | expected :: more, c :: cs =>
    if c = expected then readWord value more cs else stopAt .wordExpected (c :: cs)

def readHex (cs : List Char) : Except Stop (Nat × List Char) :=
  if Text.byteCount cs < 4 then stopBefore .stringCutShort []
  else
    match cs with
    | a :: b :: c :: d :: rest =>
      match Text.hexValue? a, Text.hexValue? b, Text.hexValue? c, Text.hexValue? d with
      | some a, some b, some c, some d => .ok (((a * 16 + b) * 16 + c) * 16 + d, rest)
      | _, _, _, _ => .error { problem := .badEscape, rest := cs, shown := 4 }
    | _ => .error { problem := .badEscape, rest := cs, shown := 4 }

def readLowSurrogate (high : Nat) (cs : List Char) : Except Stop (Char × List Char) :=
  match cs with
  | [] => stopBefore .stringCutShort []
  | '\\' :: 'u' :: rest => do
    let (low, rest) ← readHex rest
    if 0xdc00 ≤ low ∧ low ≤ 0xdfff then
      .ok (Char.ofNat ((high - 0xd800) * 0x400 + (low - 0xdc00) + 0x10000), rest)
    else stopBefore .loneSurrogate rest
  | '\\' :: [] => stopBefore .stringCutShort []
  | '\\' :: rest => stopAt .surrogateCutShort rest
  | rest => stopAt .surrogateCutShort rest

def readEscape : List Char → Except Stop (Char × List Char)
  | [] => stopBefore .stringCutShort []
  | '"' :: rest => .ok ('"', rest)
  | '\\' :: rest => .ok ('\\', rest)
  | '/' :: rest => .ok ('/', rest)
  | 'b' :: rest => .ok ('\x08', rest)
  | 'f' :: rest => .ok ('\x0c', rest)
  | 'n' :: rest => .ok ('\n', rest)
  | 'r' :: rest => .ok ('\r', rest)
  | 't' :: rest => .ok ('\t', rest)
  | 'u' :: rest => do
    let (code, rest) ← readHex rest
    if 0xdc00 ≤ code ∧ code ≤ 0xdfff then stopBefore .loneSurrogate rest
    else if 0xd800 ≤ code ∧ code ≤ 0xdbff then readLowSurrogate code rest
    else .ok (Char.ofNat code, rest)
  | rest => stopAt .badEscape rest

def readCharacters : Nat → List Char → Except Stop (List Char × List Char)
  | 0, cs => stopBefore .stringCutShort cs
  | _ + 1, [] => stopBefore .stringCutShort []
  | fuel + 1, c :: cs =>
    if c = '"' then .ok ([], cs)
    else if c = '\\' then do
      let (e, rest) ← readEscape cs
      let (more, rest) ← readCharacters fuel rest
      .ok (e :: more, rest)
    else if c.toNat < 0x20 then stopAt .controlCharacter (c :: cs)
    else do
      let (more, rest) ← readCharacters fuel cs
      .ok (c :: more, rest)

def readString (cs : List Char) : Except Stop (String × List Char) := do
  let (chars, rest) ← readCharacters (cs.length + 1) cs
  .ok (String.ofList chars, rest)

/-- What digits after others stand for, up to the first one past 64 bits, and how many are left out
from there on. -/
def takeSignificand (n : Nat) : List Char → Nat × Nat
  | [] => (n, 0)
  | c :: cs =>
    let next := 10 * n + (c.toNat - '0'.toNat)
    if next < Nat.pow 2 64 then takeSignificand next cs else (n, cs.length + 1)

/-- The value of a number that is not an integer of 64 bits; too large a one stops reading. The
digits are rounded before they are scaled, so the value need not be the nearest one. -/
def realNumber (negative : Bool) (digits : Nat) (scale : Int) (rest : List Char) :
    Except Stop (Value × List Char) :=
  let x := Binary64.ofUnits negative (digits * Binary64.one) 1
  match Number.ofBinary64? (x.timesPowerOfTen scale) with
  | some n => .ok (.num n, rest)
  | none => stopBefore .numberTooLarge rest

def greatestExponent : Nat := Nat.pow 2 31 - 1

/-- How many digits it takes until the number they stand for is greater than `bound`. -/
def digitsPast (bound : Nat) : Nat → List Char → Nat
  | _, [] => 0
  | n, c :: cs =>
    let n := 10 * n + (c.toNat - '0'.toNat)
    if bound < n then 1 else digitsPast bound n cs + 1

/-- Reads an exponent, after its letter, for digits before it that are scaled already. -/
def readExponent (negative : Bool) (digits : Nat) (scale : Int) (cs : List Char) :
    Except Stop (Value × List Char) :=
  let (down, cs) := takeSign cs
  let (exponent, rest) := takeDigits cs
  if exponent.isEmpty then
    match rest with
    | [] => stopBefore .valueCutShort []
    | rest => stopAt .badNumber rest
  else
    let e := natOfDigits exponent
    if greatestExponent < e then
      if digits = 0 ∨ down = true then realNumber negative 0 0 rest
      else stopBefore .numberTooLarge (cs.drop (digitsPast greatestExponent 0 exponent))
    else realNumber negative digits (if down then scale - (e : Int) else scale + (e : Int)) rest

def readNumberTail (negative : Bool) (whole : List Char) (cs : List Char) :
    Except Stop (Value × List Char) :=
  let (digits, omitted) := takeSignificand 0 whole
  match cs with
  | '.' :: rest =>
    let (fraction, rest) := takeDigits rest
    -- A digit of the fraction may fit again where one of the whole part did not.
    let (digits, omittedPlaces) := takeSignificand digits fraction
    let scale := (omitted : Int) - ((fraction.length : Int) - (omittedPlaces : Int))
    match fraction, rest with
    | [], [] => stopAt .valueCutShort []
    | [], rest => stopAt .badNumber rest
    | _, 'e' :: rest => readExponent negative digits scale rest
    | _, 'E' :: rest => readExponent negative digits scale rest
    | _, rest => realNumber negative digits scale rest
  | 'e' :: rest => readExponent negative digits omitted rest
  | 'E' :: rest => readExponent negative digits omitted rest
  | rest =>
    let n := natOfDigits whole
    let i : Int := if negative then -(n : Int) else n
    if inRange : InRange i then
      if negative ∧ n = 0 then realNumber negative 0 0 rest
      else .ok (.num (.integer i inRange), rest)
    else realNumber negative digits omitted rest

def readNumber (negative : Bool) (cs : List Char) : Except Stop (Value × List Char) :=
  match cs with
  | [] => stopBefore .valueCutShort []
  | '0' :: rest =>
    match rest with
    | [] => readNumberTail negative ['0'] rest
    | d :: more =>
      if d.isDigit then stopAt .badNumber (d :: more) else readNumberTail negative ['0'] rest
  | c :: rest =>
    if c.isDigit then
      let (whole, rest) := takeDigits (c :: rest)
      readNumberTail negative whole rest
    else stopAt .badNumber (c :: rest)

def readItems (value : List Char → Except Stop (Value × List Char)) :
    Nat → List Char → Except Stop (List Value × List Char)
  | 0, cs => stopBefore .listCutShort cs
  | fuel + 1, cs => do
    let (v, rest) ← value cs
    match skipBlanks rest with
    | [] => stopAt .listCutShort []
    | ']' :: rest => .ok ([v], rest)
    | ',' :: rest =>
      match skipBlanks rest with
      | [] => stopAt .valueCutShort []
      | ']' :: rest => stopAt .trailingComma (']' :: rest)
      | rest =>
        let (more, rest) ← readItems value fuel rest
        .ok (v :: more, rest)
    | rest => stopAt .listSeparatorExpected rest

def readMembers (value : List Char → Except Stop (Value × List Char)) :
    Nat → List Char → Except Stop (List (String × Value) × List Char)
  | 0, cs => stopBefore .objectCutShort cs
  | fuel + 1, cs => do
    let (name, rest) ← readString cs
    match skipBlanks rest with
    | [] => stopAt .objectCutShort []
    | ':' :: rest =>
      let (v, rest) ← value rest
      match skipBlanks rest with
      | [] => stopAt .objectCutShort []
      | '\x7d' :: rest => .ok ([(name, v)], rest)
      | ',' :: rest =>
        match skipBlanks rest with
        | [] => stopAt .valueCutShort []
        | '\x7d' :: rest => stopAt .trailingComma ('\x7d' :: rest)
        | '"' :: rest =>
          let (more, rest) ← readMembers value fuel rest
          .ok ((name, v) :: more, rest)
        | rest => stopAt .nameExpected rest
      | rest => stopAt .objectSeparatorExpected rest
    | rest => stopAt .colonExpected rest

def readArray (value : List Char → Except Stop (Value × List Char)) (cs : List Char) :
    Except Stop (Value × List Char) :=
  match skipBlanks cs with
  | [] => stopAt .listCutShort []
  | ']' :: rest => .ok (.arr [], rest)
  | rest => do
    let (items, rest) ← readItems value (rest.length + 1) rest
    .ok (.arr items, rest)

/-- Reads an object, after its opening brace. Of two members with one name the later stays. -/
def readObject (value : List Char → Except Stop (Value × List Char)) (cs : List Char) :
    Except Stop (Value × List Char) :=
  match skipBlanks cs with
  | [] => stopAt .objectCutShort []
  | '\x7d' :: rest => .ok (.obj [], rest)
  | '"' :: rest => do
    let (members, rest) ← readMembers value (rest.length + 1) rest
    .ok (.obj (Dict.ofEntries members), rest)
  | rest => stopAt .nameExpected rest

def readValue (levels : Nat) (cs : List Char) : Except Stop (Value × List Char) :=
  match skipBlanks cs with
  | [] => stopAt .valueCutShort []
  | 'n' :: rest => readWord .null ['u', 'l', 'l'] rest
  | 't' :: rest => readWord (.bool true) ['r', 'u', 'e'] rest
  | 'f' :: rest => readWord (.bool false) ['a', 'l', 's', 'e'] rest
  | '-' :: rest => readNumber true rest
  | '"' :: rest => do
    let (s, rest) ← readString rest
    .ok (.str s, rest)
  | '[' :: rest =>
    match levels with
    | 0 => stopAt .nestedTooDeeply ('[' :: rest)
    | levels + 1 => readArray (readValue levels) rest
  | '\x7b' :: rest =>
    match levels with
    | 0 => stopAt .nestedTooDeeply ('\x7b' :: rest)
    | levels + 1 => readObject (readValue levels) rest
  | c :: rest =>
    if c.isDigit then readNumber false (c :: rest) else stopAt .valueExpected (c :: rest)

def nestingLimit : Nat := 127

/-- Reads a value that fills a text, blanks around it apart, nested at most `levels` deep. -/
def Value.readWithin (levels : Nat) (s : String) : Except SyntaxError Value :=
  let text := s.toList
  let failed (stop : Stop) :=
    SyntaxError.after stop.problem
      (Text.byteCount text - Text.byteCount stop.rest + stop.shown) text
  match readValue levels text with
  | .error stop => .error (failed stop)
  | .ok (v, rest) =>
    match skipBlanks rest with
    | [] => .ok v
    | rest => .error (failed { problem := .trailingText, rest, shown := 1 })

def Value.read (s : String) : Except SyntaxError Value := Value.readWithin nestingLimit s

end OperatorScript.Json
