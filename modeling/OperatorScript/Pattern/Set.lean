import OperatorScript.Pattern.Atom

/-!
Sets of characters in a search pattern: what may stand between square brackets.

A set holds characters, ranges of them, classes with a name and further sets; operators stand
between unions of such members. Of a set that is well formed its height is kept: how many sets,
unions of two or more members, and operators stand inside one another.
-/

set_option autoImplicit false
set_option relaxedAutoImplicit false

namespace OperatorScript.Pattern

/-- The height of parts side by side: a part by itself adds nothing to its height. -/
def heightBeside : List Nat → Nat
  | [] => 0
  | [h] => h
  | hs => 1 + hs.foldl max 0

def readMember (m : Mode) : List Char → Option (Atom × List Char)
  | [] => none
  | '\\' :: rest => readEscape m rest
  | c :: rest => some (.literal c false, rest)

/-- The character that decides whether a dash makes a range: the next one, blanks and the sign of
one comment apart. -/
def Mode.peek? (m : Mode) (cs : List Char) : Option Char :=
  if m.spaced then
    match cs.dropWhile Text.isBlank with
    | '#' :: rest => (rest.dropWhile Text.isBlank).head?
    | rest => rest.head?
  else cs.head?

/-- Reads a member or a range between two characters, which must be in order. A dash before another
dash or before the closing bracket makes no range. -/
def readRange (m : Mode) (cs : List Char) : Option (List Char) := do
  let (first, rest) ← readMember m cs
  if !first.fitsSet m then none
  else
    match m.skip rest with
    | '-' :: rest =>
      if m.peek? rest = some ']' ∨ m.peek? rest = some '-' then some ('-' :: rest)
      else
        let (last, rest) ← readMember m (m.skip rest)
        match first, last with
        | .literal a _, .literal b _ => if last.fitsSet m ∧ a ≤ b then some rest else none
        | _, _ => none
    | rest => some rest

def classNames : List String :=
  ["alnum", "alpha", "ascii", "blank", "cntrl", "digit", "graph", "lower", "print", "punct",
    "space", "upper", "word", "xdigit"]

def readClass? (cs : List Char) : Option (Bool × List Char) :=
  let named (negated : Bool) (cs : List Char) : Option (Bool × List Char) :=
    match cs.dropWhile (· != ':') with
    | ':' :: ']' :: rest =>
      if classNames.contains (String.ofList (cs.takeWhile (· != ':'))) then some (negated, rest)
      else none
    | _ => none
  match cs with
  | ':' :: '^' :: rest => named true rest
  | ':' :: rest => named false rest
  | _ => none

structure SetBody where
  /-- Whether nothing but dashes has been read; here dashes, and a bracket before any of them, are
  members. -/
  atStart : Bool := true
  left : Option Nat := none
  members : List Nat := []

def SetBody.add (b : SetBody) (height : Nat) : SetBody :=
  { b with atStart := false, members := height :: b.members }

def SetBody.height (b : SetBody) : Nat :=
  match b.left with
  | none => heightBeside b.members
  | some h => 1 + max h (heightBeside b.members)

def SetBody.operator (b : SetBody) : SetBody := { atStart := false, left := some b.height }

def isSetOperator (c : Char) : Bool := c == '&' || c == '-' || c == '~'

def skipCaret (m : Mode) (cs : List Char) : Option (List Char) :=
  match m.skip cs with
  | '^' :: rest => if m.unicode then some rest else none
  | rest => some rest

def readSetBody (m : Mode) : Nat → SetBody → List Char → Option (Nat × List Char)
  | 0, _, _ => none
  | fuel + 1, b, cs =>
    match m.skip cs with
    | [] => none
    | c :: rest =>
      if b.atStart && (c == '-' || (c == ']' && b.members.isEmpty)) then
        readSetBody m fuel { b.add 0 with atStart := c == '-' } rest
      else if c = ']' then some (1 + b.height, rest)
      else if c = '[' then
        match readClass? rest with
        | some (negated, rest) =>
          if m.unicode || !negated then readSetBody m fuel (b.add 0) rest else none
        | none => do
          let (height, rest) ← readSetBody m fuel {} (← skipCaret m rest)
          readSetBody m fuel (b.add height) rest
      else if isSetOperator c && rest.head? == some c then
        readSetBody m fuel b.operator (rest.drop 1)
      else do
        readSetBody m fuel (b.add 0) (← readRange m (c :: rest))

def readSet (m : Mode) (cs : List Char) : Option (Nat × List Char) := do
  readSetBody m (cs.length + 1) {} (← skipCaret m cs)

end OperatorScript.Pattern
