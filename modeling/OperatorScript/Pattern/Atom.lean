import OperatorScript.Text.Blank
import OperatorScript.Text.Hex

/-!
The smallest parts of a search pattern: characters, classes with a name, and places between
characters.

A pattern speaks of characters or, where a flag says so, of bytes. Whole characters are all that it
may match, so among bytes nothing is allowed that takes in a byte above ASCII by itself.
-/

set_option autoImplicit false
set_option relaxedAutoImplicit false

namespace OperatorScript.Pattern

/-- How a part of a pattern is read: whether blanks and comments are passed over, and whether it
speaks of characters. -/
structure Mode where
  spaced : Bool := false
  unicode : Bool := true

def skipSpace (inComment : Bool) : List Char → List Char
  | [] => []
  | c :: cs =>
    if inComment then skipSpace (c != '\n') cs
    else if Text.isBlank c then skipSpace false cs
    else if c = '#' then skipSpace true cs
    else c :: cs

def Mode.skip (m : Mode) (cs : List Char) : List Char :=
  if m.spaced then skipSpace false cs else cs

inductive Atom where
  /-- A character; `asByte` if two digits of base sixteen name it. -/
  | literal (c : Char) (asByte : Bool)
  | any
  /-- The digits, the blanks or the characters of words, or all but these. -/
  | shorthand (negated : Bool)
  | category
  | edge
  | wordEdge

/-- Whether a mode allows an atom. Edges of words are found only among bytes. -/
def Atom.fits (m : Mode) : Atom → Bool
  | .literal c asByte => m.unicode || !asByte || c.toNat < 0x80
  | .any => m.unicode
  | .shorthand negated => m.unicode || !negated
  | .category => m.unicode
  | .edge => true
  | .wordEdge => !m.unicode

def Atom.fitsSet (m : Mode) : Atom → Bool
  | .literal c _ => m.unicode || c.toNat < 0x80
  | .shorthand negated => m.unicode || !negated
  | .category => m.unicode
  | _ => false

def readHex (m : Mode) : Nat → List Char → List Char → Option (Char × List Char)
  | 0, digits, cs => (Text.charOfHex? digits).map fun c => (c, cs)
  | count + 1, digits, cs =>
    match m.skip cs with
    | d :: rest => readHex m count (digits ++ [d]) rest
    | [] => none

def categoryLetters : List Char := ['c', 'l', 'm', 'n', 'p', 's', 'z']

def readCategory (m : Mode) (cs : List Char) : Option (Atom × List Char) :=
  match m.skip cs with
  | c :: rest => if categoryLetters.contains c.toLower then some (.category, rest) else none
  | [] => none

def controls : List (Char × Char) :=
  [('a', '\x07'), ('f', '\x0c'), ('t', '\t'), ('n', '\n'), ('r', '\r'), ('v', '\x0b')]

/-- Whether a character stands for itself after a backslash: those of ASCII do, but for letters,
digits and angle brackets. -/
def isEscapable (c : Char) : Bool :=
  c.toNat < 0x80 && !c.isAlphanum && c != '<' && c != '>'

def readEscape (m : Mode) : List Char → Option (Atom × List Char)
  | [] => none
  | c :: rest =>
    if c = 'x' then (readHex m 2 [] rest).map fun (c, rest) => (.literal c true, rest)
    else if c = 'u' then (readHex m 4 [] rest).map fun (c, rest) => (.literal c false, rest)
    else if c = 'U' then (readHex m 8 [] rest).map fun (c, rest) => (.literal c false, rest)
    else if c = 'p' ∨ c = 'P' then readCategory m rest
    else if ['d', 's', 'w'].contains c then some (.shorthand false, rest)
    else if ['D', 'S', 'W'].contains c then some (.shorthand true, rest)
    else if isEscapable c then some (.literal c false, rest)
    else if ['A', 'z'].contains c then some (.edge, rest)
    else if ['b', 'B', '<', '>'].contains c then some (.wordEdge, rest)
    else (controls.lookup c).map fun control => (.literal control false, rest)

def readAtom (m : Mode) : List Char → Option (Atom × List Char)
  | [] => none
  | '\\' :: rest => readEscape m rest
  | '.' :: rest => some (.any, rest)
  | '^' :: rest => some (.edge, rest)
  | '$' :: rest => some (.edge, rest)
  | c :: rest => some (.literal c false, rest)

end OperatorScript.Pattern
