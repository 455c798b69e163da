import OperatorScript.Pattern.Set
import OperatorScript.Text.Alphanumeric

/-!
Search patterns: which texts are well formed.

A pattern is a choice between sequences of atoms, sets and groups, each of which may be repeated. A
group may have a name or flags; flags by themselves change the mode for the rest of the group that
they stand in. Repetitions by number and the names of classes stand between braces and are not known
here.
-/

set_option autoImplicit false
set_option relaxedAutoImplicit false

namespace OperatorScript.Pattern

def flagLetters : List Char := ['i', 'm', 's', 'u', 'x', 'R', 'U']

/-- Whether characters are flags: letters, none twice, of which those after a dash are switched
off. -/
def areFlags (flags : List Char) : Bool :=
  flags.all (fun f => f == '-' || flagLetters.contains f) && decide flags.Nodup &&
    flags.getLast? != some '-'

def switched? (letter : Char) (flags : List Char) : Option Bool :=
  if (flags.takeWhile (· != '-')).contains letter then some true
  else if flags.contains letter then some false
  else none

def Mode.withFlags (m : Mode) (flags : List Char) : Mode where
  spaced := (switched? 'x' flags).getD m.spaced
  unicode := (switched? 'u' flags).getD m.unicode

def isGroupName : List Char → Bool
  | [] => false
  | c :: cs =>
    (c == '_' || Text.isAlphabetic c) &&
      cs.all fun c => ['_', '.', '[', ']'].contains c || Text.isAlphanumeric c

/-- What an opening parenthesis begins: flags that stand by themselves, or a group. -/
inductive Opening where
  | flags (mode : Mode)
  | group (mode : Mode) (name : Option (List Char))

def readName (m : Mode) (cs : List Char) : Option (Opening × List Char) :=
  let name := cs.takeWhile (· != '>')
  match cs.dropWhile (· != '>') with
  | _ :: rest => if isGroupName name then some (.group m (some name), rest) else none
  | [] => none

def readOpening (m : Mode) : List Char → Option (Opening × List Char)
  | '?' :: 'P' :: '<' :: cs => readName m cs
  | '?' :: '<' :: cs => readName m cs
  | '?' :: cs =>
    let isEnd (c : Char) := c == ':' || c == ')'
    let flags := cs.takeWhile (!isEnd ·)
    if !areFlags flags then none
    else
      match cs.dropWhile (!isEnd ·) with
      | ':' :: rest => some (.group (m.withFlags flags) none, rest)
      | ')' :: rest => if flags.isEmpty then none else some (.flags (m.withFlags flags), rest)
      | _ => none
  | cs => some (.group m none, cs)

/-- An item of a sequence: flags, which cannot be repeated, or a part with a height. -/
inductive Item where
  | flags
  | part (height : Nat)

def Item.height : Item → Nat
  | .flags => 0
  | .part h => h

structure Body where
  mode : Mode
  choices : List Nat := []
  items : List Item := []

namespace Body

def add (b : Body) (item : Item) : Body := { b with items := item :: b.items }

def lastHeight (b : Body) : Nat := heightBeside (b.items.map Item.height)

def choose (b : Body) : Body := { b with choices := b.lastHeight :: b.choices, items := [] }

def height (b : Body) : Nat := heightBeside (b.lastHeight :: b.choices)

def repeat? (b : Body) : Option Body :=
  match b.items with
  | .part h :: items => some { b with items := .part (h + 1) :: items }
  | _ => none

end Body

def isRepetition (c : Char) : Bool := c == '?' || c == '*' || c == '+'

def skipPreference : List Char → List Char
  | '?' :: cs => cs
  | cs => cs

/-- Reads a pattern to its end, or a group up to and with its closing parenthesis: its height and
the names of all groups, which must be distinct. -/
def readBody (inGroup : Bool) :
    Nat → List (List Char) → Body → List Char → Option ((Nat × List (List Char)) × List Char)
  | 0, _, _, _ => none
  | fuel + 1, names, b, cs =>
    match b.mode.skip cs with
    | [] => if inGroup then none else some ((b.height, names), [])
    | c :: rest =>
      if c = ')' then if inGroup then some ((b.height, names), rest) else none
      else if c = '|' then readBody inGroup fuel names b.choose rest
      else if c = '(' then
        match readOpening b.mode (b.mode.skip rest) with
        | none => none
        | some (.flags mode, rest) =>
          readBody inGroup fuel names { b.add .flags with mode } rest
        | some (.group mode name, rest) =>
          if name.any names.contains then none
          else do
            let ((h, names), rest) ← readBody true fuel (name.toList ++ names) { mode } rest
            readBody inGroup fuel names (b.add (.part (h + 1))) rest
      else if c = '[' then do
        let (h, rest) ← readSet b.mode rest
        readBody inGroup fuel names (b.add (.part h)) rest
      else if isRepetition c then do
        readBody inGroup fuel names (← b.repeat?) (skipPreference rest)
      else if c = '\x7b' then none
      else do
        let (a, rest) ← readAtom b.mode (c :: rest)
        if a.fits b.mode then readBody inGroup fuel names (b.add (.part 0)) rest else none

def heightLimit : Nat := 250

def isWellFormed (cs : List Char) : Bool :=
  match readBody false (cs.length + 1) [] { mode := {} } cs with
  | some ((height, _), _) => height ≤ heightLimit
  | none => false

example : isWellFormed "a(b|[^x-z]*?)+".toList = true ∧ isWellFormed "(?i)*".toList = false := by
  decide +kernel
example : isWellFormed "[b-a]".toList = false ∧ isWellFormed "\\b".toList = false := by
  decide +kernel

end OperatorScript.Pattern
