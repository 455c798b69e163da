import OperatorScript.Text.Alphanumeric
import OperatorScript.Text.Blank
import OperatorScript.Text.Dict

/-!
Variables of the environment, and files that set them.

A file holds assignments `name=value`, one a line; a value between quotes may go on over several
lines. Between single quotes every character stands for itself; elsewhere a backslash escapes the
next character and `$name` or `${name}` stands for the value of a variable. A comment begins at a
`#` at the start of a line or after a blank. A variable that is set already keeps its value; the
first malformed line ends the reading.
-/

set_option autoImplicit false
set_option relaxedAutoImplicit false

namespace OperatorScript

abbrev Environment := Dict String

namespace Environment

/-- Where the end of a line finds the text: outside quotes or inside them, after a backslash or not,
after a blank, or in a comment. -/
inductive Quoting where
  | outside
  | blank
  | escape
  | single
  | singleEscape
  | double
  | doubleEscape
  | comment
deriving DecidableEq

def Quoting.start (c : Char) : Quoting :=
  if c = '\\' then .escape
  else if c = '"' then .double
  else if c = '\'' then .single
  else .outside

def Quoting.next (q : Quoting) (c : Char) : Quoting :=
  match q with
  | .outside => if Text.isBlank c && c != '\n' && c != '\r' then .blank else .start c
  | .blank => .start c
  | .escape => .outside
  | .single => if c = '\\' then .singleEscape else if c = '\'' then .outside else .single
  | .singleEscape => .single
  | .double => if c = '\\' then .doubleEscape else if c = '"' then .outside else .double
  | .doubleEscape => .double
  | .comment => .comment

/-- A line of assignments, or one that the end of the file has cut short. -/
inductive Line where
  | whole (text : List Char)
  | cutShort

/-- Splits a text into lines; `taken` is the line so far, its last character first. A line goes on
over the end of a line inside quotes. -/
def linesFrom (q : Quoting) (taken : List Char) : List Char → List Line
  | [] =>
    if q = .comment then [.whole taken.reverse]
    else if q = .outside then if taken.isEmpty then [] else [.whole taken.reverse]
    else [.cutShort]
  | c :: cs =>
    if q = .comment then
      if c = '\n' then .whole taken.reverse :: linesFrom .outside [] cs
      else linesFrom .comment taken cs
    else if c = '#' ∧ (q = .blank ∨ taken.all Text.isBlank = true) then linesFrom .comment taken cs
    else if c = '\n' ∧ q.next c = .outside then
      .whole taken.reverse :: linesFrom .outside [] cs
    else linesFrom (q.next c) (c :: taken) cs

def lines (text : String) : List Line := linesFrom .outside [] text.toList

/-- Where the reading of a value is: outside quotes or inside them, after a backslash, in the name
of a variable, or past the value. `inQuotes` tells whether double quotes are open. -/
inductive Place where
  | plain
  | single
  | double
  | escaped (inQuotes : Bool)
  | name (inQuotes : Bool) (read : List Char)
  | braced (inQuotes : Bool) (read : List Char)
  | past

def Place.back (inQuotes : Bool) : Place := if inQuotes then .double else .plain

def escape? (c : Char) : Option Char :=
  if c = 'n' then some '\n'
  else if c = '\\' ∨ c = '\'' ∨ c = '"' ∨ c = '$' ∨ c = ' ' then some c
  else none

/-- Reads a value. The character that ends the name of a variable stands for itself, even a quote.
-/
def readValue (lookup : List Char → List Char) : Place → List Char → Option (List Char)
  | .plain, [] => some []
  | .past, [] => some []
  | .escaped false, [] => some []
  | .name false read, [] => some (lookup read)
  | _, [] => none
  | .past, c :: cs =>
    if c = ' ' ∨ c = '\t' then readValue lookup .past cs
    else if c = '#' then some []
    else none
  | .escaped inQuotes, c :: cs =>
    match escape? c with
    | some e => (readValue lookup (.back inQuotes) cs).map (e :: ·)
    | none => none
  | .single, c :: cs =>
    if c = '\'' then readValue lookup .plain cs else (readValue lookup .single cs).map (c :: ·)
  | .name inQuotes read, c :: cs =>
    if Text.isAlphanumeric c then readValue lookup (.name inQuotes (read ++ [c])) cs
    else if c = '\x7b' ∧ read.isEmpty = true then readValue lookup (.braced inQuotes []) cs
    else if c = '$' then (readValue lookup (.name inQuotes []) cs).map (lookup read ++ ·)
    else (readValue lookup (.back inQuotes) cs).map fun more => lookup read ++ c :: more
  | .braced inQuotes read, c :: cs =>
    if c = '\x7d' then (readValue lookup (.back inQuotes) cs).map (lookup read ++ ·)
    else readValue lookup (.braced inQuotes (read ++ [c])) cs
  | .double, c :: cs =>
    if c = '$' then readValue lookup (.name true []) cs
    else if c = '"' then readValue lookup .plain cs
    else if c = '\\' then readValue lookup (.escaped true) cs
    else (readValue lookup .double cs).map (c :: ·)
  | .plain, c :: cs =>
    if c = '$' then readValue lookup (.name false []) cs
    else if c = '\'' then readValue lookup .single cs
    else if c = '"' then readValue lookup .double cs
    else if c = '\\' then readValue lookup (.escaped false) cs
    else if c = ' ' ∨ c = '\t' then readValue lookup .past cs
    else (readValue lookup .plain cs).map (c :: ·)

def isNameStart (c : Char) : Bool := c.isAlpha || c == '_'

def isNameChar (c : Char) : Bool := c.isAlphanum || c == '_' || c == '.'

def skipBlanks (cs : List Char) : List Char := cs.dropWhile Text.isBlank

def readName (cs : List Char) : Option (String × List Char) :=
  match cs with
  | c :: _ =>
    if isNameStart c then
      some (String.ofList (cs.takeWhile isNameChar), skipBlanks (cs.dropWhile isNameChar))
    else none
  | [] => none

/-- Reads a name and an equals sign. The word `export` may stand in front of them. -/
def readTarget (cs : List Char) : Option (String × List Char) := do
  let (name, rest) ← readName cs
  match rest with
  | '=' :: rest => some (name, rest)
  | rest =>
    if name = "export" then
      match ← readName rest with
      | (name, '=' :: rest) => some (name, rest)
      | _ => none
    else none

/-- Variables while a file is read: those that are set, and what the lines so far assigned. -/
structure Loading where
  current : Environment
  assigned : Dict String := []

def Loading.lookup (l : Loading) (name : List Char) : List Char :=
  let name := String.ofList name
  ((l.current.get? name).getD ((l.assigned.get? name).getD "")).toList

/-- Assigns a variable, which is set unless it is so already. -/
def Loading.assign (l : Loading) (name value : String) : Loading :=
  { current := if l.current.contains name then l.current else l.current.insert name value
    assigned := l.assigned.insert name value }

def Loading.readLine (l : Loading) : Line → Option Loading
  | .cutShort => none
  | .whole text =>
    match Text.trimChars text with
    | [] => some l
    | '#' :: _ => some l
    | cs => do
      let (name, rest) ← readTarget cs
      match skipBlanks rest with
      | [] => some (l.assign name "")
      | '#' :: _ => some (l.assign name "")
      | cs =>
        let value ← readValue l.lookup .plain cs
        some (l.assign name (String.ofList value))

def Loading.readLines : List Line → Loading → Loading
  | [], l => l
  | line :: rest, l =>
    match l.readLine line with
    | some l => readLines rest l
    | none => l

/-- The environment with the variables that a file sets. A byte order mark in front of it does not
count. -/
def extend (env : Environment) (text : String) : Environment :=
  let text :=
    match text.toList with
    | '\ufeff' :: cs => String.ofList cs
    | _ => text
  (Loading.readLines (lines text) { current := env }).current

/-- Whether a variable holds the character zero. A file can spell such a value, but no variable can
be set to it. -/
def holdsZero (env : Environment) : Bool := env.any fun (_, value) => value.toList.contains '\x00'

/-- Every name that reading a text may ask for: its stretches of characters that can stand in a
name, and what stands between braces. -/
def namesIn (text : String) : List String :=
  let cs := text.toList
  (Text.pieces (fun c => !isNameChar c) cs ++ Text.pieces (fun c => !Text.isAlphanumeric c) cs ++
    Text.pieces (fun c => c == '\x7b' || c == '\x7d') cs).map String.ofList

end Environment

end OperatorScript
