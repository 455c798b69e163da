import OperatorScript.Text.Hex

/-!
Texts, keys and fillers of TOML.

A reader takes the characters that are left and gives what it read with those after it, or nothing
if the text is malformed.
-/

set_option autoImplicit false
set_option relaxedAutoImplicit false

namespace OperatorScript.Toml

/-- The characters that may stand in texts and comments as they are: no controls but the tab. -/
def isPlain (c : Char) : Bool := c == '\t' || (0x20 ≤ c.toNat && c.toNat != 0x7f)

def isLineBlank (c : Char) : Bool := c == ' ' || c == '\t'

def skipLineBlanks (cs : List Char) : List Char := cs.dropWhile isLineBlank

def skipFiller (inComment : Bool) : List Char → Option (List Char)
  | [] => some []
  | '\r' :: '\n' :: cs => skipFiller false cs
  | c :: cs =>
    if c = '\n' then skipFiller false cs
    else if inComment then if isPlain c then skipFiller true cs else none
    else if isLineBlank c then skipFiller false cs
    else if c = '#' then skipFiller true cs
    else some (c :: cs)

def endLine (inComment : Bool) : List Char → Option (List Char)
  | [] => some []
  | '\r' :: '\n' :: cs => some cs
  | c :: cs =>
    if c = '\n' then some cs
    else if inComment then if isPlain c then endLine true cs else none
    else if isLineBlank c then endLine false cs
    else if c = '#' then endLine true cs
    else none

def readHexChar (count : Nat) (cs : List Char) : Option (Char × List Char) :=
  if cs.length < count then none
  else (Text.charOfHex? (cs.take count)).map fun c => (c, cs.drop count)

def readEscape : List Char → Option (Char × List Char)
  | 'b' :: cs => some ('\x08', cs)
  | 't' :: cs => some ('\t', cs)
  | 'n' :: cs => some ('\n', cs)
  | 'f' :: cs => some ('\x0c', cs)
  | 'r' :: cs => some ('\r', cs)
  | 'e' :: cs => some ('\x1b', cs)
  | '"' :: cs => some ('"', cs)
  | '\\' :: cs => some ('\\', cs)
  | 'x' :: cs => readHexChar 2 cs
  | 'u' :: cs => readHexChar 4 cs
  | 'U' :: cs => readHexChar 8 cs
  | _ => none

def readLine (quote : Char) : Nat → List Char → Option (List Char × List Char)
  | 0, _ => none
  | _ + 1, [] => none
  | fuel + 1, c :: cs =>
    if c = quote then some ([], cs)
    else if c = '\\' ∧ quote = '"' then do
      let (e, rest) ← readEscape cs
      let (more, rest) ← readLine quote fuel rest
      some (e :: more, rest)
    else if isPlain c then do
      let (more, rest) ← readLine quote fuel cs
      some (c :: more, rest)
    else none

def skipContinued : List Char → List Char
  | '\r' :: '\n' :: cs => skipContinued cs
  | c :: cs => if isLineBlank c || c == '\n' then skipContinued cs else c :: cs
  | [] => []

def endsLine (cs : List Char) : Bool :=
  match skipLineBlanks cs with
  | '\n' :: _ => true
  | '\r' :: '\n' :: _ => true
  | _ => false

/-- Reads the characters of a text over several lines, after its three opening quotes, up to and
with the three closing ones. Up to two quotes may stand before these. Line ends are kept as they
are. -/
def readLines (quote : Char) : Nat → List Char → Option (List Char × List Char)
  | 0, _ => none
  | _ + 1, [] => none
  | _ + 1, ['\r'] => none
  | fuel + 1, '\r' :: c :: cs =>
    if c = '\n' then do
      let (more, rest) ← readLines quote fuel cs
      some ('\r' :: '\n' :: more, rest)
    else none
  | fuel + 1, c :: cs =>
    if c = quote then
      let run := ((c :: cs).takeWhile (· == quote)).length
      if 3 ≤ run then
        let taken := min run 5
        some (List.replicate (taken - 3) quote, (c :: cs).drop taken)
      else do
        let (more, rest) ← readLines quote fuel cs
        some (c :: more, rest)
    else if c = '\\' ∧ quote = '"' then
      if endsLine cs then readLines quote fuel (skipContinued cs)
      else do
        let (e, rest) ← readEscape cs
        let (more, rest) ← readLines quote fuel rest
        some (e :: more, rest)
    else if isPlain c ∨ c = '\n' then do
      let (more, rest) ← readLines quote fuel cs
      some (c :: more, rest)
    else none

def skipLineEnd : List Char → List Char
  | '\n' :: cs => cs
  | '\r' :: '\n' :: cs => cs
  | cs => cs

def readText (cs : List Char) : Option (String × List Char) :=
  let read (r : Option (List Char × List Char)) := r.map fun (s, rest) => (String.ofList s, rest)
  match cs with
  | '"' :: '"' :: '"' :: rest => read (readLines '"' (rest.length + 1) (skipLineEnd rest))
  | '\'' :: '\'' :: '\'' :: rest => read (readLines '\'' (rest.length + 1) (skipLineEnd rest))
  | '"' :: rest => read (readLine '"' (rest.length + 1) rest)
  | '\'' :: rest => read (readLine '\'' (rest.length + 1) rest)
  | _ => none

def isBareKey (c : Char) : Bool := c.isAlphanum || c == '_' || c == '-'

def readSimpleKey (cs : List Char) : Option (String × List Char) :=
  match cs with
  | '"' :: rest =>
    (readLine '"' (rest.length + 1) rest).map fun (s, rest) => (String.ofList s, rest)
  | '\'' :: rest =>
    (readLine '\'' (rest.length + 1) rest).map fun (s, rest) => (String.ofList s, rest)
  | cs =>
    let key := cs.takeWhile isBareKey
    if key.isEmpty then none else some (String.ofList key, cs.dropWhile isBareKey)

def readParts : Nat → List Char → Option (List String × List Char)
  | 0, _ => none
  | fuel + 1, cs => do
    let (part, rest) ← readSimpleKey cs
    match skipLineBlanks rest with
    | '.' :: rest =>
      let (more, rest) ← readParts fuel (skipLineBlanks rest)
      some (part :: more, rest)
    | rest => some ([part], rest)

/-- How many brackets may stand inside one another, and how many parts a key may have. -/
def nestingLimit : Nat := 80

def readKey (cs : List Char) : Option (List String × List Char) := do
  let (key, rest) ← readParts (cs.length + 1) cs
  if key.length ≤ nestingLimit then some (key, rest) else none

end OperatorScript.Toml
