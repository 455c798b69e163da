import OperatorScript.Toml.Scalar
import OperatorScript.Toml.Text
import OperatorScript.Toml.Value

/-!
Reading TOML documents.

A document is malformed if any of its expressions is, or if two of them define one key. Lists and
tables may stand inside one another to a limited depth, and keys have a limited number of parts.
-/

set_option autoImplicit false
set_option relaxedAutoImplicit false

namespace OperatorScript.Toml

def isWordChar (c : Char) : Bool :=
  c.isAlphanum || c == '+' || c == '-' || c == '_' || c == '.' || c == ':'

/-- Takes a word off the front; a blank between a date and a time belongs to it. -/
def takeWord (cs : List Char) : List Char × List Char :=
  let word := cs.takeWhile isWordChar
  let rest := cs.dropWhile isWordChar
  match rest with
  | ' ' :: more =>
    let time := more.takeWhile isWordChar
    if takeDate? word == some [] && ((takeTime? time).isSome) then
      (word ++ ' ' :: time, more.dropWhile isWordChar)
    else (word, rest)
  | rest => (word, rest)

def readWord (cs : List Char) : Option (Value × List Char) :=
  let (word, rest) := takeWord cs
  if word = ['t', 'r', 'u', 'e'] then some (.bool true, rest)
  else if word = ['f', 'a', 'l', 's', 'e'] then some (.bool false, rest)
  else if isOther word then some (.other, rest)
  else none

def readItems (value : List Char → Option (Value × List Char)) :
    Nat → List Char → Option (List Value × List Char)
  | 0, _ => none
  | fuel + 1, cs => do
    match ← skipFiller false cs with
    | ']' :: rest => some ([], rest)
    | cs =>
      let (v, rest) ← value cs
      match ← skipFiller false rest with
      | ']' :: rest => some ([v], rest)
      | ',' :: rest =>
        let (more, rest) ← readItems value fuel rest
        some (v :: more, rest)
      | _ => none

def readPair (skip : List Char → Option (List Char))
    (value : List Char → Option (Value × List Char)) (cs : List Char) :
    Option ((List String × Value) × List Char) := do
  let (key, rest) ← readKey cs
  match ← skip rest with
  | '=' :: rest =>
    let (v, rest) ← value (← skip rest)
    some ((key, v), rest)
  | _ => none

/-- Reads the pairs of a table, after its opening brace or a comma, up to and with the closing
brace. Blanks, line ends and comments may stand everywhere but inside a key. -/
def readPairs (value : List Char → Option (Value × List Char)) :
    Nat → List Char → Option (List (List String × Value) × List Char)
  | 0, _ => none
  | fuel + 1, cs => do
    match ← skipFiller false cs with
    | '\x7d' :: rest => some ([], rest)
    | cs =>
      let (pair, rest) ← readPair (skipFiller false) value cs
      match ← skipFiller false rest with
      | '\x7d' :: rest => some ([pair], rest)
      | ',' :: rest =>
        let (more, rest) ← readPairs value fuel rest
        some (pair :: more, rest)
      | _ => none

def entriesOfPairs (pairs : List (List String × Value)) : Option Entries :=
  pairs.foldlM (fun es (key, v) => es.assign v key) []

def readValue (levels : Nat) (cs : List Char) : Option (Value × List Char) :=
  match cs with
  | '"' :: rest => (readText ('"' :: rest)).map fun (s, rest) => (.text s, rest)
  | '\'' :: rest => (readText ('\'' :: rest)).map fun (s, rest) => (.text s, rest)
  | '[' :: rest =>
    match levels with
    | 0 => none
    | levels + 1 =>
      (readItems (readValue levels) (rest.length + 1) rest).map fun (items, rest) =>
        (.list items, rest)
  | '\x7b' :: rest =>
    match levels with
    | 0 => none
    | levels + 1 => do
      let (pairs, rest) ← readPairs (readValue levels) (rest.length + 1) rest
      let es ← entriesOfPairs pairs
      some (.table (Node.entriesToValues es), rest)
  | cs => readWord cs

structure Document where
  entries : Entries := []
  header : List String := []

def readHeader (closing : List Char) (cs : List Char) : Option (List String × List Char) := do
  let (key, rest) ← readKey (skipLineBlanks cs)
  if closing.isPrefixOf rest then some (key, rest.drop closing.length) else none

def readExpression (d : Document) (cs : List Char) : Option (Document × List Char) :=
  match cs with
  | '[' :: '[' :: rest => do
    let (header, rest) ← readHeader [']', ']'] rest
    let entries ← d.entries.openElement header
    some ({ entries, header }, rest)
  | '[' :: rest => do
    let (header, rest) ← readHeader [']'] rest
    let entries ← d.entries.openTable header
    some ({ entries, header }, rest)
  | cs => do
    let ((key, v), rest) ← readPair (some ∘ skipLineBlanks) (readValue nestingLimit) cs
    let entries ← d.entries.within (fun es => es.assign v key) d.header
    some ({ d with entries }, rest)

def readExpressions : Nat → Document → List Char → Option Document
  | 0, _, _ => none
  | fuel + 1, d, cs => do
    match ← skipFiller false cs with
    | [] => some d
    | cs =>
      let (d, rest) ← readExpression d cs
      let rest ← endLine false rest
      readExpressions fuel d rest

def readDocument (s : String) : Option (List (String × Value)) :=
  let cs :=
    match s.toList with
    | '\ufeff' :: cs => cs
    | cs => cs
  (readExpressions (cs.length + 1) {} cs).map fun d => Node.entriesToValues d.entries

end OperatorScript.Toml
