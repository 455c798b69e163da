import OperatorScript.Message

/-!
Placeholders: `%name%` in a script stands for a field of the message.

A name is an identifier of ASCII letters, digits and underscores. The script is read once from left
to right; a percent sign that closes one placeholder opens no other, and one from which no
placeholder can be read is text. Text put in for a placeholder is not read again. The main
statement: the pieces of a script are its whole text.
-/

set_option autoImplicit false
set_option relaxedAutoImplicit false

namespace OperatorScript.Placeholder

open Json

inductive Piece where
  | char (c : Char)
  | field (name : List Char)
deriving DecidableEq

def isNameStart (c : Char) : Bool := c.isAlpha || c == '_'

def isNameRest (c : Char) : Bool := isNameStart c || c.isDigit

/-- What has been read of a placeholder: nothing, or a percent sign and the characters after it, the
last one first. -/
abbrev Opened := Option (List Char)

def unread : Opened → List Piece
  | none => []
  | some name => Piece.char '%' :: name.reverse.map Piece.char

/-- Reads the pieces of a script, given what has been read of a placeholder. -/
def scanFrom : Opened → List Char → List Piece
  | opened, [] => unread opened
  | none, c :: cs => if c = '%' then scanFrom (some []) cs else .char c :: scanFrom none cs
  | some name, c :: cs =>
    if c = '%' then
      if name.isEmpty then .char '%' :: scanFrom (some []) cs
      else .field name.reverse :: scanFrom none cs
    else if (if name.isEmpty then isNameStart c else isNameRest c) then
      scanFrom (some (c :: name)) cs
    else unread (some name) ++ .char c :: scanFrom none cs

def scan (script : List Char) : List Piece := scanFrom none script

def Piece.source : Piece → List Char
  | .char c => [c]
  | .field name => '%' :: name ++ ['%']

def Opened.source : Opened → List Char
  | none => []
  | some name => '%' :: name.reverse

@[simp] theorem flatMap_source_map_char (cs : List Char) :
    (cs.map Piece.char).flatMap Piece.source = cs := by
  induction cs with
  | nil => rfl
  | cons c cs ih => simpa [Piece.source] using ih

@[simp] theorem flatMap_source_unread (opened : Opened) :
    (unread opened).flatMap Piece.source = opened.source := by
  cases opened with
  | none => rfl
  | some name =>
    simp only [unread, Opened.source, List.flatMap_cons, flatMap_source_map_char]
    rfl

private theorem flatMap_source_scanFrom (opened : Opened) (cs : List Char) :
    (scanFrom opened cs).flatMap Piece.source = opened.source ++ cs := by
  fun_induction scanFrom opened cs <;>
    simp_all [Opened.source, Piece.source]

theorem flatMap_source_scan (script : List Char) :
    (scan script).flatMap Piece.source = script :=
  flatMap_source_scanFrom none script

/-- Whether a value is shown at all: `null`, `false`, zero and the empty string are not. -/
def isShown : Value → Bool
  | .null => false
  | .bool b => b
  | .num n => !n.toBinary64.isZero
  | .str s => !s.isEmpty
  | .arr _ => true
  | .obj _ => true

/-- The text put in for a field: a string as it is, any other value as JSON. -/
def fieldText (value : Option Value) : String :=
  match value with
  | none => "undefined"
  | some v =>
    if isShown v then
      match v with
      | .str s => s
      | v => v.compact
    else "undefined"

def Piece.render (m : Message) : Piece → List Char
  | .char c => [c]
  | .field name => (fieldText (m.field? (String.ofList name))).toList

def fill (script : String) (m : Message) : String :=
  String.ofList ((scan script.toList).flatMap (Piece.render m))

end OperatorScript.Placeholder
