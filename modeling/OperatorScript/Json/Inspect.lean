import OperatorScript.Json.Printer
import OperatorScript.Number.Text

/-!
Inspection: a value laid out for people, down to a depth.

A container stands on one line if that line has at most 72 bytes and none of its parts is broken;
otherwise each part has a line of its own. Containers below the depth are named, not opened. Names
that are identifiers are bare; other names and all strings stand between single quotes.
-/

set_option autoImplicit false
set_option relaxedAutoImplicit false

namespace OperatorScript.Json

/-- The widest line, in bytes, on which a container is kept whole. -/
def inspectWidth : Nat := 72

def inspectDepth : Nat := 2

def inspectChar (c : Char) : List Char :=
  if c = '\\' then ['\\', '\\']
  else if c = '\'' then ['\\', '\'']
  else if c = '\n' then ['\\', 'n']
  else [c]

def inspectString (s : String) : String :=
  String.ofList ('\'' :: s.toList.flatMap inspectChar ++ ['\''])

def isIdentStart (c : Char) : Bool := c.isAlpha || c == '_' || c == '$'

def isIdentRest (c : Char) : Bool := isIdentStart c || c.isDigit

def inspectName (name : String) : String :=
  match name.toList with
  | c :: rest => if isIdentStart c && rest.all isIdentRest then name else inspectString name
  | [] => inspectString name

/-- Brackets around parts, on one line if it is short enough and no part is broken. -/
def inspectGroup (left right : String) (level : Nat) (parts : List String) : String :=
  let line := left ++ " " ++ Text.join ", " parts ++ " " ++ right
  if line.utf8ByteSize ≤ inspectWidth ∧ !line.toList.contains '\n' then line
  else block left right level parts

def Number.inspect : Number → String
  | .integer value _ => toString value
  | .real value _ => value.text

mutual

def Value.inspectAt (depth level : Nat) : Value → String
  | .null => "null"
  | .bool b => toString b
  | .num n => n.inspect
  | .str s => inspectString s
  | .arr [] => "[]"
  | .obj [] => "\x7b\x7d"
  | .arr (v :: rest) =>
    if depth < level then "[Array]"
    else
      inspectGroup "[" "]" level
        (v.inspectAt depth (level + 1) :: inspectItems depth (level + 1) rest)
  | .obj ((k, v) :: rest) =>
    if depth < level then "[Object]"
    else
      inspectGroup "\x7b" "\x7d" level
        ((inspectName k ++ ": " ++ v.inspectAt depth (level + 1)) ::
          inspectMembers depth (level + 1) rest)

def Value.inspectItems (depth level : Nat) : List Value → List String
  | [] => []
  | v :: rest => v.inspectAt depth level :: inspectItems depth level rest

def Value.inspectMembers (depth level : Nat) : List (String × Value) → List String
  | [] => []
  | (k, v) :: rest =>
    (inspectName k ++ ": " ++ v.inspectAt depth level) :: inspectMembers depth level rest

end

/-- The value opened down to `depth` levels of nesting. -/
def Value.inspect (v : Value) (depth : Nat) : String := v.inspectAt depth 0

end OperatorScript.Json
