import OperatorScript.Number.Reading
import OperatorScript.Pattern.Basic
import OperatorScript.Text.Offset

/-!
Log filters: which form a directive must have.

A directive is a level, or a target with an optional span and an optional level:
`target[span]=level`. A span may name fields between braces, each with an optional value to match.
Nothing may follow a directive but one comma.

Blanks around a directive do not count when it is read, but its parts are taken from the whole text,
at the places that they have without the blanks. Blanks in front thus shift every part; if a part
then begins or ends inside a character, the directive is torn.
-/

set_option autoImplicit false
set_option relaxedAutoImplicit false

namespace OperatorScript.LogFilter

inductive Flaw where
  | malformed
  | torn
deriving DecidableEq

def levelNames : List String := ["error", "warn", "info", "debug", "trace", "off"]

/-- Whether a text is a level: a name in any case, a number up to five, or nothing. -/
def isLevel (text : List Char) : Bool :=
  let digits :=
    match text with
    | '+' :: rest => rest
    | cs => cs
  let number := digits.dropWhile (· == '0')
  text.isEmpty || levelNames.contains (String.ofList (text.map Char.toLower)) ||
    (!digits.isEmpty && digits.all Char.isDigit &&
      (number.isEmpty || (number.length == 1 && number.all (· ≤ '5'))))

def isMatcher (text : List Char) : Bool :=
  (Binary64.read? (String.ofList text)).isSome || Pattern.isWellFormed text

/-- Whether a text is a field: a name, with a value after an equals sign if there is one. What
follows a second equals sign does not count. -/
def isField (text : List Char) : Bool :=
  match Text.stretches (· == '=') text with
  | _ :: value :: _ => !text.isEmpty && isMatcher value
  | _ => !text.isEmpty

inductive Place where
  | start
  | target
  | span (start : Nat)
  | field (start : Nat)
  | fields
  | afterSpan
  | level (start : Nat)
  | finish

def startsTarget (c : Char) : Bool :=
  c == '-' || c == ':' || c == '_' || Text.isAlphanumeric c

def takePart (whole : List Char) (start stop : Nat) (holds : List Char → Bool) (next : Place) :
    Except Flaw Place :=
  match Text.slice? start stop whole with
  | none => .error .torn
  | some part => if holds part then .ok next else .error .malformed

def anyPart (_ : List Char) : Bool := true

def Place.next (whole : List Char) (offset : Nat) (c : Char) : Place → Except Flaw Place
  | .start =>
    if c = '[' then .ok (.span (offset + 1))
    else if startsTarget c then .ok .target
    else .error .malformed
  | .target =>
    if c = '=' then takePart whole 0 offset anyPart (.level (offset + 1))
    else if c = '[' then takePart whole 0 offset anyPart (.span (offset + 1))
    else if c = ',' then .ok .finish
    else .ok .target
  | .span begun =>
    if c = ']' then takePart whole begun offset anyPart .afterSpan
    else if c = '\x7b' then takePart whole begun offset anyPart (.field (offset + 1))
    else .ok (.span begun)
  | .field begun =>
    if c = '\x7d' then takePart whole begun offset isField .fields
    else if c = ',' then takePart whole begun offset isField (.field (offset + 1))
    else .ok (.field begun)
  | .fields => if c = ']' then .ok .afterSpan else .error .malformed
  | .afterSpan => if c = '=' then .ok (.level (offset + 1)) else .error .malformed
  | .level begun =>
    if c = ',' then takePart whole begun offset isLevel .finish else .ok (.level begun)
  | .finish => .error .malformed

/-- What a directive that ends at a place comes to; a level goes to the end of the whole text. -/
def Place.finished (whole : List Char) : Place → Except Flaw Place
  | .target => .ok .finish
  | .level begun => takePart whole begun (Text.byteCount whole) isLevel .finish
  | .afterSpan => .ok .finish
  | .finish => .ok .finish
  | _ => .error .malformed

def Place.read (whole : List Char) : Nat → List Char → Place → Except Flaw Place
  | _, [], place => place.finished whole
  | offset, c :: cs, place => do
    Place.read whole (offset + c.utf8Size) cs (← place.next whole offset c)

def flaw? (text : String) : Option Flaw :=
  match Place.read text.toList 0 (Text.trimChars text.toList) .start with
  | .ok _ => none
  | .error flaw => some flaw

def anyTorn (list : String) : Bool :=
  (Text.pieces (· == ',') list.toList).any fun d => flaw? (String.ofList d) == some .torn

example : flaw? "a=info" = none ∧ flaw? " a=info" = some .malformed := by decide +kernel
example : flaw? " aé=info" = some .torn := by decide +kernel

end OperatorScript.LogFilter
