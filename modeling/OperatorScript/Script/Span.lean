/-!
Spans: scripts inside a script, written `neax[…]`.

A span ends at the first closing bracket, which must come before the end of the line. The script is
read once from left to right; an opening from which no span can be read is text. The main
statement: the pieces of a script are its whole text.
-/

set_option autoImplicit false
set_option relaxedAutoImplicit false

namespace OperatorScript.Span

inductive Piece where
  | char (c : Char)
  | span (inner : List Char)
deriving DecidableEq

def opening : List Char := ['n', 'e', 'a', 'x', '[']

abbrev Opened := Option (List Char)

def unread : Opened → List Piece
  | none => []
  | some inner => (opening ++ inner.reverse).map Piece.char

/-- Reads the pieces of a script, given what has been read of a span. No span can be read from text
that reaches the end of the line without a closing bracket, wherever in that text it would open. -/
def scanFrom : Opened → List Char → List Piece
  | opened, [] => unread opened
  | none, 'n' :: 'e' :: 'a' :: 'x' :: '[' :: cs => scanFrom (some []) cs
  | none, c :: cs => .char c :: scanFrom none cs
  | some inner, c :: cs =>
    if c = ']' then .span inner.reverse :: scanFrom none cs
    else if c = '\n' then unread (some inner) ++ .char c :: scanFrom none cs
    else scanFrom (some (c :: inner)) cs

def scan (script : List Char) : List Piece := scanFrom none script

def Piece.source : Piece → List Char
  | .char c => [c]
  | .span inner => opening ++ inner ++ [']']

def Opened.source : Opened → List Char
  | none => []
  | some inner => opening ++ inner.reverse

@[simp] theorem flatMap_source_map_char (cs : List Char) :
    (cs.map Piece.char).flatMap Piece.source = cs := by
  induction cs with
  | nil => rfl
  | cons c cs ih => simpa [Piece.source] using ih

@[simp] theorem flatMap_source_unread (opened : Opened) :
    (unread opened).flatMap Piece.source = opened.source := by
  cases opened with
  | none => rfl
  | some inner => exact flatMap_source_map_char _

private theorem flatMap_source_scanFrom (opened : Opened) (cs : List Char) :
    (scanFrom opened cs).flatMap Piece.source = opened.source ++ cs := by
  fun_induction scanFrom opened cs <;>
    simp_all [Opened.source, Piece.source, opening]

theorem flatMap_source_scan (script : List Char) :
    (scan script).flatMap Piece.source = script :=
  flatMap_source_scanFrom none script

end OperatorScript.Span
