/-!
Places in a text, counted in the bytes of its UTF-8 form.

Only a place between two characters, or at an end of the text, is a place to cut at.
-/

set_option autoImplicit false
set_option relaxedAutoImplicit false

namespace OperatorScript.Text

def byteCount (cs : List Char) : Nat := cs.foldl (fun n c => n + c.utf8Size) 0

/-- Cuts a text after so many bytes, unless that place is inside a character or past the end. -/
def splitBytes? : Nat → List Char → Option (List Char × List Char)
  | 0, cs => some ([], cs)
  | _ + 1, [] => none
  | n + 1, c :: cs =>
    if c.utf8Size ≤ n + 1 then
      (splitBytes? (n + 1 - c.utf8Size) cs).map fun (front, rest) => (c :: front, rest)
    else none

def slice? (start stop : Nat) (cs : List Char) : Option (List Char) := do
  let (_, rest) ← splitBytes? start cs
  let (part, _) ← splitBytes? (stop - start) rest
  some part

example : slice? 1 3 "aé=".toList = some ['é'] ∧ slice? 1 2 "aé=".toList = none := by
  decide +kernel

end OperatorScript.Text
