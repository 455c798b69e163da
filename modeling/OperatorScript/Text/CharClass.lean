/-!
Classes of characters given by the extents of their code points.
-/

set_option autoImplicit false
set_option relaxedAutoImplicit false

namespace OperatorScript.Text

/-- A class of characters: extents of code points, each with its first and its last. -/
structure CharClass where
  extents : List (Nat × Nat)

def CharClass.contains (k : CharClass) (c : Char) : Bool :=
  k.extents.any fun (first, last) => first ≤ c.toNat && c.toNat ≤ last

end OperatorScript.Text
