import OperatorScript.Number.Binary64

/-!
Arithmetic of floating-point numbers: each operation takes the exact result and rounds it once.

The sign of a zero result follows the usual rules: a sum of opposite numbers is positive zero, and
products and quotients take the sign that the signs of the operands give. A number times a power of
ten is rounded more than once, since powers of ten are rounded themselves.
-/

set_option autoImplicit false
set_option relaxedAutoImplicit false

namespace OperatorScript.Binary64

def add : Binary64 → Binary64 → Binary64
  | .nan, _ => .nan
  | _, .nan => .nan
  | .infinite s, .infinite t => if s = t then .infinite s else .nan
  | .infinite s, .finite .. => .infinite s
  | .finite .., .infinite t => .infinite t
  | .finite s m e _, .finite t n f _ =>
    let a : Int := (m * Nat.pow 2 e : Nat)
    let b : Int := (n * Nat.pow 2 f : Nat)
    let sum := (if s then -a else a) + (if t then -b else b)
    if sum = 0 then zero (s && t) else ofUnits (decide (sum < 0)) sum.natAbs 1

def mul : Binary64 → Binary64 → Binary64
  | .nan, _ => .nan
  | _, .nan => .nan
  | .infinite s, .infinite t => .infinite (s != t)
  | .infinite s, .finite t n _ _ => if n = 0 then .nan else .infinite (s != t)
  | .finite s m _ _, .infinite t => if m = 0 then .nan else .infinite (s != t)
  | .finite s m e _, .finite t n f _ => ofUnits (s != t) (m * Nat.pow 2 e * (n * Nat.pow 2 f)) one

def div : Binary64 → Binary64 → Binary64
  | .nan, _ => .nan
  | _, .nan => .nan
  | .infinite _, .infinite _ => .nan
  | .infinite s, .finite t _ _ _ => .infinite (s != t)
  | .finite s _ _ _, .infinite t => zero (s != t)
  | .finite s m e _, .finite t n f _ =>
    if n = 0 then if m = 0 then .nan else .infinite (s != t)
    else ofUnits (s != t) (m * Nat.pow 2 e * one) (n * Nat.pow 2 f)

/-- The greatest integral number that is not above the number; zero keeps its sign. -/
def floor : Binary64 → Binary64
  | .finite s m e _ =>
    let magnitude := m * Nat.pow 2 e
    let whole := if s then (magnitude + (one - 1)) / one else magnitude / one
    ofUnits s (whole * one) 1
  | x => x

instance : Add Binary64 := ⟨add⟩
instance : Mul Binary64 := ⟨mul⟩
instance : Div Binary64 := ⟨div⟩

def isZero : Binary64 → Bool
  | .finite _ m _ _ => m == 0
  | _ => false

/-- The number nearest to a power of ten, infinite past the greatest number. -/
def powerOfTen (exponent : Nat) : Binary64 := ofDecimal false 1 exponent

/-- The number times a power of ten, rounded at each step: one product, or one quotient for each
`10 ^ 308` and one for the rest. -/
def timesPowerOfTen (x : Binary64) (scale : Int) : Binary64 :=
  if x.isZero then x
  else if 0 ≤ scale then x * powerOfTen scale.toNat
  else if -308 ≤ scale then x / powerOfTen scale.natAbs
  else timesPowerOfTen (x / powerOfTen 308) (scale + 308)
termination_by scale.natAbs
decreasing_by omega

end OperatorScript.Binary64
