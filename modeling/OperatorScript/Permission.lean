/-!
Permissions: who may act on whom.

Under the strict permission an actor may act on itself only. Under the risen permission an
administrator may act on anyone; every other actor stays strict.
-/

set_option autoImplicit false
set_option relaxedAutoImplicit false

namespace OperatorScript

inductive Permission where
  | strict
  | rise
deriving DecidableEq, Inhabited

def Permission.name : Permission → String
  | .strict => "strict"
  | .rise => "rise"

/-- A permission bound to the actor of a script and the target of its statement. -/
structure Predicate where
  permission : Permission
  author : String
  target : String
  authorIsAdmin : Bool
deriving DecidableEq

namespace Predicate

def isWidened (p : Predicate) : Bool := p.permission == .rise && p.authorIsAdmin

def allows (p : Predicate) (a b : String) : Bool := p.isWidened || a == b

def allowsTarget (p : Predicate) : Bool := p.allows p.author p.target

end Predicate

end OperatorScript
