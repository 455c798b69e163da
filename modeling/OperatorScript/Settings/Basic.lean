/-!
Settings with which the program starts.
-/

set_option autoImplicit false
set_option relaxedAutoImplicit false

namespace OperatorScript

structure Settings where
  admins : List String := []
  moderators : List String := []
  ignoreAdminLinks : Bool := false
  /-- The address of the database; without one, records are kept in memory. -/
  databaseUrl : Option String := none
  logFilter : String := "info"
deriving DecidableEq, Inhabited

end OperatorScript
