import OperatorScript.Command.Basic

/-!
Commands that grant and revoke ranks. They need an administrator.
-/

set_option autoImplicit false
set_option relaxedAutoImplicit false

namespace OperatorScript.Command

open Procedure

def rankNoun : Rank → String
  | .admin => "admin"
  | .moderator => "moderator"

def rankText (rank : Rank) (isGrant changed : Bool) (target : String) : String :=
  (match isGrant, changed with
    | true, true => "Added as "
    | true, false => "Already "
    | false, true => "Removed as "
    | false, false => "Not ") ++ rankNoun rank ++ ". [" ++ target ++ "]"

def rankAct (rank : Rank) (isGrant : Bool) (target : String) : Roles.Act :=
  if isGrant then .grant rank target else .revoke rank target

def rankBody (rank : Rank) (isGrant : Bool) (c : Context) : Procedure String Status :=
  if c.target.isEmpty then stop "Target not found." .missingOrInvalidArgs
  else if !c.authorIsAdmin then refuse
  else do
    let changed ← perform (rankAct rank isGrant c.target)
    stop (rankText rank isGrant changed c.target)
      (if changed then .success else .missingOrInvalidArgs)

def promote : Command where
  name := "promote"
  manual := "Grants the admin rank.\nUsage: promote::<target>\nAdmin only."
  body := rankBody .admin true

def demote : Command where
  name := "demote"
  manual := "Revokes the admin rank.\nUsage: demote::<target>\nAdmin only."
  body := rankBody .admin false

def mpromote : Command where
  name := "mpromote"
  manual := "Grants the moderator rank.\nUsage: mpromote::<target>\nAdmin only."
  body := rankBody .moderator true

def mdemote : Command where
  name := "mdemote"
  manual := "Revokes the moderator rank.\nUsage: mdemote::<target>\nAdmin only."
  body := rankBody .moderator false

/-- The modifier under which administrators may act on anyone. -/
def rise : Modifier where
  name := "rise"
  body c := .done (if c.authorIsAdmin then .rise else .strict)

end OperatorScript.Command
