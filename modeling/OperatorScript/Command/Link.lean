import OperatorScript.Command.Basic
import OperatorScript.LinkTable

/-!
Commands on the link table. Changing it needs an administrator; anyone may list it.
-/

set_option autoImplicit false
set_option relaxedAutoImplicit false

namespace OperatorScript.Command

open Json Procedure

def ulink : Command where
  name := "ulink"
  manual :=
    Text.join "\n"
      ["Makes the target use another identity's user id.",
        "Usage: ulink::<target> <linked id>",
        "Admin only. Links that would point back at the target are refused."]
  body c :=
    if !c.authorIsAdmin then refuse
    else if c.target.isEmpty then stop "Missing target." .missingOrInvalidArgs
    else if c.targetIsAdmin && c.settings.ignoreAdminLinks then
      stop "Cannot modify uid link of a bot admin." .missingOrInvalidArgs
    else
      match c.args.arg? 0 with
      | none => stop "Missing link uid as first arg." .missingOrInvalidArgs
      | some linked => do
        let table ← LinkTable.load
        if table.isCircular c.target linked then stop "Circular link detected." .malformedInput
        else do
          (table.link c.target linked).save
          say ("Link success [" ++ c.target ++ "]")
          say (LinkTable.pairToValue (c.target, linked)).pretty
          stop (c.target ++ " will now use uid of " ++ linked) .success

/-- Removes the first link to the identity to which the target is linked. -/
def uunlink : Command where
  name := "uunlink"
  manual :=
    Text.join "\n"
      ["Removes a uid link.",
        "Usage: uunlink::<target>",
        "Admin only. Drops the first mapping that points at the target's linked id."]
  body c :=
    if !c.authorIsAdmin then refuse
    else if c.target.isEmpty then stop "Missing target." .missingOrInvalidArgs
    else do
      let table ← LinkTable.load
      match table.linked? c.target with
      | none => stop "The target has no linked uid." .missingOrInvalidArgs
      | some linked => do
        let key := (table.holder? linked).getD c.target
        let table := table.unlink key
        table.save
        let remaining :=
          match table.linked? c.target with
          | some id => Value.str id
          | none => .null
        say ("Unlink success [" ++ c.target ++ "]")
        say (Value.arr [.str c.target, remaining]).pretty
        stop (c.target ++ " will no longer use uid of " ++ key) .success

def links : Command where
  name := "links"
  manual :=
    Text.join "\n"
      ["Lists every uid link as [target, linked] pairs.",
        "Usage: links::"]
  body _ := do
    let table ← LinkTable.load
    if table.isEmpty then stop "No linked uids." .missingOrInvalidArgs
    else stop table.toValue.pretty .success

end OperatorScript.Command
