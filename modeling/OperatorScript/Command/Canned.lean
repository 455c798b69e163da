import OperatorScript.Command.Basic
import OperatorScript.Json.Reader

/-!
Commands and modifiers given by data, and outages given by lists: what an interpreter is tried out
with.
-/

set_option autoImplicit false
set_option relaxedAutoImplicit false

namespace OperatorScript

open Json

/-- How something given by data ends: with a value, a failure, or a panic. -/
inductive CannedEnd (α : Type) where
  | value (result : α)
  | failure (reason : Failure)
  | panic (text : Option String)

def CannedEnd.procedure {Out α : Type} : CannedEnd α → Procedure Out α
  | .value result => .done result
  | .failure reason => .fail reason
  | .panic text => .panic text

structure CannedCommand where
  name : String
  manual : String := ""
  chunks : List String := []
  reports : Bool := false
  ending : CannedEnd Status

namespace CannedCommand

def permissionWord : Permission → String
  | .strict => "Strict"
  | .rise => "Rise"

def permissionReport (c : Context) : String :=
  let other := (c.args.arg? 0).getD ""
  Text.join " "
    [permissionWord c.permission, toString c.active.allowsTarget,
      toString (c.active.allows c.author other), toString c.risen.allowsTarget,
      toString (c.risen.allows c.author other)]

def command (x : CannedCommand) : Command where
  name := x.name
  manual := x.manual
  body c := do
    Procedure.sayAll (if x.reports then x.chunks ++ [permissionReport c] else x.chunks)
    x.ending.procedure

end CannedCommand

structure CannedModifier where
  name : String
  ending : CannedEnd Permission

def CannedModifier.modifier (x : CannedModifier) : Modifier where
  name := x.name
  body _ := x.ending.procedure

/-- Accesses that break down: those to one record, or only those that read or write it. -/
structure Disruption where
  scope : Scope
  id : String
  onRead : Bool
  onWrite : Bool
  breakdown : Breakdown

def Disruption.hits (d : Disruption) (a : Access) : Bool :=
  d.scope == a.scope && d.id == a.id && (if a.isWrite then d.onWrite else d.onRead)

/-- The outage in which the first disruption that hits an access decides how it breaks down. -/
def Outage.ofDisruptions (ds : List Disruption) : Outage := fun _ a =>
  (ds.find? fun d => d.hits a).map Disruption.breakdown

/-- The error of reading a text as JSON. A text that is JSON stands for the empty one. -/
def syntaxErrorOf (text : String) : SyntaxError :=
  match Value.read text with
  | .error e => e
  | .ok _ => SyntaxError.after .valueCutShort 0 []

end OperatorScript
