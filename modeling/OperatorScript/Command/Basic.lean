import OperatorScript.Permission
import OperatorScript.Procedure
import OperatorScript.Script.ArgList
import OperatorScript.Script.Statement
import OperatorScript.Settings.Basic
import OperatorScript.Status

/-!
Commands and modifiers.

A command is a name, a manual, and a procedure that depends on the context of its statement and
ends with a status. A modifier is a name and a procedure that chooses the permission under which the
command runs; it emits nothing.
-/

set_option autoImplicit false
set_option relaxedAutoImplicit false

namespace OperatorScript

structure HelpEntry where
  name : String
  manual : String
deriving DecidableEq

namespace HelpEntry

def firstLine (manual : String) : String :=
  String.ofList (Text.trimChars ((Text.trimChars manual.toList).takeWhile (· != '\n')))

def summary (e : HelpEntry) : String := firstLine e.manual

end HelpEntry

/-- What a command or a modifier knows of its statement. -/
structure Context where
  settings : Settings
  directory : List HelpEntry
  message : Message
  author : String
  target : String
  args : ArgList
  name : String
  modifier : Option String
  authorIsAdmin : Bool
  targetIsAdmin : Bool
  permission : Permission

namespace Context

/-- The permission of the statement, bound to its author and target. -/
def active (c : Context) : Predicate :=
  { permission := c.permission, author := c.author, target := c.target
    authorIsAdmin := c.authorIsAdmin }

/-- The risen permission, bound to the author and target: administrators always pass. -/
def risen (c : Context) : Predicate := { c.active with permission := .rise }

/-- The context of a statement in a world; it is strict until a modifier chooses otherwise. -/
def ofStatement (settings : Settings) (directory : List HelpEntry) (m : Message) (w : World)
    (s : Statement) : Context :=
  { settings, directory, message := m
    author := m.sender
    target := s.target
    args := ArgList.read s.tail
    name := s.command
    modifier := s.modifier
    authorIsAdmin := w.isAdmin m.sender
    targetIsAdmin := w.isAdmin s.target
    permission := .strict }

end Context

structure Command where
  name : String
  manual : String
  body : Context → Procedure String Status

def Command.entry (c : Command) : HelpEntry := { name := c.name, manual := c.manual }

structure Modifier where
  name : String
  body : Context → Procedure Empty Permission

namespace Procedure

def stop (chunk : String) (status : Status) : Procedure String Status := .emit chunk (.done status)

def refusal : String := "Neax::PermissionNeedRise"

def refuse : Procedure String Status := stop refusal .permissionNeedRise

def sayAll (chunks : List String) : Procedure String Unit :=
  chunks.foldr .emit (.done ())

end Procedure

end OperatorScript
