import OperatorScript.Command.Help
import OperatorScript.Command.Link
import OperatorScript.Command.Num
import OperatorScript.Command.Property
import OperatorScript.Command.Rank
import OperatorScript.Command.Report

/-!
Catalogs: the commands and modifiers that an interpreter knows, by name.

A name belongs to the last command or modifier registered under it; the place of a command in the
list is that of the first one of its name.
-/

set_option autoImplicit false
set_option relaxedAutoImplicit false

namespace OperatorScript

structure Catalog where
  commands : List Command := []
  modifiers : List Modifier := []

namespace Catalog

/-- Puts an item in the place of the first one of its name, or at the end. -/
def place {α : Type} (name : α → String) (item : α) : List α → List α
  | [] => [item]
  | x :: rest => if name x = name item then item :: rest else x :: place name item rest

def empty : Catalog := {}

def register (c : Catalog) (command : Command) : Catalog :=
  { c with commands := place Command.name command c.commands }

def registerModifier (c : Catalog) (modifier : Modifier) : Catalog :=
  { c with modifiers := place Modifier.name modifier c.modifiers }

def command? (c : Catalog) (name : String) : Option Command :=
  c.commands.find? fun x => x.name == name

def modifier? (c : Catalog) (name : String) : Option Modifier :=
  c.modifiers.find? fun x => x.name == name

def directory (c : Catalog) : List HelpEntry := c.commands.map Command.entry

def names (c : Catalog) : List String := c.commands.map Command.name

def builtinCommands : List Command :=
  [.print, .arg, .promote, .demote, .mpromote, .mdemote, .set .user, .set .thread, .get .user,
    .get .thread, .input, .ulink, .uunlink, .links, .increment .user, .increment .thread, .num,
    .help]

def builtin : Catalog :=
  (builtinCommands.foldl register empty).registerModifier Command.rise

end Catalog

end OperatorScript
