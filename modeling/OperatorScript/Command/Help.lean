import OperatorScript.Command.Basic

/-!
The command that lists and describes commands.
-/

set_option autoImplicit false
set_option relaxedAutoImplicit false

namespace OperatorScript.Command

open Procedure

def helpHeader : String := "More Usage: help <command>\n\nAvailable commands:\n"

def helpFooter : List String :=
  ["", "Foundational Syntax:", "<command>::<target id | 'self' | 'replied'> <arg1> <arg2>",
    "%var_name% can be used for input variables.",
    "neax[example::idk] can be used to run nested neax script inline"]

def helpLine (e : HelpEntry) : String := "  " ++ e.name ++ " - " ++ e.summary

def wantsFullHelp (args : ArgList) : Bool :=
  (args.args.drop 1).contains "-h" || args.hasFlag "help"

def helpText (args : ArgList) (e : HelpEntry) : String :=
  if wantsFullHelp args then "Usage: " ++ e.name ++ " [options] <args>\n\n" ++ Text.trim e.manual
  else e.name ++ " - " ++ e.summary

def help : Command where
  name := "help"
  manual :=
    Text.join "\n"
      ["Lists commands or describes one.",
        "Usage: help:: [command] [-h | --help]",
        "With a command name, shows its summary; add -h or --help for the full text."]
  body c :=
    match c.args.arg? 0 with
    | none => do
      sayAll ([helpHeader] ++ c.directory.map helpLine ++ helpFooter)
      return .success
    | some name =>
      match c.directory.find? fun e => e.name == name with
      | none => stop ("Unknown command: " ++ name) .commandNotFound
      | some entry => stop (helpText c.args entry) .success

end OperatorScript.Command
