import OperatorScript.Command.Basic

/-!
Commands that show what the interpreter was given: its text, its statement, its message.
-/

set_option autoImplicit false
set_option relaxedAutoImplicit false

namespace OperatorScript.Command

open Json Procedure

def print : Command where
  name := "print"
  manual :=
    Text.join "\n"
      ["Writes its arguments back, separated by single spaces.",
        "Usage: print::self <text...>",
        "Prints [nothing] when no text is given."]
  body c :=
    if c.args.args.isEmpty then stop "[nothing]" .missingOrInvalidArgs
    else stop (c.args.rest 0) .success

def optionalText : Option String → Value
  | some s => .str s
  | none => .null

def statementReport (c : Context) : Value :=
  .obj (Dict.ofEntries
    [("nsxName", .str c.name), ("nsxuCreated", c.args.toValue), ("nsxTarget", .str c.target),
      ("nsxAuthor", .str c.author), ("isTargetAdmin", .bool c.targetIsAdmin),
      ("nsxMod", optionalText c.modifier), ("permission", .str c.permission.name),
      ("isAllowed", .bool c.active.allowsTarget), ("isAuthorAdmin", .bool c.authorIsAdmin)])

def arg : Command where
  name := "arg"
  manual :=
    Text.join "\n"
      ["Shows how the interpreter understood the statement.",
        "Usage: [modifier] arg::<target> [args...] [--flags]",
        "Lists the command name, parsed arguments and flags, resolved target and author,",
        "the modifier, whether the active permission allows acting on the target, and",
        "the admin status of author and target."]
  body c := stop (statementReport c).pretty .success

/-- A value in output: a string as it is, any other value as JSON, `null` where there is none. -/
def plainText : Option Value → String
  | some (.str s) => s
  | some v => v.pretty
  | none => Value.null.pretty

def input : Command where
  name := "input"
  manual :=
    Text.join "\n"
      ["Reads a field of the message that carried the script.",
        "Usage: input::self <key> [nested keys...]",
        "Strings print as-is, everything else as JSON. Prints [Invalid] without a key."]
  body c :=
    if c.args.args.isEmpty then stop "[Invalid]" .missingOrInvalidArgs
    else stop (plainText (c.message.toValue.get? (pathKeys c.args.args))) .success

end OperatorScript.Command
