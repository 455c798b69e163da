import OperatorScript.Text.Blank

/-!
The command line of the program.

Arguments are read from left to right, and the first that is wrong or asks for a notice decides. An
option takes its value from the same argument after an equals sign, or from the next argument, which
must not look like an option. Nothing may be given twice. After `--` every argument is a script.
-/

set_option autoImplicit false
set_option relaxedAutoImplicit false

namespace OperatorScript.Shell

structure Options where
  sender : Option String := none
  replied : Option String := none
  settingsFile : Option String := none
  databaseUrl : Option String := none
  buffered : Bool := false
  script : Option String := none
deriving DecidableEq, Inhabited

inductive Request where
  | version
  | usage
  | evaluate (options : Options)
deriving DecidableEq

inductive Valued where
  | sender
  | replied
  | settingsFile
  | databaseUrl
deriving DecidableEq

def Valued.ofName? (name : String) : Option Valued :=
  if name = "sender" then some .sender
  else if name = "replied" then some .replied
  else if name = "config" then some .settingsFile
  else if name = "database-url" then some .databaseUrl
  else none

namespace Options

/-- Gives an option its value, unless it has one. The path of a file must not be empty. -/
def give? (o : Options) (option : Valued) (value : String) : Option Options :=
  match option with
  | .sender => if o.sender.isNone then some { o with sender := some value } else none
  | .replied => if o.replied.isNone then some { o with replied := some value } else none
  | .settingsFile =>
    if o.settingsFile.isNone && !value.isEmpty then some { o with settingsFile := some value }
    else none
  | .databaseUrl =>
    if o.databaseUrl.isNone then some { o with databaseUrl := some value } else none

def buffer? (o : Options) : Option Options :=
  if o.buffered then none else some { o with buffered := true }

def takeScript? (o : Options) (script : String) : Option Options :=
  if o.script.isNone then some { o with script := some script } else none

end Options

inductive Argument where
  | endOfOptions
  | long (name : String) (value : Option String)
  | short (letter : Char)
  | plain (text : String)
deriving DecidableEq

def Argument.ofText (text : String) : Argument :=
  match text.toList with
  | ['-', '-'] => .endOfOptions
  | '-' :: '-' :: rest =>
    match Text.cutChars? ['='] rest with
    | some (name, value) => .long (String.ofList name) (some (String.ofList value))
    | none => .long (String.ofList rest) none
  | '-' :: letter :: _ => .short letter
  | _ => .plain text

def readScripts? (o : Options) (args : List String) : Option Request :=
  (args.foldlM Options.takeScript? o).map .evaluate

def readFrom? (o : Options) : List String → Option Request
  | [] => some (.evaluate o)
  | arg :: rest =>
    match Argument.ofText arg with
    | .endOfOptions => readScripts? o rest
    | .plain text => (o.takeScript? text).bind fun o => readFrom? o rest
    | .short letter =>
      if letter = 'V' then some .version else if letter = 'h' then some .usage else none
    | .long name (some value) =>
      (Valued.ofName? name).bind fun option =>
        (o.give? option value).bind fun o => readFrom? o rest
    | .long name none =>
      if name = "version" then some .version
      else if name = "help" then some .usage
      else if name = "buffered" then o.buffer?.bind fun o => readFrom? o rest
      else
        match Valued.ofName? name, rest with
        | some option, value :: rest =>
          match Argument.ofText value with
          | .plain value => (o.give? option value).bind fun o => readFrom? o rest
          | _ => none
        | _, _ => none

def Request.read? (args : List String) : Option Request := readFrom? {} args

end OperatorScript.Shell
