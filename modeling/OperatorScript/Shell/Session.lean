import OperatorScript.Database.Address
import OperatorScript.Interpreter
import OperatorScript.Settings.Load
import OperatorScript.Shell.LogFilter
import OperatorScript.Shell.Options

/-!
Sessions of the program: from its command line to its output.

A script on the command line is evaluated alone, and the program ends with the number of its status.
Without one, every line of the input that is not blank is a script, evaluated in the state that the
line before it left.
-/

set_option autoImplicit false
set_option relaxedAutoImplicit false

namespace OperatorScript.Shell

structure Output where
  stdout : String
  exit : Nat
deriving DecidableEq

def versionText : String := "neax 0.1.0\n"

def usageText : String :=
  "Usage: neax [--sender ID] [--replied ID] [--config FILE] [--database-url URL] [--buffered] " ++
    "[SCRIPT]\n"

def defaultSender : String := "0"

structure Session where
  interpreter : Interpreter
  message : Message
  mode : Mode
  state : State

inductive StartError where
  /-- The file `.env` sets a variable to what none can hold. -/
  | impossibleVariable
  | settings (error : Settings.LoadError)
  | logFilter (directive : String)
  | tornFilter
  | database (error : StoreError)

/-- The number with which the program ends if it does not start. An impossible variable and a torn
directive break it off. -/
def StartError.exit : StartError → Nat
  | .impossibleVariable => 101
  | .tornFilter => 101
  | _ => 1

def logVariable : String := "RUST_LOG"

def settingsFor (read : FileReader) (env : Environment) (o : Options) :
    Except Settings.LoadError Settings :=
  match o.settingsFile with
  | some path => Settings.load read path
  | none => Settings.ofEnvironment read env

/-- The environment in which the program runs: without a file of settings on its command line,
`.env` extends it. -/
def environmentFor (read : FileReader) (env : Environment) (o : Options) : Environment :=
  match o.settingsFile with
  | some _ => env
  | none => Settings.extendedBy read env

/-- Sets up the log filter from the directive of the settings, which must be well formed, and those
of the environment, which are passed over if they are malformed. -/
def checkLogFilter (directive : String) (env : Environment) : Except StartError Unit :=
  match LogFilter.flaw? directive with
  | some .malformed => .error (.logFilter directive)
  | some .torn => .error .tornFilter
  | none =>
    if LogFilter.anyTorn ((env.get? logVariable).getD "") then .error .tornFilter else .ok ()

def Session.start (read : FileReader) (env : Environment) (o : Options) :
    Except StartError Session :=
  if (environmentFor read env o).holdsZero then .error .impossibleVariable
  else
    match settingsFor read env o with
    | .error e => .error (.settings e)
    | .ok settings =>
      match checkLogFilter settings.logFilter (environmentFor read env o) with
      | .error e => .error e
      | .ok () =>
        match o.databaseUrl.or settings.databaseUrl with
        | some address => .error (.database (Database.connect address))
        | none =>
          .ok {
            interpreter := { settings }
            message := { sender := o.sender.getD defaultSender, repliedTo := o.replied }
            mode := if o.buffered then .buffered else .streaming
            state := { world := { roles := Roles.ofLists settings.admins settings.moderators } } }

/-- What is printed of an evaluation: every string that it sent, and its status, a line each. -/
def printed (run : Run) : String :=
  String.join (run.sent.map (· ++ "\n")) ++ "[" ++ run.evaluation.status.name ++ "]\n"

def Session.evaluate (s : Session) (script : String) : Run :=
  s.interpreter.run s.message s.mode script s.state

def Session.after (s : Session) (run : Run) : Session := { s with state := run.stop }

/-- Evaluates a line of input: what is printed, and the session after it. Blank lines are passed
over. -/
def Session.line (s : Session) (line : String) : String × Session :=
  let script := Text.trim line
  if script.isEmpty then ("", s)
  else
    let run := s.evaluate script
    (printed run, s.after run)

def Session.lines : List String → Session → String
  | [], _ => ""
  | line :: rest, s =>
    let (text, s) := s.line line
    text ++ Session.lines rest s

def inputLines (input : String) : List String :=
  (Text.stretches (· == '\n') input.toList).map String.ofList

def Session.run (s : Session) (script : Option String) (input : String) : Output :=
  match script with
  | some script =>
    let run := s.evaluate script
    { stdout := printed run, exit := run.evaluation.status.number }
  | none => { stdout := Session.lines (inputLines input) s, exit := 0 }

/-- Runs the program: with these files and this environment, on these arguments and this input. -/
def run (read : FileReader) (env : Environment) (args : List String) (input : String) : Output :=
  match Request.read? args with
  | none => { stdout := "", exit := 2 }
  | some .version => { stdout := versionText, exit := 0 }
  | some .usage => { stdout := usageText, exit := 0 }
  | some (.evaluate o) =>
    match Session.start read env o with
    | .error e => { stdout := "", exit := e.exit }
    | .ok s => s.run o.script input

end OperatorScript.Shell
