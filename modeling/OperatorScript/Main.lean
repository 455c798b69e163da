import OperatorScript.Shell.Session

/-!
The program: evaluates a script from its command line, or one for each line of standard input.
-/

set_option autoImplicit false
set_option relaxedAutoImplicit false

namespace OperatorScript.Program

open Shell

def knownVariables : List String :=
  [Settings.fileVariable, Settings.databaseVariable, Settings.adminsVariable,
    Settings.moderatorsVariable, Settings.linksVariable, logVariable]

def readFile (path : String) : IO (Except ReadError String) := do
  try
    return .ok (← IO.FS.readFile path)
  catch
    | .noFileOrDirectory .. => return .error .notFound
    | .inappropriateType .. => return .error .isADirectory
    | .invalidArgument .. => return .error .nameTooLong
    | _ => return .error .notADirectory

def readEnvironment (names : List String) : IO Environment := do
  let mut env : Environment := []
  for name in names do
    match ← IO.getEnv name with
    | some value => env := env.insert name value
    | none => pure ()
  return env

def gather (o : Options) : IO (FileReader × Environment) := do
  let dotEnv ← readFile ".env"
  let names :=
    match dotEnv with
    | .ok text => Environment.namesIn text
    | .error _ => []
  let env ← readEnvironment (knownVariables ++ names)
  let onlyDotEnv : FileReader := fun path =>
    if path = ".env" then dotEnv else .error .notFound
  match o.settingsFile.or ((Settings.extendedBy onlyDotEnv env).get? Settings.fileVariable) with
  | none => return (onlyDotEnv, env)
  | some file =>
    let settings ← readFile file
    return (fun path => if path = file then settings else onlyDotEnv path, env)

def startMessage : StartError → String
  | .impossibleVariable => "a variable cannot hold the character zero"
  | .settings e => e.toFault.text
  | .logFilter directive => "invalid log filter " ++ Text.escaped directive
  | .tornFilter => "a log filter is cut inside a character"
  | .database e => "connecting to the database: " ++ e.toFault.text

partial def evaluateLines (input output : IO.FS.Stream) (s : Session) : IO Unit := do
  let line ← input.getLine
  if line.isEmpty then return
  let (text, s) := s.line line
  output.putStr text
  output.flush
  evaluateLines input output s

def evaluate (s : Session) (o : Options) : IO UInt32 := do
  let output ← IO.getStdout
  match o.script with
  | some script =>
    let result := s.run (some script) ""
    output.putStr result.stdout
    output.flush
    return UInt32.ofNat result.exit
  | none =>
    evaluateLines (← IO.getStdin) output s
    return 0

end OperatorScript.Program

def main (args : List String) : IO UInt32 := do
  match OperatorScript.Shell.Request.read? args with
  | none =>
    IO.eprint OperatorScript.Shell.usageText
    return 2
  | some .version =>
    IO.print OperatorScript.Shell.versionText
    return 0
  | some .usage =>
    IO.print OperatorScript.Shell.usageText
    return 0
  | some (.evaluate o) =>
    let (read, env) ← OperatorScript.Program.gather o
    match OperatorScript.Shell.Session.start read env o with
    | .error e =>
      IO.eprintln (OperatorScript.Program.startMessage e)
      return UInt32.ofNat e.exit
    | .ok s => OperatorScript.Program.evaluate s o
