import OperatorScript.Fault
import OperatorScript.Files
import OperatorScript.Settings.Basic
import OperatorScript.Settings.Environment
import OperatorScript.Toml.Reader

/-!
Loading settings from files and from the environment.

A file gives settings, those that it leaves out having their usual values. Variables of the
environment, which a file `.env` extends, come on top: the address of the database replaces the
file's, lists of identities are added to the file's, and the flag replaces the file's.
-/

set_option autoImplicit false
set_option relaxedAutoImplicit false

namespace OperatorScript.Settings

inductive LoadError where
  | unreadable (path : String) (reason : ReadError)
  | malformed (path : String)
  | badVariable (name value : String)
deriving DecidableEq

def LoadError.kind : LoadError → String
  | .unreadable .. => "ConfigRead"
  | .malformed _ => "ConfigParse"
  | .badVariable .. => "InvalidEnv"

def LoadError.chain : LoadError → List String
  | .unreadable path reason =>
    let cause := "failed to read file: " ++ reason.message
    ["invalid configuration in " ++ path ++ ": " ++ cause, cause]
  | .malformed path =>
    ["invalid configuration in " ++ path ++ ": failed to parse file", "failed to parse file"]
  | .badVariable name value => ["invalid environment variable " ++ name ++ ": " ++ value]

def LoadError.toFault (e : LoadError) : Fault := .ofChain e.kind e.chain

def textOf? : Toml.Value → Option String
  | .text s => some s
  | _ => none

def boolOf? : Toml.Value → Option Bool
  | .bool b => some b
  | _ => none

def textsOf? : Toml.Value → Option (List String)
  | .list items => items.mapM textOf?
  | _ => none

/-- An entry of a document: its usual value if it is left out, and nothing if it is of another
type. -/
def entry? {α : Type} (read : Toml.Value → Option α) (usual : α) (key : String)
    (entries : List (String × Toml.Value)) : Option α :=
  match entries.find? fun e => e.1 == key with
  | none => some usual
  | some (_, v) => read v

def ofEntries? (entries : List (String × Toml.Value)) : Option Settings := do
  let usual : Settings := {}
  let admins ← entry? textsOf? usual.admins "admins" entries
  let moderators ← entry? textsOf? usual.moderators "moderators" entries
  let ignoreAdminLinks ← entry? boolOf? usual.ignoreAdminLinks "ignore_admin_links" entries
  let databaseUrl ←
    entry? (fun v => (textOf? v).map some) usual.databaseUrl "database_url" entries
  let logFilter ← entry? textOf? usual.logFilter "log_filter" entries
  some { admins, moderators, ignoreAdminLinks, databaseUrl, logFilter }

def ofText? (text : String) : Option Settings := (Toml.readDocument text).bind ofEntries?

def load (read : FileReader) (path : String) : Except LoadError Settings :=
  match read path with
  | .error reason => .error (.unreadable path reason)
  | .ok text =>
    match ofText? text with
    | some settings => .ok settings
    | none => .error (.malformed path)

def identities (list : String) : List String :=
  ((Text.stretches (· == ',') list.toList).map fun item =>
    String.ofList (Text.trimChars item)).filter fun id => !id.isEmpty

def onWords : List String := ["1", "true", "yes", "on"]

def offWords : List String := ["0", "false", "no", "off", ""]

def flag (name value : String) : Except LoadError Bool :=
  let word := Text.lower (Text.trim value)
  if onWords.contains word then .ok true
  else if offWords.contains word then .ok false
  else .error (.badVariable name word)

def fileVariable : String := "NEAX_CONFIG"

def databaseVariable : String := "DATABASE_URL"

def adminsVariable : String := "NEAX_ADMINS"

def moderatorsVariable : String := "NEAX_MODERATORS"

def linksVariable : String := "NEAX_IGNORE_ADMIN_LINKS"

def overlay (env : Environment) (base : Settings) : Except LoadError Settings := do
  let ignoreAdminLinks ←
    match env.get? linksVariable with
    | some value => flag linksVariable value
    | none => .ok base.ignoreAdminLinks
  .ok { base with
    databaseUrl := (env.get? databaseVariable).or base.databaseUrl
    admins := base.admins ++ ((env.get? adminsVariable).map identities).getD []
    moderators := base.moderators ++ ((env.get? moderatorsVariable).map identities).getD []
    ignoreAdminLinks }

def extendedBy (read : FileReader) (env : Environment) : Environment :=
  match read ".env" with
  | .ok text => env.extend text
  | .error _ => env

def ofEnvironment (read : FileReader) (env : Environment) : Except LoadError Settings := do
  let env := extendedBy read env
  let base ←
    match env.get? fileVariable with
    | some path => load read path
    | none => .ok {}
  overlay env base

end OperatorScript.Settings
