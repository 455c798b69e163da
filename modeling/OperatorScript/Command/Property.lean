import OperatorScript.Command.Basic
import OperatorScript.Json.Reader
import OperatorScript.Number.Text

/-!
Commands that read and write properties of user and thread records.

Reading and incrementing need the risen permission on the target, setting needs an administrator.
-/

set_option autoImplicit false
set_option relaxedAutoImplicit false

namespace OperatorScript.Command

open Json Procedure

inductive Owner where
  | user
  | thread
deriving DecidableEq

def Owner.scope : Owner → Scope
  | .user => .users
  | .thread => .threads

def Owner.noun : Owner → String
  | .user => "user"
  | .thread => "thread"

/-- How deep an item is opened: not at all below its first level if the whole record is shown, else
as deep as the flag `depth` says. -/
def shownDepth (args : ArgList) (all : Bool) : Nat :=
  if all then 0 else ((args.flagValue? "depth").bind readIndex?).getD inspectDepth

def itemText (args : ArgList) (all : Bool) (item : Value) : String :=
  if args.hasFlag "json" then item.pretty
  else
    match item with
    | .str s => s
    | v => v.inspect (shownDepth args all)

def itemHeader (args : ArgList) (keys : List String) : String :=
  if args.hasFlag "raw" then "" else "Property => " ++ Text.join "." keys ++ "\n\n"

/-- Reads the record in which keys are looked up: all of it, or only what the first key leads to. -/
def readFor (scope : Scope) (id : String) (all : Bool) (keys : List String) :
    Procedure String Record :=
  match keys with
  | first :: _ => if all then getRecord scope id else queryRecord scope id first
  | [] => getRecord scope id

def get (owner : Owner) : Command where
  name :=
    match owner with
    | .user => "uget"
    | .thread => "tget"
  manual :=
    match owner with
    | .user =>
      Text.join "\n"
        ["Reads a property of a user record.",
          "Usage: uget::<user id> <key> [nested keys...] [--all] [--json] [--raw] [--depth n]",
          "--all reads the whole record, --json prints JSON, --raw drops the header line.",
          "Reading someone else's record needs admin rank."]
    | .thread =>
      Text.join "\n"
        ["Reads a property of a thread record.",
          "Usage: tget::<thread id> <key> [nested keys...] [--all] [--json] [--raw] [--depth n]",
          "--all reads the whole record, --json prints JSON, --raw drops the header line."]
  body c :=
    let all := c.args.hasFlag "all"
    let keys := pathKeys c.args.args
    if c.target.isEmpty then stop "Missing target." .missingOrInvalidArgs
    else if keys.isEmpty && !all then
      stop "A nested keys (shallowest to deepest, separated by spaces.) is required."
        .missingOrInvalidArgs
    else if !c.risen.allowsTarget then refuse
    else do
      let record ← readFor owner.scope c.target all keys
      let item := ((Value.obj record).get? keys).getD .null
      stop (itemHeader c.args keys ++ itemText c.args all item) .success

/-- The property that a statement names, if a value follows it. -/
def namedProperty? (args : ArgList) : Option String :=
  (args.arg? 0).filter fun _ => !(args.rest 1).isEmpty

def set (owner : Owner) : Command where
  name :=
    match owner with
    | .user => "uset"
    | .thread => "tset"
  manual :=
    match owner with
    | .user =>
      Text.join "\n"
        ["Writes a JSON value into a user record.",
          "Usage: uset::<user id> <key[.nested]> <json>",
          "Admin only. The value must be valid JSON, e.g. 5, \"text\" or \x7b\"a\": 1\x7d."]
    | .thread =>
      Text.join "\n"
        ["Writes a JSON value into a thread record.",
          "Usage: tset::<thread id> <key[.nested]> <json>",
          "Admin only. The value must be valid JSON, e.g. 5, \"text\" or \x7b\"a\": 1\x7d."]
  body c :=
    if c.target.isEmpty then stop "Missing target." .missingOrInvalidArgs
    else if !c.authorIsAdmin then refuse
    else
      match namedProperty? c.args with
      | none =>
        stop "First arg must be property key, the rest must be a JSON value." .missingOrInvalidArgs
      | some property =>
        match Value.read (c.args.rest 1) with
        | .error e => stop (Failure.json e).toFault.text .execError
        | .ok value => do
          writePath owner.scope c.target (pathKeys [property]) value
          say ("Set success [" ++ c.target ++ "]")
          stop (Value.obj [(property, value)]).pretty .success

def numberAt? (root : Value) (keys : List String) : Option Binary64 :=
  (root.get? keys).bind Value.number?

def readNumberRoot (scope : Scope) (id : String) (keys : List String) :
    Procedure String Value :=
  match keys with
  | [] => .done .null
  | first :: _ => do
    let record ← queryRecord scope id first
    .done (.obj record)

def finite? (word : String) : Option Binary64 := (Binary64.read? word).filter Binary64.isFinite

def increment (owner : Owner) : Command where
  name :=
    match owner with
    | .user => "uincr"
    | .thread => "tincr"
  manual :=
    match owner with
    | .user =>
      Text.join "\n"
        ["Adds a number to a numeric property of a user record.",
          "Usage: uincr::<user id> <key[.nested]> <number>",
          "Negative numbers subtract. The property must already hold a number.",
          "Changing someone else's record needs admin rank."]
    | .thread =>
      Text.join "\n"
        ["Adds a number to a numeric property of a thread record.",
          "Usage: tincr::<thread id> <key[.nested]> <number>",
          "Negative numbers subtract. The property must already hold a number."]
  body c :=
    if c.target.isEmpty then stop "Missing target." .missingOrInvalidArgs
    else if !c.risen.allowsTarget then refuse
    else
      match c.args.arg? 0, c.args.arg? 1 with
      | some property, some word =>
        match finite? word with
        | none => stop ("Invalid number provided: " ++ word) .malformedInput
        | some delta => do
          let keys := pathKeys [property]
          let root ← readNumberRoot owner.scope c.target keys
          match numberAt? root keys with
          | none =>
            stop ("Property " ++ property ++ " is not a number or does not exist.") .malformedInput
          | some current =>
            let sum := current + delta
            writePath owner.scope c.target keys (.ofNumber sum)
            say ("Incremented " ++ property ++ " by " ++ delta.text ++ " for " ++ owner.noun ++
              " [" ++ c.target ++ "]. New value: " ++ sum.text)
            stop (Value.obj [(property, .ofNumber sum)]).pretty .success
      | _, _ =>
        stop "First arg must be property key, second arg must be a number." .missingOrInvalidArgs

end OperatorScript.Command
