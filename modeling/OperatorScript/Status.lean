/-!
How evaluations end, and how their output is delivered.
-/

set_option autoImplicit false
set_option relaxedAutoImplicit false

namespace OperatorScript

inductive Status where
  | success
  | malformedInput
  | permissionNeedRise
  | execError
  | missingOrInvalidArgs
  | commandNotImplemented
  | depError
  | commandNotFound
deriving DecidableEq, Inhabited

namespace Status

def all : List Status :=
  [.success, .malformedInput, .permissionNeedRise, .execError, .missingOrInvalidArgs,
    .commandNotImplemented, .depError, .commandNotFound]

def name : Status → String
  | .success => "Success"
  | .malformedInput => "MalformedInput"
  | .permissionNeedRise => "PermissionNeedRise"
  | .execError => "ExecError"
  | .missingOrInvalidArgs => "MissingOrInvalidArgs"
  | .commandNotImplemented => "CommandNotImplemented"
  | .depError => "DepError"
  | .commandNotFound => "CommandNotFound"

def number : Status → Nat
  | .success => 0
  | .malformedInput => 1
  | .permissionNeedRise => 2
  | .execError => 3
  | .missingOrInvalidArgs => 4
  | .commandNotImplemented => 5
  | .depError => 6
  | .commandNotFound => 127

def ofName? (name : String) : Option Status := all.find? fun s => s.name == name

end Status

structure Evaluation where
  status : Status
  result : String
deriving DecidableEq, Inhabited

/-- How output is delivered: each chunk by itself, or all of it at once when the evaluation ends. -/
inductive Mode where
  | streaming
  | buffered
deriving DecidableEq, Inhabited

end OperatorScript
