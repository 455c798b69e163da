import OperatorScript.Json.Inspect
import OperatorScript.Json.SyntaxError

/-!
Failures of stores, commands and modifiers, and the faults as which they are reported.

A failure has a kind and a chain of messages, the outermost first. A fault is what the caller sees:
a failure with its chain, a plain problem, or data laid out for people.
-/

set_option autoImplicit false
set_option relaxedAutoImplicit false

namespace OperatorScript

open Json

inductive StoreError where
  | badAddress (reason : String)
  | noConnection
  | syntaxError (error : SyntaxError)
  | corrupt (id reason : String)
deriving DecidableEq

/-- The messages of a store's failure, the outermost first. -/
def StoreError.chain : StoreError → List String
  | .badAddress reason => ["invalid connection string", reason]
  | .noConnection =>
    ["Error occurred while creating a new object: error connecting to server",
      "error connecting to server", "No such file or directory (os error 2)"]
  | .syntaxError e => [e.message]
  | .corrupt id reason => ["corrupt record " ++ id ++ ": " ++ reason]

inductive Failure where
  | store (error : StoreError)
  | json (error : SyntaxError)
  | custom (text : String)
  | data (value : Value)

inductive Fault where
  | error (kind : String) (trace : String)
  | problem (text : String)
  | data (value : Value)

namespace Fault

def ofChain (kind : String) (chain : List String) : Fault :=
  .error kind (Text.join "\n    caused by: " chain)

def text : Fault → String
  | .error kind trace => "Neax::" ++ kind ++ " =\n\n" ++ trace
  | .problem text => "Neax::Problem = " ++ text
  | .data value => "Neax::ProblemData =:\n\n" ++ value.inspect inspectDepth

end Fault

def StoreError.toFault (e : StoreError) : Fault := .ofChain "StoreError" e.chain

namespace Failure

def kind : Failure → String
  | .store _ => "StoreError"
  | .json _ => "SyntaxError"
  | .custom _ => "Problem"
  | .data _ => "ProblemData"

def chain : Failure → List String
  | .store e => e.chain
  | .json e => [e.message]
  | .custom text => [text]
  | .data value => ["problem data: " ++ value.compact]

def message (f : Failure) : String := f.chain.headD ""

def toFault : Failure → Fault
  | .custom text => .problem text
  | .data value => .data value
  | .store e => .ofChain "StoreError" e.chain
  | .json e => .ofChain "SyntaxError" [e.message]

end Failure

/-- A panic as a fault; one without a text has a text of its own. -/
def Fault.ofPanic (text : Option String) : Fault := .problem (text.getD "command panicked")

end OperatorScript
