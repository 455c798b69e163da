import OperatorScript.Command.Catalog
import OperatorScript.Delivery
import OperatorScript.Script.Placeholder
import OperatorScript.Script.Span

/-!
The interpreter.

An evaluation fills the placeholders of its script, evaluates the spans from left to right and puts
their results in their places, splits the statement, lets the modifier choose the permission, and
runs the command. The first thing that goes wrong ends it. A span is evaluated like a script of its
own, one level deeper; below the last level nothing is evaluated. `Run` records an evaluation with
those of its spans.
-/

set_option autoImplicit false
set_option relaxedAutoImplicit false

namespace OperatorScript

inductive Ending where
  | tooDeep
  | spansFailed (failures : List Evaluation)
  /-- The script has no separator; this is its trimmed text. -/
  | noSeparator (text : String)
  | unknownModifier (name : String)
  | modifierFailed (fault : Fault)
  | unknownCommand (name : String)
  /-- The command ran in this context, emitted these chunks, and ended so. -/
  | ran (context : Context) (chunks : List String) (ending : Except Fault Status)

def issues (failures : List Evaluation) : String :=
  "Issues: \n\n" ++ Text.join "\n\n" (failures.map fun e =>
    "Neax::" ++ e.status.name ++ " =\n" ++ e.result)

namespace Ending

def status : Ending → Status
  | .tooDeep => .malformedInput
  | .spansFailed _ => .malformedInput
  | .noSeparator _ => .commandNotFound
  | .unknownModifier _ => .commandNotFound
  | .modifierFailed _ => .execError
  | .unknownCommand _ => .commandNotFound
  | .ran _ _ (.ok status) => status
  | .ran _ _ (.error _) => .execError

def deliver (mode : Mode) : Ending → Delivery
  | .tooDeep => .early (Fault.problem "inline scripts nested too deeply").text
  | .spansFailed failures => .early (issues failures)
  | .noSeparator text => .early ("Neax::CommandNotFound = " ++ text)
  | .unknownModifier name => .early ("Neax::ModNotFound = " ++ name)
  | .modifierFailed fault => .early fault.text
  | .unknownCommand name => .early ("Neax::CommandNotFound = " ++ name)
  | .ran _ chunks ending => .ofCommand mode chunks ending

end Ending

/-- An evaluation as it went: the levels it had left, its script, the state in which it began, the
evaluations of its spans, its ending, what it delivered, and the state in which it ended. -/
inductive Run where
  | mk (levels : Nat) (script : String) (start : State) (spans : List Run) (ending : Ending)
      (delivery : Delivery) (stop : State)

namespace Run

def spans : Run → List Run
  | .mk _ _ _ spans _ _ _ => spans

def script : Run → String
  | .mk _ script .. => script

def start : Run → State
  | .mk _ _ start .. => start

def ending : Run → Ending
  | .mk _ _ _ _ ending _ _ => ending

def delivery : Run → Delivery
  | .mk _ _ _ _ _ delivery _ => delivery

def stop : Run → State
  | .mk _ _ _ _ _ _ stop => stop

def evaluation (r : Run) : Evaluation :=
  { status := r.ending.status, result := r.delivery.result }

def sent (r : Run) : List String := r.delivery.sent

end Run

structure Interpreter where
  catalog : Catalog := .builtin
  settings : Settings := {}
  outage : Outage := .none

def maxInlineDepth : Nat := 16

def failedMark : String := "[x]"

def spanScript (inner : List Char) : String := String.ofList inner ++ " --raw"

/-- A script whose spans have been evaluated: its text with their results in their places, the
evaluations in order, and the state that the last one left. -/
structure Expansion where
  text : List Char
  runs : List Run
  state : State

namespace Expansion

def replacement (e : Evaluation) : List Char :=
  if e.status = .success then Text.trimChars e.result.toList else failedMark.toList

/-- Evaluates the spans among pieces from left to right, each in the state that the one before it
left. -/
def ofPieces (evaluate : String → State → Run) : List Span.Piece → State → Expansion
  | [], s => { text := [], runs := [], state := s }
  | .char c :: rest, s =>
    let x := ofPieces evaluate rest s
    { x with text := c :: x.text }
  | .span inner :: rest, s =>
    let run := evaluate (spanScript inner) s
    let x := ofPieces evaluate rest run.stop
    { text := replacement run.evaluation ++ x.text, runs := run :: x.runs, state := x.state }

def ofScript (evaluate : String → State → Run) (script : String) (s : State) : Expansion :=
  ofPieces evaluate (Span.scan script.toList) s

def failures (x : Expansion) : List Evaluation :=
  (x.runs.map Run.evaluation).filter fun e => e.status != .success

end Expansion

namespace Interpreter

def command (i : Interpreter) (c : Context) (s : State) : Ending × State :=
  match i.catalog.command? c.name with
  | none => (.unknownCommand c.name, s)
  | some command =>
    let outcome := (command.body c).run i.outage s
    (.ran c outcome.chunks outcome.result, outcome.state)

/-- Lets the modifier of a statement choose the permission, then runs the command. -/
def statement (i : Interpreter) (m : Message) (st : Statement) (s : State) : Ending × State :=
  let c := Context.ofStatement i.settings i.catalog.directory m s.world st
  match st.modifier with
  | none => i.command c s
  | some name =>
    match i.catalog.modifier? name with
    | none => (.unknownModifier name, s)
    | some modifier =>
      let outcome := (modifier.body c).run i.outage s
      match outcome.result with
      | .error fault => (.modifierFailed fault, outcome.state)
      | .ok permission => i.command { c with permission } outcome.state

def finish (i : Interpreter) (m : Message) (x : Expansion) : Ending × State :=
  match x.failures with
  | e :: rest => (.spansFailed (e :: rest), x.state)
  | [] =>
    match Statement.read (String.ofList x.text) m with
    | .error text => (.noSeparator text, x.state)
    | .ok st => i.statement m st x.state

/-- Evaluates a script with a number of levels left. The spans are evaluated buffered. -/
def evaluate (i : Interpreter) (m : Message) (mode : Mode) : Nat → String → State → Run
  | 0, script, s => .mk 0 script s [] .tooDeep (Ending.tooDeep.deliver mode) s
  | levels + 1, script, s =>
    let x := Expansion.ofScript (i.evaluate m .buffered levels) (Placeholder.fill script m) s
    let (ending, stop) := i.finish m x
    .mk (levels + 1) script s x.runs ending (ending.deliver mode) stop

def run (i : Interpreter) (m : Message) (mode : Mode) (script : String) (s : State) : Run :=
  i.evaluate m mode (maxInlineDepth + 1) script s

end Interpreter

end OperatorScript
