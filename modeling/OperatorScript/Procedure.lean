import OperatorScript.Fault
import OperatorScript.World

/-!
Procedures: what commands and modifiers do, as trees of interactions.

A procedure emits chunks, reads and writes records, asks for and changes ranks, and ends with a
value, a failure or a panic. Nothing in it depends on how the interactions are answered;
`Procedure.run` answers them from a world, in which any access to a record may break down before it
takes effect. The main statement: running a procedure that goes on with another one runs both in
turn.
-/

set_option autoImplicit false
set_option relaxedAutoImplicit false

namespace OperatorScript

open Json

/-- A procedure that emits chunks of type `Out` and ends with a value of type `α`. With `Empty` for
`Out` it can emit nothing. -/
inductive Procedure (Out α : Type) : Type where
  | done (value : α)
  | emit (chunk : Out) (next : Procedure Out α)
  | read (scope : Scope) (id : String) (part : World.Part)
      (next : Except StoreError Record → Procedure Out α)
  | write (scope : Scope) (id : String) (part : Record)
      (next : Except StoreError Unit → Procedure Out α)
  | role (act : Roles.Act) (next : Bool → Procedure Out α)
  | fail (failure : Failure)
  | panic (text : Option String)

namespace Procedure

variable {Out α β γ : Type}

def bind : Procedure Out α → (α → Procedure Out β) → Procedure Out β
  | .done value, f => f value
  | .emit chunk next, f => .emit chunk (next.bind f)
  | .read scope id part next, f => .read scope id part fun r => (next r).bind f
  | .write scope id part next, f => .write scope id part fun r => (next r).bind f
  | .role act next, f => .role act fun b => (next b).bind f
  | .fail failure, _ => .fail failure
  | .panic text, _ => .panic text

instance : Monad (Procedure Out) where
  pure := .done
  bind := bind

@[simp] theorem pure_eq (value : α) : (pure value : Procedure Out α) = .done value := rfl

@[simp] theorem bind_eq (p : Procedure Out α) (f : α → Procedure Out β) : p >>= f = p.bind f := rfl

@[simp] theorem done_bind (value : α) (f : α → Procedure Out β) :
    (Procedure.done value).bind f = f value := rfl

@[simp] theorem bind_done (p : Procedure Out α) : p.bind .done = p := by
  induction p with
  | done => rfl
  | emit chunk next ih => simp [bind, ih]
  | read scope id part next ih => simp [bind, ih]
  | write scope id part next ih => simp [bind, ih]
  | role act next ih => simp [bind, ih]
  | fail => rfl
  | panic => rfl

def say (chunk : Out) : Procedure Out Unit := .emit chunk (.done ())

def ofAnswer : Except StoreError α → Procedure Out α
  | .ok value => .done value
  | .error e => .fail (.store e)

def getRecord (scope : Scope) (id : String) : Procedure Out Record :=
  .read scope id .whole ofAnswer

def queryRecord (scope : Scope) (id : String) (path : String) : Procedure Out Record :=
  .read scope id (.path path) ofAnswer

def setRecord (scope : Scope) (id : String) (part : Record) : Procedure Out Unit :=
  .write scope id part ofAnswer

def perform (act : Roles.Act) : Procedure Out Bool := .role act .done

/-- Puts a value at a path of a record. Only the first key of the path is written; what stands
beside the rest of the path is read first. Without keys nothing is done. -/
def writePath (scope : Scope) (id : String) (keys : List String) (value : Value) :
    Procedure Out Unit :=
  match keys with
  | [] => .done ()
  | [key] => setRecord scope id [(key, value)]
  | key :: rest => do
    let current ← queryRecord scope id key
    let top := (current.get? key).getD .null
    setRecord scope id [(key, Value.set value rest top)]

end Procedure

inductive Access where
  | read (scope : Scope) (id : String) (part : World.Part)
  | write (scope : Scope) (id : String) (part : Record)

namespace Access

def scope : Access → Scope
  | .read scope _ _ => scope
  | .write scope _ _ => scope

def id : Access → String
  | .read _ id _ => id
  | .write _ id _ => id

def isWrite : Access → Bool
  | .read .. => false
  | .write .. => true

end Access

inductive Breakdown where
  | error (e : StoreError)
  | panic (text : Option String)

/-- Which accesses break down, given how many there were before. -/
abbrev Outage := Nat → Access → Option Breakdown

def Outage.none : Outage := fun _ _ => .none

/-- A database that cannot be reached: every access breaks down but a read along an empty path, for
which nothing needs to be known. -/
def Outage.unreachable : Outage := fun _ access =>
  match access with
  | .read _ _ (.path path) =>
    if (dottedKeys path).isEmpty then .none else some (.error .noConnection)
  | _ => some (.error .noConnection)

structure State where
  world : World
  accesses : Nat := 0
deriving Inhabited

def State.tick (s : State) : State := { s with accesses := s.accesses + 1 }

structure Procedure.Outcome (Out α : Type) where
  chunks : List Out
  result : Except Fault α
  state : State

def Procedure.Outcome.after {Out α : Type} (chunk : Out) (o : Outcome Out α) : Outcome Out α :=
  { o with chunks := chunk :: o.chunks }

def Procedure.run {Out α : Type} (outage : Outage) : Procedure Out α → State → Outcome Out α
  | .done value, s => { chunks := [], result := .ok value, state := s }
  | .emit chunk next, s => (next.run outage s).after chunk
  | .read scope id part next, s =>
    match outage s.accesses (.read scope id part) with
    | some (.panic text) => { chunks := [], result := .error (.ofPanic text), state := s.tick }
    | some (.error e) => (next (.error e)).run outage s.tick
    | .none => (next (.ok (s.world.read scope id part))).run outage s.tick
  | .write scope id part next, s =>
    match outage s.accesses (.write scope id part) with
    | some (.panic text) => { chunks := [], result := .error (.ofPanic text), state := s.tick }
    | some (.error e) => (next (.error e)).run outage s.tick
    | .none =>
      (next (.ok ())).run outage { s.tick with world := s.world.write scope id part }
  | .role act next, s =>
    let (answer, roles) := s.world.roles.perform act
    (next answer).run outage { s with world := { s.world with roles } }
  | .fail failure, s => { chunks := [], result := .error failure.toFault, state := s }
  | .panic text, s => { chunks := [], result := .error (.ofPanic text), state := s }

namespace Procedure

variable {Out α β : Type}

def Outcome.afterAll (chunks : List Out) (o : Outcome Out α) : Outcome Out α :=
  { o with chunks := chunks ++ o.chunks }

/-- Running a procedure that goes on with another one runs both in turn, unless the first one ends
with a fault. -/
theorem run_bind (outage : Outage) (p : Procedure Out α) (f : α → Procedure Out β) (s : State) :
    (p.bind f).run outage s =
      match (p.run outage s).result with
      | .ok value =>
        ((f value).run outage (p.run outage s).state).afterAll (p.run outage s).chunks
      | .error fault =>
        { chunks := (p.run outage s).chunks, result := .error fault,
          state := (p.run outage s).state } := by
  induction p generalizing s with
  | done value => simp [bind, run, Outcome.afterAll]
  | emit chunk next ih =>
    simp only [bind, run, ih, Outcome.after]
    cases (next.run outage s).result <;> simp [Outcome.afterAll]
  | read scope id part next ih =>
    simp only [bind, run]
    split <;> simp_all
  | write scope id part next ih =>
    simp only [bind, run]
    split <;> simp_all
  | role act next ih => simp only [bind, run, ih]
  | fail failure => rfl
  | panic text => rfl

end Procedure

end OperatorScript
