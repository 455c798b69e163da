import OperatorScript.Proofs.History
import OperatorScript.Proofs.Stages

/-!
Statements that reach their command.

With the built-in commands, a statement whose spans have succeeded and whose modifier is none or
`rise` goes on to its command. The main statement: it comes to what the body of the command does, in
the context and in the state in which the statement begins.
-/

set_option autoImplicit false
set_option relaxedAutoImplicit false

namespace OperatorScript

private theorem Catalog.command?_name {command : Command} (known : command.IsBuiltin) :
    builtin.command? command.name = some command := by
  cases known with
  | set owner => cases owner <;> rfl
  | get owner => cases owner <;> rfl
  | increment owner => cases owner <;> rfl
  | _ => rfl

def Statement.HasKnownModifier (st : Statement) : Prop :=
  st.modifier = none ∨ st.modifier = some Command.rise.name

instance (st : Statement) : Decidable st.HasKnownModifier := inferInstanceAs (Decidable (_ ∨ _))

def Statement.permission (st : Statement) (authorIsAdmin : Bool) : Permission :=
  if st.modifier.isSome && authorIsAdmin then .rise else .strict

/-- The spans of a script have succeeded, and what the script has become is a statement that reaches
its command, if there is one of its name. -/
structure Expansion.Asks (x : Expansion) (m : Message) (st : Statement) : Prop where
  spans : x.failures = []
  read : Statement.read (String.ofList x.text) m = .ok st
  modifier : st.HasKnownModifier

structure Submission.Asks (q : Submission) (st : Statement) : Prop where
  spanFree : SpanFree q.script q.message
  read : Statement.read (Placeholder.fill q.script q.message) q.message = .ok st
  modifier : st.HasKnownModifier

/-- A sender may act on a record: one that has a name, and that is its own or anyone's for an
administrator. -/
structure World.MayActOn (w : World) (sender id : String) : Prop where
  named : id ≠ ""
  permitted : w.isAdmin sender = true ∨ sender = id

namespace Interpreter

variable {i : Interpreter} {m : Message} {st : Statement}

def reached (i : Interpreter) (m : Message) (st : Statement) (s : State) : Context :=
  i.context m st s (st.permission (s.world.isAdmin m.sender))

theorem expansion_of_asks {q : Submission} (asks : q.Asks st) (levels : Nat) (s : State) :
    (i.expansion q.message levels q.script s).Asks q.message st ∧
      (i.expansion q.message levels q.script s).state = s := by
  rw [i.expansion_of_spanFree q.message asks.spanFree levels s]
  have text : String.ofList (Placeholder.fill q.script q.message).toList =
      Placeholder.fill q.script q.message := String.ofList_toList
  exact ⟨⟨rfl, by rw [text, asks.read], asks.modifier⟩, rfl⟩

section Builtin

variable (builtin : i.catalog = .builtin)

include builtin

private theorem chooses_permission (known : st.HasKnownModifier) (s : State) :
    i.Chooses (i.context m st s .strict) s (st.permission (s.world.isAdmin m.sender)) s := by
  rcases known with none | rise
  · have strict : st.permission (s.world.isAdmin m.sender) = .strict := by
      simp [Statement.permission, none]
    rw [strict]
    exact .strict none
  · have found : i.catalog.modifier? Command.rise.name = some Command.rise := by
      rw [builtin]
      rfl
    have permission : st.permission (s.world.isAdmin m.sender) =
        if s.world.isAdmin m.sender then .rise else .strict := by
      simp [Statement.permission, rise]
    rw [permission]
    exact .chosen rise found rfl

theorem finish_of_asks {x : Expansion} (asks : x.Asks m st) :
    i.finish m x = i.command (i.reached m st x.state) x.state := by
  rw [finish_of_read asks.spans asks.read,
    statement_of_chooses (chooses_permission builtin asks.modifier x.state)]
  rfl

theorem conclusion_of_asks {mode : Mode} {levels : Nat} {script : String} {s : State}
    {x : Expansion} (expanded : i.expansion m levels script s = x) (asks : x.Asks m st)
    {command : Command} (known : command.IsBuiltin) (named : st.command = command.name) {r : Run}
    (evaluated : i.evaluate m mode (levels + 1) script s = r) :
    r.conclusion = .ofCommand mode (i.reached m st x.state)
      ((command.body (i.reached m st x.state)).run i.outage x.state) := by
  have name : (i.reached m st x.state).name = command.name := named
  have found : i.catalog.command? (i.reached m st x.state).name = some command := by
    rw [builtin, name, Catalog.command?_name known]
  rw [← evaluated, conclusion_evaluate_succ, expanded, finish_of_asks builtin asks,
    command_of_found found, conclude_ranIn]

theorem conclusion_submit {q : Submission} (asks : q.Asks st) {command : Command}
    (known : command.IsBuiltin) (named : st.command = command.name) (s : State) :
    (i.submit q s).conclusion =
      .ofCommand q.mode (i.reached q.message st s)
        ((command.body (i.reached q.message st s)).run i.outage s) := by
  obtain ⟨reaches, state⟩ := expansion_of_asks (i := i) asks maxInlineDepth s
  have ended := conclusion_of_asks builtin rfl reaches known named (i.submit_eq q s).symm
  rw [ended, state]

end Builtin

end Interpreter

end OperatorScript
