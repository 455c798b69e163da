import OperatorScript.Proofs.Evaluation

/-!
Failure atomicity: a statement that does not succeed changes nothing.

The built-in commands change the world at most once, and after that they only emit and succeed.
Whatever can fail, and any access may break down, comes before.
-/

set_option autoImplicit false
set_option relaxedAutoImplicit false

namespace OperatorScript

open Json

namespace Procedure

variable {Out α β : Type}

def Settles (good : α → Prop) : Procedure Out α → Prop
  | .done value => good value
  | .emit _ next => next.Settles good
  | _ => False

/-- Whatever the answers, a procedure goes on with nothing but emitting, and to a good value, once
it has changed the world. An act on the roles has changed them if it is answered `true`. -/
def Atomic (good : α → Prop) : Procedure Out α → Prop
  | .done _ => True
  | .emit _ next => next.Atomic good
  | .read _ _ _ next => ∀ answer, (next answer).Atomic good
  | .write _ _ _ next => (∀ e, (next (.error e)).Atomic good) ∧ (next (.ok ())).Settles good
  | .role _ next => (next false).Atomic good ∧ (next true).Settles good
  | .fail _ => True
  | .panic _ => True

variable {good : α → Prop}

private theorem Settles.bind {good : β → Prop} {p : Procedure Out α} {f : α → Procedure Out β}
    (first : p.Settles fun value => (f value).Settles good) : (p.bind f).Settles good := by
  induction p with
  | done => exact first
  | emit _ _ ih => exact ih first
  | read | write | role | fail | panic => cases first

private theorem Atomic.bind {good : β → Prop} {p : Procedure Out α} {f : α → Procedure Out β}
    (first : p.Atomic fun value => (f value).Settles good)
    (rest : ∀ value, (f value).Atomic good) : (p.bind f).Atomic good := by
  induction p with
  | done value => exact rest value
  | emit _ _ ih => exact ih first
  | read _ _ _ _ ih => exact fun answer => ih answer (first answer)
  | write _ _ _ _ ih => exact ⟨fun e => ih _ (first.1 e), first.2.bind⟩
  | role _ _ ih => exact ⟨ih _ first.1, first.2.bind⟩
  | fail | panic => trivial

private theorem atomic_ofAnswer (answer : Except StoreError α) :
    (ofAnswer answer : Procedure Out α).Atomic good := by
  cases answer <;> trivial

private theorem atomic_getRecord (scope : Scope) (id : String) (good : Record → Prop) :
    (getRecord scope id : Procedure Out Record).Atomic good :=
  atomic_ofAnswer

private theorem atomic_queryRecord (scope : Scope) (id path : String) (good : Record → Prop) :
    (queryRecord scope id path : Procedure Out Record).Atomic good :=
  atomic_ofAnswer

private theorem atomic_setRecord {good : Unit → Prop} (scope : Scope) (id : String) (part : Record)
    (settled : good ()) : (setRecord scope id part : Procedure Out Unit).Atomic good :=
  ⟨fun _ => trivial, settled⟩

private theorem atomic_perform {good : Bool → Prop} (act : Roles.Act) (settled : good true) :
    (perform act : Procedure Out Bool).Atomic good :=
  ⟨trivial, settled⟩

private theorem atomic_writePath {good : Unit → Prop} (scope : Scope) (id : String)
    (keys : List String) (value : Value) (settled : good ()) :
    (writePath scope id keys value : Procedure Out Unit).Atomic good := by
  match keys with
  | [] => trivial
  | [key] => exact atomic_setRecord scope id _ settled
  | key :: next :: rest =>
    apply (atomic_queryRecord scope id key _).bind
    intro current
    exact atomic_setRecord scope id _ settled

private theorem Settles.run {p : Procedure Out α} (settles : p.Settles good) (outage : Outage)
    (s : State) :
    ∃ value, (p.run outage s).result = .ok value ∧ good value := by
  induction p with
  | done value => exact ⟨value, rfl, settles⟩
  | emit _ _ ih => exact ih settles
  | read | write | role | fail | panic => cases settles

/-- An atomic procedure leaves the world as it is or runs to a good value, whichever accesses break
down. -/
private theorem Atomic.run {p : Procedure Out α} (atomic : p.Atomic good) (outage : Outage)
    (s : State) :
    (p.run outage s).state.world = s.world ∨
      ∃ value, (p.run outage s).result = .ok value ∧ good value := by
  induction p generalizing s with
  | done | fail | panic => exact .inl rfl
  | emit _ _ ih => exact ih atomic s
  | read scope id part next ih =>
    simp only [Procedure.run]
    split
    · exact .inl rfl
    · exact ih _ (atomic _) s.tick
    · exact ih _ (atomic _) s.tick
  | write scope id part next ih =>
    simp only [Procedure.run]
    split
    · exact .inl rfl
    · exact ih _ (atomic.1 _) s.tick
    · exact .inr (atomic.2.run outage _)
  | role act next ih =>
    simp only [Procedure.run]
    cases answer : (s.world.roles.perform act).1 with
    | false =>
      rw [Roles.perform_of_not_answered answer]
      exact ih false atomic.1 s
    | true => exact .inr (atomic.2.run outage _)

end Procedure

namespace Command

open Procedure

variable {good : Status → Prop} (c : Context)

private theorem print_atomic : (print.body c).Atomic good := by
  unfold print
  dsimp only
  split <;> trivial

private theorem arg_atomic : (arg.body c).Atomic good := trivial

private theorem input_atomic : (input.body c).Atomic good := by
  unfold input
  dsimp only
  split <;> trivial

private theorem atomic_sayAll (chunks : List String) (good : Unit → Prop) :
    (sayAll chunks).Atomic good := by
  induction chunks with
  | nil => trivial
  | cons _ _ ih => exact ih

private theorem help_atomic : (help.body c).Atomic good := by
  unfold help
  dsimp only
  split
  · exact (atomic_sayAll _ _).bind fun _ => trivial
  · split <;> trivial

private theorem rankBody_atomic (rank : Rank) (isGrant : Bool) :
    (rankBody rank isGrant c).Atomic (· = .success) := by
  unfold rankBody
  split
  · trivial
  · split
    · trivial
    · refine Atomic.bind (atomic_perform _ ?_) fun changed => trivial
      rfl

private theorem get_atomic (owner : Owner) : ((get owner).body c).Atomic good := by
  unfold get
  dsimp only
  split
  · trivial
  · split
    · trivial
    · split
      · trivial
      · refine Atomic.bind ?_ fun record => trivial
        unfold readFor
        split
        · split
          · exact atomic_getRecord _ _ _
          · exact atomic_queryRecord _ _ _ _
        · exact atomic_getRecord _ _ _

private theorem set_atomic (owner : Owner) : ((set owner).body c).Atomic (· = .success) := by
  unfold set
  dsimp only
  split
  · trivial
  · split
    · trivial
    · split
      · trivial
      · split
        · trivial
        · refine Atomic.bind (atomic_writePath _ _ _ _ ?_) fun _ => trivial
          rfl

private theorem increment_atomic (owner : Owner) :
    ((increment owner).body c).Atomic (· = .success) := by
  unfold increment
  dsimp only
  split
  · trivial
  · split
    · trivial
    · split
      · split
        · trivial
        · refine Atomic.bind ?_ fun root => ?_
          · unfold readNumberRoot
            split
            · trivial
            · exact (atomic_queryRecord _ _ _ _).bind fun record => trivial
          · split
            · trivial
            · refine Atomic.bind (atomic_writePath _ _ _ _ ?_) fun _ => trivial
              rfl
      · trivial

private theorem num_atomic : (num.body c).Atomic good := by
  refine (atomic_queryRecord _ _ _ _).bind fun record => ?_
  dsimp only
  split <;> trivial

private theorem atomic_load (good : LinkTable → Prop) : LinkTable.load.Atomic good :=
  (atomic_queryRecord _ _ _ _).bind fun _ => trivial

private theorem links_atomic : (links.body c).Atomic good := by
  refine (atomic_load _).bind fun table => ?_
  split <;> trivial

private theorem ulink_atomic : (ulink.body c).Atomic (· = .success) := by
  unfold ulink
  dsimp only
  split
  · trivial
  · split
    · trivial
    · split
      · trivial
      · split
        · trivial
        · refine (atomic_load _).bind fun table => ?_
          split
          · trivial
          · refine Atomic.bind (atomic_setRecord _ _ _ ?_) fun _ => trivial
            rfl

private theorem uunlink_atomic : (uunlink.body c).Atomic (· = .success) := by
  unfold uunlink
  dsimp only
  split
  · trivial
  · split
    · trivial
    · refine (atomic_load _).bind fun table => ?_
      split
      · trivial
      · refine Atomic.bind (atomic_setRecord _ _ _ ?_) fun _ => trivial
        rfl

private theorem IsBuiltin.atomic_body {command : Command} (builtin : command.IsBuiltin) :
    (command.body c).Atomic (· = .success) := by
  cases builtin with
  | print => exact print_atomic c
  | arg => exact arg_atomic c
  | promote | demote | mpromote | mdemote => exact rankBody_atomic c _ _
  | set owner => exact set_atomic c owner
  | get owner => exact get_atomic c owner
  | input => exact input_atomic c
  | ulink => exact ulink_atomic c
  | uunlink => exact uunlink_atomic c
  | links => exact links_atomic c
  | increment owner => exact increment_atomic c owner
  | num => exact num_atomic c
  | help => exact help_atomic c

end Command

namespace Interpreter

variable {i : Interpreter} (m : Message)

private theorem world_finish_of_failed (builtin : i.catalog = .builtin) (x : Expansion)
    (failed : (i.finish m x).1.status ≠ .success) :
    (i.finish m x).2.world = x.state.world := by
  rcases finish_cases m builtin x with ⟨_, stop⟩ | ⟨st, permission, command, _, found, run⟩
  · rw [stop]
  · have known := (Catalog.isBuiltin_of_command? found).1
    rw [run] at failed ⊢
    rcases (known.atomic_body _).run i.outage x.state with unchanged | ⟨status, ended, success⟩
    · exact unchanged
    · simp only [ranIn, ended, Ending.status] at failed
      exact (failed success).elim

private theorem world_evaluate_of_failed (builtin : i.catalog = .builtin) (mode : Mode)
    (levels : Nat) (script : String) (s : State)
    (failed : (i.evaluate m mode levels script s).ending.status ≠ .success) :
    (i.evaluate m mode levels script s).stop.world =
      (i.evaluate m mode levels script s).afterSpans.world := by
  cases levels with
  | zero => rfl
  | succ levels =>
    rw [ending_evaluate_succ] at failed
    rw [stop_evaluate_succ, afterSpans_evaluate_succ]
    exact world_finish_of_failed m builtin _ failed

/-- Failure atomicity. Whatever accesses break down, each evaluation in a run that ends with another
status than success leaves the roles and the tables as its spans left them. A run of a script
without spans that ends so leaves them as they were. -/
theorem failure_atomicity (settings : Settings) (outage : Outage) (mode : Mode) (script : String)
    (s : State) :
    let run := ({ settings, outage } : Interpreter).run m mode script s
    (∀ q : Run, q.Within run → q.evaluation.status ≠ .success →
      q.stop.world = q.afterSpans.world) ∧
    (SpanFree script m → run.evaluation.status ≠ .success → run.stop.world = s.world) := by
  intro run
  have all (q : Run) (within : q.Within run) (failed : q.evaluation.status ≠ .success) :
      q.stop.world = q.afterSpans.world := by
    obtain ⟨mode', levels, script', t, evaluated⟩ := exists_evaluate_of_within _ m within rfl
    subst evaluated
    exact world_evaluate_of_failed m rfl mode' levels script' t failed
  refine ⟨all, ?_⟩
  intro plain failed
  have start : run.afterSpans = s := by
    simp only [run, Interpreter.run, afterSpans_evaluate_succ, expansion_of_spanFree _ m plain]
  rw [all run (.self _) failed, start]

theorem failure_atomicity_of_unwritable_tables :
    let s : State := { world := { roles := .ofLists ["1"] [] } }
    let i : Interpreter :=
      { outage := fun _ access => if access.isWrite then some (.panic none) else none }
    let nested := i.run { sender := "1" } .streaming "tset::9 motd \"neax[promote::7]\"" s
    let plain := i.run { sender := "1" } .buffered "tset::9 motd 5" s
    (nested.Within nested ∧ nested.evaluation.status ≠ .success ∧
      nested.stop.world = nested.afterSpans.world ∧ nested.stop.world.isAdmin "7" = true) ∧
    SpanFree "tset::9 motd 5" { sender := "1" } ∧ plain.evaluation.status ≠ .success ∧
      plain.stop.world = s.world := by
  intro s i nested plain
  have refused : nested.evaluation.status ≠ .success := by decide +kernel
  have unwritten : plain.evaluation.status ≠ .success := by decide +kernel
  have free : SpanFree "tset::9 motd 5" { sender := "1" } := by decide +kernel
  have kept : nested.stop.world = nested.afterSpans.world :=
    (failure_atomicity { sender := "1" } {} i.outage .streaming _ s).1 nested (.self _) refused
  have asBefore : plain.stop.world = s.world :=
    (failure_atomicity { sender := "1" } {} i.outage .buffered _ s).2 free unwritten
  have granted : nested.stop.world.isAdmin "7" = true := by decide +kernel
  exact ⟨⟨.self _, refused, kept, granted⟩, free, unwritten, asBefore⟩

end Interpreter

end OperatorScript
