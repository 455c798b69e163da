import OperatorScript.Json.Equality
import OperatorScript.Proofs.History
import OperatorScript.Proofs.Place
import OperatorScript.Proofs.Stages

/-!
Concurrency: statements that are evaluated in one world at the same time.

The evaluation of a statement is a procedure of its own, whose accesses may fall between those of
another one. The main statement: if two statements on single properties keep to different places,
no update is lost, and both end as if they were evaluated one after the other.
-/

set_option autoImplicit false
set_option relaxedAutoImplicit false

namespace OperatorScript

open Json

namespace Procedure

variable {Out α : Type} {P : Interaction → Prop}

/-- A procedure that goes the same way, but keeps its chunks and its value or fault to itself until
it ends. -/
def recorded : Procedure Out α → Procedure Empty (List Out × Except Fault α)
  | .done value => .done ([], .ok value)
  | .emit chunk next => next.recorded.bind fun (chunks, result) => .done (chunk :: chunks, result)
  | .read scope id part next => .read scope id part fun answer => (next answer).recorded
  | .write scope id part next => .write scope id part fun answer => (next answer).recorded
  | .role act next => .role act fun answer => (next answer).recorded
  | .fail failure => .done ([], .error failure.toFault)
  | .panic text => .done ([], .error (.ofPanic text))

private theorem run_recorded (p : Procedure Out α) (s : State) :
    p.recorded.run .none s =
      { chunks := [], result := .ok ((p.run .none s).chunks, (p.run .none s).result),
        state := (p.run .none s).state } := by
  induction p generalizing s with
  | done | fail | panic => rfl
  | emit chunk next ih => simp only [recorded, run_bind, ih, run, Outcome.after, Outcome.afterAll,
      List.append_nil]
  | read scope id part next ih => exact ih _ s.tick
  | write scope id part next ih => exact ih _ _
  | role act next ih => exact ih _ _

private theorem only_recorded {p : Procedure Out α} (only : p.Only P) : p.recorded.Only P := by
  induction p with
  | done | fail | panic => trivial
  | emit _ _ ih => exact (ih only).bind fun _ => trivial
  | read _ _ _ _ ih => exact ⟨only.1, fun answer => ih answer (only.2 answer)⟩
  | write _ _ _ _ ih => exact ⟨only.1, fun answer => ih answer (only.2 answer)⟩
  | role _ _ ih => exact ⟨only.1, fun answer => ih answer (only.2 answer)⟩

end Procedure

def Statement.place? (st : Statement) : Option Place :=
  Place.ofCommand st.command st.target (.read st.tail)

def Submission.place? (q : Submission) : Option Place :=
  match Statement.read (Placeholder.fill q.script q.message) q.message with
  | .error _ => none
  | .ok st => st.place?

namespace Interpreter

variable (i : Interpreter)

def commandTask (c : Context) : Procedure Empty Ending :=
  match i.catalog.command? c.name with
  | none => .done (.unknownCommand c.name)
  | some command =>
    (command.body c).recorded.bind fun (chunks, ending) => .done (.ran c chunks ending)

def modifierTask (c : Context) : Option String → Procedure Empty Ending
  | none => i.commandTask c
  | some name =>
    match i.catalog.modifier? name with
    | none => .done (.unknownModifier name)
    | some modifier =>
      (modifier.body c).recorded.bind fun
        | (_, .error fault) => .done (.modifierFailed fault)
        | (_, .ok permission) => i.commandTask { c with permission }

/-- The evaluation of a statement as one procedure: it asks for the ranks of its author and its
target, its modifier chooses a permission, and its command runs. -/
def statementTask (m : Message) (st : Statement) : Procedure Empty Ending :=
  .role (.ask .admin m.sender) fun authorIsAdmin =>
    .role (.ask .admin st.target) fun targetIsAdmin =>
      i.modifierTask
        { Context.ofStatement i.settings i.catalog.directory m {} st with
          authorIsAdmin, targetIsAdmin } st.modifier

/-- The evaluation of a script without spans as one procedure, which ends with how it ended. -/
-- Kept folded, since types that mention it would otherwise be reduced by reading the script.
@[irreducible]
def task (q : Submission) : Procedure Empty Ending :=
  match Statement.read (Placeholder.fill q.script q.message) q.message with
  | .error text => .done (.noSeparator text)
  | .ok st => i.statementTask q.message st

section Run

variable {i} (intact : i.outage = .none)

include intact

private theorem run_commandTask (c : Context) (s : State) :
    (i.commandTask c).run .none s =
      { chunks := [], result := .ok (i.command c s).1, state := (i.command c s).2 } := by
  unfold commandTask command
  rw [intact]
  cases i.catalog.command? c.name with
  | none => rfl
  | some command =>
    dsimp only
    rw [Procedure.run_bind, Procedure.run_recorded]
    rfl

private theorem run_modifierTask (m : Message) (st : Statement) (s : State) :
    (i.modifierTask (i.context m st s .strict) st.modifier).run .none s =
      { chunks := [], result := .ok (i.statement m st s).1, state := (i.statement m st s).2 } := by
  cases written : st.modifier with
  | none =>
    rw [statement_of_no_modifier written]
    simp only [modifierTask, run_commandTask intact]
  | some name =>
    cases found : i.catalog.modifier? name with
    | none =>
      rw [statement_of_unknown_modifier written found]
      simp only [modifierTask, found]
      rfl
    | some modifier =>
      rw [statement_of_modifier written found, intact]
      simp only [modifierTask, found, Procedure.run_bind, Procedure.run_recorded]
      cases ((modifier.body (i.context m st s .strict)).run .none s).result with
      | error fault => rfl
      | ok permission =>
        dsimp only
        rw [run_commandTask intact]
        rfl

private theorem run_statementTask (m : Message) (st : Statement) (s : State) :
    (i.statementTask m st).run .none s =
      { chunks := [], result := .ok (i.statement m st s).1, state := (i.statement m st s).2 } :=
  run_modifierTask intact m st s

private theorem run_task {q : Submission} (plain : SpanFree q.script q.message) (s : State) :
    (i.task q).run .none s =
      { chunks := [], result := .ok (i.submit q s).ending, state := (i.submit q s).stop } := by
  have begun : i.expansion q.message maxInlineDepth q.script s =
      { text := (Placeholder.fill q.script q.message).toList, runs := [], state := s } :=
    i.expansion_of_spanFree q.message plain maxInlineDepth s
  have spans : (i.expansion q.message maxInlineDepth q.script s).failures = [] := by
    rw [begun]
    rfl
  simp only [submit, Interpreter.run, ending_evaluate_succ, stop_evaluate_succ, task,
    finish_of_no_failures _ _ spans]
  rw [begun]
  simp only [String.ofList_toList]
  cases Statement.read (Placeholder.fill q.script q.message) q.message with
  | error text => rfl
  | ok st => exact run_statementTask intact q.message st s

private theorem endIn_task {q : Submission} (plain : SpanFree q.script q.message) (s : State) :
    (i.task q).endIn s.world = (.ok (i.submit q s).ending, (i.submit q s).stop.world) := by
  rw [Procedure.endIn_eq_run, run_task intact plain]

end Run

private theorem only_task {i : Interpreter} (builtin : i.catalog = .builtin) {q : Submission}
    {p : Place} (at_ : q.place? = some p) : (i.task q).Only p.Allows := by
  unfold Submission.place? at at_
  unfold task
  split at at_
  · cases at_
  · next st read =>
    have command (c : Context) (name : c.name = st.command) (target : c.target = st.target)
        (args : c.args = .read st.tail) : (i.commandTask c).Only p.Allows := by
      unfold commandTask
      split
      · trivial
      · next command found =>
        rw [builtin] at found
        obtain ⟨known, named⟩ := Catalog.isBuiltin_of_command? found
        have place : Place.ofCommand command.name c.target c.args = some p := by
          rw [named, name, target, args]
          exact at_
        exact (Procedure.only_recorded (known.only_place c place)).bind fun _ => trivial
    refine ⟨.ask _ _, fun _ => ⟨.ask _ _, fun _ => ?_⟩⟩
    unfold modifierTask
    split
    · exact command _ rfl rfl rfl
    · split
      · trivial
      · next modifier found =>
        rw [builtin] at found
        obtain rfl : modifier = Command.rise := Catalog.eq_rise_of_modifier? found
        exact command _ rfl rfl rfl

end Interpreter

structure Run.EndsAs (r : Run) (mode : Mode) (e : Ending) : Prop where
  ending : r.ending = e
  evaluation : r.evaluation = { status := e.status, result := (e.deliver mode).result }
  sent : r.sent = (e.deliver mode).sent

namespace Interpreter

private theorem endsAs_submit (i : Interpreter) (q : Submission) (s : State) :
    (i.submit q s).EndsAs q.mode (i.submit q s).ending := by
  have delivered : (i.submit q s).delivery = (i.submit q s).ending.deliver q.mode := by
    rw [submit_eq]
    exact i.delivery_evaluate q.message q.mode _ q.script s
  exact ⟨rfl, by rw [Run.evaluation, delivered], by rw [Run.sent, delivered]⟩

private theorem dottedKeys_of_place? {q : Submission} {p : Place} (at_ : q.place? = some p) :
    dottedKeys p.key = [p.key] := by
  unfold Submission.place? at at_
  split at at_
  · cases at_
  · exact Place.dottedKeys_of_ofCommand at_

section Concurrent

variable {i : Interpreter} (intact : i.outage = .none) {a b : Submission}
  (plain : SpanFree a.script a.message) (plain' : SpanFree b.script b.message)

include intact plain plain'

private theorem leftFirst_task (s : State) :
    (Concurrent.mk (i.task a) (i.task b) s.world).leftFirst =
      (.ok (i.submit a s).ending, .ok (i.submit b (i.submit a s).stop).ending,
        (i.submit b (i.submit a s).stop).stop.world) := by
  simp only [Concurrent.leftFirst, endIn_task intact plain, endIn_task intact plain']

private theorem rightFirst_task (s : State) :
    (Concurrent.mk (i.task a) (i.task b) s.world).rightFirst =
      (.ok (i.submit a (i.submit b s).stop).ending, .ok (i.submit b s).ending,
        (i.submit a (i.submit b s).stop).stop.world) := by
  simp only [Concurrent.rightFirst, endIn_task intact plain, endIn_task intact plain']

end Concurrent

/-- No lost update. Two scripts without spans, each a statement on a single property, that keep to
different places come to an end whatever turns their accesses take, and both end, deliver and leave
the world as they do one after the other, in either order. -/
theorem no_lost_update (i : Interpreter) (builtin : i.catalog = .builtin)
    (intact : i.outage = .none) {a b : Submission} {p q : Place} (s : State)
    (plain : SpanFree a.script a.message) (plain' : SpanFree b.script b.message)
    (at_ : a.place? = some p) (at' : b.place? = some q) (apart : q ≠ p) :
    ∃ (e e' : Ending) (v : World),
      (Concurrent.mk (i.task a) (i.task b) s.world).Inevitably
        (fun c => c = { left := .done e, right := .done e', world := v }) ∧
      ((i.submit a s).EndsAs a.mode e ∧ (i.submit b (i.submit a s).stop).EndsAs b.mode e' ∧
        (i.submit b (i.submit a s).stop).stop.world = v) ∧
      ((i.submit b s).EndsAs b.mode e' ∧ (i.submit a (i.submit b s).stop).EndsAs a.mode e ∧
        (i.submit a (i.submit b s).stop).stop.world = v) := by
  have left : (i.task a).Only p.Allows := only_task builtin at_
  have right : (i.task b).Only q.Allows := only_task builtin at'
  have separate : (Concurrent.mk (i.task a) (i.task b) s.world).Apart p.Allows q.Allows :=
    ⟨fun _ _ => Place.independent apart (dottedKeys_of_place? at_) (dottedKeys_of_place? at'),
      left, right⟩
  have whole := leftFirst_task intact plain plain' s
  have orders := separate.leftFirst_eq_rightFirst
  rw [whole, rightFirst_task intact plain plain' s] at orders
  obtain ⟨left, right, worlds⟩ :
      (i.submit a s).ending = (i.submit a (i.submit b s).stop).ending ∧
      (i.submit b (i.submit a s).stop).ending = (i.submit b s).ending ∧
      (i.submit b (i.submit a s).stop).stop.world =
        (i.submit a (i.submit b s).stop).stop.world := by
    simpa only [Prod.mk.injEq, Except.ok.injEq] using orders
  refine ⟨_, _, _, separate.inevitably whole, ⟨?_, ?_, rfl⟩, ?_, ?_, worlds.symm⟩
  · exact i.endsAs_submit a s
  · exact i.endsAs_submit b _
  · rw [right]
    exact i.endsAs_submit b s
  · rw [left]
    exact i.endsAs_submit a _

theorem no_lost_update_of_writers_of_one_record :
    let s : State :=
      { world := { users := [("5", [("bank", .obj [("gold", .ofInt 3)]), ("wins", .ofInt 4)])]
                   roles := .ofLists ["1"] [] } }
    let i : Interpreter := {}
    let a : Submission := ⟨{ sender := "1" }, .streaming, "uset::5 bank.gold 7"⟩
    let b : Submission := ⟨{ sender := "5" }, .buffered, "uincr::self wins 2"⟩
    SpanFree a.script a.message ∧ SpanFree b.script b.message ∧
    a.place? = some ⟨.users, "5", "bank"⟩ ∧ b.place? = some ⟨.users, "5", "wins"⟩ ∧
    ∃ (e e' : Ending) (v : World),
      (Concurrent.mk (i.task a) (i.task b) s.world).Inevitably
        (fun c => c = { left := .done e, right := .done e', world := v }) ∧
      e.status = .success ∧ e'.status = .success ∧
      v.users = [("5", [("bank", .obj [("gold", .ofInt 7)]), ("wins", .ofInt 6)])] := by
  intro s i a b
  have plain : SpanFree a.script a.message := by decide +kernel
  have plain' : SpanFree b.script b.message := by decide +kernel
  have at_ : a.place? = some ⟨.users, "5", "bank"⟩ := by decide +kernel
  have at' : b.place? = some ⟨.users, "5", "wins"⟩ := by decide +kernel
  obtain ⟨e, e', v, inevitable, ⟨first, second, world⟩, -⟩ :=
    no_lost_update i rfl rfl s plain plain' at_ at' (by decide)
  refine ⟨plain, plain', at_, at', e, e', v, inevitable, ?_, ?_, ?_⟩
  · rw [← first.ending]
    decide +kernel
  · rw [← second.ending]
    decide +kernel
  · rw [← world]
    decide +kernel

end Interpreter

end OperatorScript
