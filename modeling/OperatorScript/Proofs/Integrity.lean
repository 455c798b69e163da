import OperatorScript.Proofs.Evaluation

/-!
Integrity: what a sender without the rank of administrator cannot change.

Such a sender changes its own records of users and threads at most. The rank is that of the state in
which the command at hand begins, so it may be lost in the middle of a script.
-/

set_option autoImplicit false
set_option relaxedAutoImplicit false

namespace OperatorScript

open Json

/-- Nothing differs but the personal records of one identity: the roles and the global table are the
same, and no other record has been changed, made or removed. -/
structure World.Spares (own : String) (before after : World) : Prop where
  roles : after.roles = before.roles
  global : after.global = before.global
  users : ∀ id, id ≠ own → after.users.get? id = before.users.get? id
  threads : ∀ id, id ≠ own → after.threads.get? id = before.threads.get? id

namespace World.Spares

variable {own : String} {u v w : World}

theorem refl (own : String) (w : World) : w.Spares own w :=
  ⟨rfl, rfl, fun _ _ => rfl, fun _ _ => rfl⟩

theorem trans (first : u.Spares own v) (second : v.Spares own w) : u.Spares own w where
  roles := second.roles.trans first.roles
  global := second.global.trans first.global
  users id ne := (second.users id ne).trans (first.users id ne)
  threads id ne := (second.threads id ne).trans (first.threads id ne)

theorem isAdmin_eq (spared : v.Spares own w) (id : String) : w.isAdmin id = v.isAdmin id := by
  unfold isAdmin
  rw [spared.roles]

private theorem write {scope : Scope} (personal : scope ≠ .global) (own : String) (w : World)
    (part : Record) : w.Spares own (w.write scope own part) := by
  cases scope with
  | users => exact ⟨rfl, rfl, fun _ ne => Dict.get?_insert_of_ne ne _ _, fun _ _ => rfl⟩
  | threads => exact ⟨rfl, rfl, fun _ _ => rfl, fun _ ne => Dict.get?_insert_of_ne ne _ _⟩
  | global => exact (personal rfl).elim

end World.Spares

private theorem Context.spares_of_permits {c : Context} (notAdmin : c.authorIsAdmin = false)
    (x : Interaction) (w : World) (permitted : c.Permits x) : w.Spares c.author (x.apply w) := by
  match x, permitted with
  | .access (.read ..), _ => exact .refl _ w
  | .access (.write ..), .inl admin => simp [notAdmin] at admin
  | .access (.write ..), .inr ⟨personal, self⟩ =>
    subst self
    exact .write personal _ w _
  | .role _, admin => simp [Permits, notAdmin] at admin

private theorem Command.IsBuiltin.spares_run {command : Command} (builtin : command.IsBuiltin)
    {c : Context} (notAdmin : c.authorIsAdmin = false) (outage : Outage) (s : State) :
    s.world.Spares c.author ((command.body c).run outage s).state.world :=
  Procedure.rel_run (World.Spares.refl _) World.Spares.trans (Context.spares_of_permits notAdmin)
    outage (builtin.only_permits c) s

namespace Interpreter

variable {i : Interpreter} (m : Message)

theorem spares_finish (builtin : i.catalog = .builtin) (x : Expansion)
    (notAdmin : x.state.world.isAdmin m.sender = false) :
    x.state.world.Spares m.sender (i.finish m x).2.world := by
  rcases finish_cases m builtin x with ⟨_, stop⟩ | ⟨st, permission, command, _, found, run⟩
  · rw [stop]
    exact .refl _ _
  · have known := (Catalog.isBuiltin_of_command? found).1
    rw [run]
    exact known.spares_run (c := i.context m st x.state permission) notAdmin i.outage x.state

/-- The evaluation of a sender that is no administrator at the start spares all others. -/
private theorem spares_evaluate (builtin : i.catalog = .builtin) (mode : Mode) (levels : Nat)
    (script : String) {s : State} (notAdmin : s.world.isAdmin m.sender = false) :
    s.world.Spares m.sender (i.evaluate m mode levels script s).stop.world := by
  let R (s t : State) : Prop :=
    s.world.isAdmin m.sender = false → s.world.Spares m.sender t.world
  have trans {s t u : State} (first : R s t) (second : R t u) : R s u := by
    intro notAdmin
    have spared := first notAdmin
    have still : t.world.isAdmin m.sender = false := by rw [spared.isAdmin_eq, notAdmin]
    exact spared.trans (second still)
  have whole : R s (i.evaluate m mode levels script s).stop :=
    rel_evaluate i m (R := R) (fun s _ => World.Spares.refl m.sender s.world) trans
      (spares_finish m builtin) mode levels script s
  exact whole notAdmin

private theorem isAdmin_of_not_spares (builtin : i.catalog = .builtin) {mode : Mode} {levels : Nat}
    {script : String} {s : State} {q : Run} (evaluated : q = i.evaluate m mode levels script s)
    (changed : ¬ q.afterSpans.world.Spares m.sender q.stop.world) :
    q.afterSpans.world.isAdmin m.sender = true := by
  subst evaluated
  cases levels with
  | zero => exact (changed (.refl _ _)).elim
  | succ levels =>
    rw [afterSpans_evaluate_succ] at changed ⊢
    rw [stop_evaluate_succ] at changed
    cases rank : (i.expansion m levels script s).state.world.isAdmin m.sender with
    | true => rfl
    | false => exact (changed (spares_finish m builtin _ rank)).elim

/-- Integrity. A sender that is no administrator when a run starts leaves the roles, the global
table and the personal records of all others as they are. In the run of any sender, each command,
however deep the span in which it stands, runs from the state after the spans of its own statement,
and if it changes a role, the global table or a record of another identity, its sender is an
administrator there. -/
theorem integrity (settings : Settings) (outage : Outage) (mode : Mode) (script : String)
    (s : State) :
    let run := ({ settings, outage } : Interpreter).run m mode script s
    (s.world.isAdmin m.sender = false → s.world.Spares m.sender run.stop.world) ∧
    ∀ (q : Run) (c : Context) (chunks : List String) (ending : Except Fault Status),
      q.Within run → q.ending = .ran c chunks ending →
      (∃ command, Catalog.builtin.command? c.name = some command ∧
        (command.body c).run outage q.afterSpans =
          { chunks, result := ending, state := q.stop }) ∧
      (¬ q.afterSpans.world.Spares m.sender q.stop.world →
        q.afterSpans.world.isAdmin m.sender = true) := by
  intro run
  refine ⟨spares_evaluate m rfl mode _ script, ?_⟩
  intro q c chunks ending within ran
  obtain ⟨mode', levels, script', t, evaluated⟩ := exists_evaluate_of_within _ m within rfl
  have executed := run_afterSpans_of_ran m rfl evaluated ran
  exact ⟨executed, isAdmin_of_not_spares m rfl evaluated⟩

theorem integrity_of_visitor_and_administrator :
    let s : State :=
      { world := { users := [("5", [("money", .ofInt 3)])], roles := .ofLists ["1"] [] } }
    let visit :=
      ({} : Interpreter).run { sender := "5" } .streaming "uincr::self money neax[num:: 5]" s
    let grant := ({} : Interpreter).run { sender := "1" } .streaming "uset::9 money 5" s
    (s.world.isAdmin "5" = false ∧ s.world.Spares "5" visit.stop.world) ∧
    ∃ c chunks ending, grant.Within grant ∧ grant.ending = .ran c chunks ending ∧
      ¬ grant.afterSpans.world.Spares "1" grant.stop.world ∧
      grant.afterSpans.world.isAdmin "1" = true := by
  intro s visit grant
  have visitor : s.world.isAdmin "5" = false := by decide +kernel
  obtain ⟨c, chunks, ending, ran⟩ := Ending.exists_eq_ran (e := grant.ending) (by decide +kernel)
  have made : ¬ grant.afterSpans.world.Spares "1" grant.stop.world := by
    intro spared
    have same := congrArg Option.isSome (spared.users "9" (by decide))
    exact absurd same (by decide +kernel)
  have spared : s.world.Spares "5" visit.stop.world :=
    (integrity { sender := "5" } {} .none .streaming _ s).1 visitor
  have admin : grant.afterSpans.world.isAdmin "1" = true :=
    ((integrity { sender := "1" } {} .none .streaming _ s).2 grant c chunks ending (.self _) ran).2
      made
  exact ⟨⟨visitor, spared⟩, c, chunks, ending, .self _, ran, made, admin⟩

end Interpreter

end OperatorScript
