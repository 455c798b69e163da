import OperatorScript.Json.Equality
import OperatorScript.Proofs.Integrity

/-!
Confidentiality: what a sender without the rank of administrator cannot observe.

Two evaluations from worlds that agree on the roles, on the link table and on the records of the
sender go alike, span by span and statement by statement: they deliver the same, end the same, and
leave worlds that agree again.
-/

set_option autoImplicit false
set_option relaxedAutoImplicit false

namespace OperatorScript

open Json

/-- Two worlds agree on everything that an identity may see: the roles, the link table, and its own
records. -/
structure World.SeenAlike (own : String) (w v : World) : Prop where
  roles : ∀ rank id, w.roles.holds rank id = v.roles.holds rank id
  links : w.global.get? LinkTable.recordId = v.global.get? LinkTable.recordId
  user : w.users.get? own = v.users.get? own
  thread : w.threads.get? own = v.threads.get? own

private theorem Table.record_congr {t u : Table} {id : String} (same : t.get? id = u.get? id) :
    t.record id = u.record id := by
  unfold record
  rw [same]

private theorem Table.get?_write_congr {t u : Table} {own : String} (same : t.get? own = u.get? own)
    (id : String) (part : Record) : (t.write id part).get? own = (u.write id part).get? own := by
  unfold write
  rw [Dict.get?_insert, Dict.get?_insert]
  by_cases self : own = id
  · rw [if_pos self, if_pos self, record_congr (self ▸ same)]
  · rw [if_neg self, if_neg self, same]

namespace World.SeenAlike

variable {own : String} {w v : World}

private theorem isAdmin_eq (alike : w.SeenAlike own v) (id : String) :
    w.isAdmin id = v.isAdmin id :=
  alike.roles .admin id

private theorem write (alike : w.SeenAlike own v) (scope : Scope) (id : String) (part : Record) :
    (w.write scope id part).SeenAlike own (v.write scope id part) := by
  obtain ⟨roles, links, user, thread⟩ := alike
  cases scope with
  | users => exact ⟨roles, links, Table.get?_write_congr user id part, thread⟩
  | threads => exact ⟨roles, links, user, Table.get?_write_congr thread id part⟩
  | global => exact ⟨roles, Table.get?_write_congr links id part, user, thread⟩

private theorem read_eq (alike : w.SeenAlike own v) {scope : Scope} {id : String}
    (visible : scope ≠ .global ∧ id = own ∨ scope = .global ∧ id = LinkTable.recordId)
    (part : World.Part) : w.read scope id part = v.read scope id part := by
  have same : (w.table scope).get? id = (v.table scope).get? id := by
    rcases visible with ⟨personal, rfl⟩ | ⟨rfl, rfl⟩
    · cases scope with
      | users => exact alike.user
      | threads => exact alike.thread
      | global => exact (personal rfl).elim
    · exact alike.links
  unfold read
  rw [Table.record_congr same]

end World.SeenAlike

private theorem Command.IsBuiltin.run_seenAlike {command : Command} (builtin : command.IsBuiltin)
    {c : Context} (notAdmin : c.authorIsAdmin = false) {s t : State}
    (alike : s.world.SeenAlike c.author t.world) :
    ((command.body c).run .none s).chunks = ((command.body c).run .none t).chunks ∧
      ((command.body c).run .none s).result = ((command.body c).run .none t).result ∧
      ((command.body c).run .none s).state.world.SeenAlike c.author
        ((command.body c).run .none t).state.world := by
  apply Procedure.run_alike (A := World.SeenAlike c.author) (P := c.Permits) ?_ ?_ ?_
    (builtin.only_permits c) alike
  · intro w v scope id part alike permitted
    rcases permitted with admin | visible
    · simp [notAdmin] at admin
    · exact alike.read_eq visible part
  · intro w v act alike admin
    simp [Context.Permits, notAdmin] at admin
  · intro w v x alike permitted
    cases x with
    | access a =>
      cases a with
      | read => exact alike
      | write scope id part => exact alike.write scope id part
    | role act => simp [Context.Permits, notAdmin] at permitted

/-- The sender sees two states alike, and is no administrator in them. -/
structure State.Alike (m : Message) (s t : State) : Prop where
  seen : s.world.SeenAlike m.sender t.world
  notAdmin : s.world.isAdmin m.sender = false

namespace Interpreter

variable {i : Interpreter} {m : Message}

private theorem ofStatement_congr {s t : State} (alike : s.Alike m t) (st : Statement) :
    Context.ofStatement i.settings i.catalog.directory m s.world st =
      Context.ofStatement i.settings i.catalog.directory m t.world st := by
  simp only [Context.ofStatement, alike.seen.isAdmin_eq]

private theorem command_alike (builtin : i.catalog = .builtin) (intact : i.outage = .none)
    {c : Context} (notAdmin : c.authorIsAdmin = false) {s t : State}
    (alike : s.world.SeenAlike c.author t.world) :
    (i.command c s).1 = (i.command c t).1 ∧
      (i.command c s).2.world.SeenAlike c.author (i.command c t).2.world := by
  unfold Interpreter.command
  rw [builtin, intact]
  split
  · exact ⟨rfl, alike⟩
  · next command found =>
    have known := (Catalog.isBuiltin_of_command? found).1
    obtain ⟨chunks, result, worlds⟩ := known.run_seenAlike notAdmin alike
    dsimp only
    rw [chunks, result]
    exact ⟨rfl, worlds⟩

private theorem statement_alike (builtin : i.catalog = .builtin) (intact : i.outage = .none)
    (st : Statement) {s t : State} (alike : s.Alike m t) :
    (i.statement m st s).1 = (i.statement m st t).1 ∧
      (i.statement m st s).2.world.SeenAlike m.sender (i.statement m st t).2.world := by
  unfold Interpreter.statement
  rw [ofStatement_congr alike]
  have notAdmin : t.world.isAdmin m.sender = false := by
    rw [← alike.seen.isAdmin_eq, alike.notAdmin]
  dsimp only
  split
  · exact command_alike builtin intact notAdmin alike.seen
  · split
    · exact ⟨rfl, alike.seen⟩
    · next modifier found =>
      rw [builtin] at found
      have rise := Catalog.eq_rise_of_modifier? found
      subst rise
      exact command_alike builtin intact notAdmin alike.seen

private theorem finish_alike (builtin : i.catalog = .builtin) (intact : i.outage = .none)
    {x y : Expansion} (text : x.text = y.text) (failures : x.failures = y.failures)
    (alike : x.state.Alike m y.state) :
    (i.finish m x).1 = (i.finish m y).1 ∧ (i.finish m x).2.Alike m (i.finish m y).2 := by
  have spared := spares_finish m builtin x alike.notAdmin
  have still : (i.finish m x).2.world.isAdmin m.sender = false := by
    rw [spared.isAdmin_eq, alike.notAdmin]
  have whole : (i.finish m x).1 = (i.finish m y).1 ∧
      (i.finish m x).2.world.SeenAlike m.sender (i.finish m y).2.world := by
    unfold finish
    rw [text, failures]
    split
    · exact ⟨rfl, alike.seen⟩
    · split
      · exact ⟨rfl, alike.seen⟩
      · exact statement_alike builtin intact _ alike
  exact ⟨whole.1, whole.2, still⟩

/-- Evaluations in states that their sender sees alike end alike, deliver the same, and leave states
that it sees alike. -/
private theorem evaluate_alike (builtin : i.catalog = .builtin) (intact : i.outage = .none)
    (mode : Mode) (levels : Nat) (script : String) {s t : State} (alike : s.Alike m t) :
    (i.evaluate m mode levels script s).ending = (i.evaluate m mode levels script t).ending ∧
      (i.evaluate m mode levels script s).delivery =
        (i.evaluate m mode levels script t).delivery ∧
      (i.evaluate m mode levels script s).stop.Alike m
        (i.evaluate m mode levels script t).stop := by
  induction levels generalizing mode script s t with
  | zero => exact ⟨rfl, rfl, alike⟩
  | succ levels ih =>
    have spans (inner : String) {s t : State} (alike : s.Alike m t) :
        (i.evaluate m .buffered levels inner s).evaluation =
            (i.evaluate m .buffered levels inner t).evaluation ∧
          (i.evaluate m .buffered levels inner s).stop.Alike m
            (i.evaluate m .buffered levels inner t).stop := by
      obtain ⟨ending, delivery, stop⟩ := ih .buffered inner alike
      exact ⟨by simp only [Run.evaluation, ending, delivery], stop⟩
    obtain ⟨text, failures, states⟩ :=
      Expansion.ofPieces_rel (Span.scan (Placeholder.fill script m).toList)
        (fun inner _ _ _ alike => spans (spanScript inner) alike) alike
    obtain ⟨ending, stop⟩ := finish_alike builtin intact text failures states
    simp only [ending_evaluate_succ, delivery_evaluate_succ, stop_evaluate_succ]
    exact ⟨ending, congrArg (Ending.deliver mode) ending, stop⟩

/-- Confidentiality. Two runs of a sender that is no administrator, from states that agree on the
roles, on the link table and on its own records, send the same strings, come to the same status and
result, and leave states that agree on all this again. -/
theorem confidentiality (settings : Settings) (m : Message) (mode : Mode) (script : String)
    {s t : State} (alike : s.world.SeenAlike m.sender t.world)
    (notAdmin : s.world.isAdmin m.sender = false) :
    let i : Interpreter := { settings }
    (i.run m mode script s).sent = (i.run m mode script t).sent ∧
      (i.run m mode script s).evaluation = (i.run m mode script t).evaluation ∧
      (i.run m mode script s).stop.world.SeenAlike m.sender (i.run m mode script t).stop.world := by
  intro i
  obtain ⟨ending, delivery, stop⟩ :=
    evaluate_alike (i := i) rfl rfl mode (maxInlineDepth + 1) script ⟨alike, notAdmin⟩
  refine ⟨?_, ?_, stop.seen⟩
  · exact congrArg Delivery.sent delivery
  · simp only [Run.evaluation, run, ending, delivery]

theorem confidentiality_of_foreign_records :
    let own : Table := [("5", [("money", .ofInt 3)])]
    let s : State := { world := { users := own.write "9" [("money", .ofInt 7)] } }
    let t : State :=
      { world := { users := own.write "9" [("name", .str "Ada")], threads := [("9", [])] } }
    let m : Message := { sender := "5" }
    let script := "uincr::self money neax[num:: 50%]"
    (s.world.SeenAlike m.sender t.world ∧ s.world.isAdmin m.sender = false) ∧
      (run {} m .streaming script s).sent = (run {} m .streaming script t).sent ∧
      (run {} m .streaming script s).evaluation = (run {} m .streaming script t).evaluation ∧
      (run {} m .streaming script s).stop.world.SeenAlike m.sender
        (run {} m .streaming script t).stop.world := by
  intro own s t m script
  have alike : s.world.SeenAlike m.sender t.world :=
    ⟨fun _ _ => rfl, rfl, by decide +kernel, by decide +kernel⟩
  have notAdmin : s.world.isAdmin m.sender = false := by decide
  exact ⟨⟨alike, notAdmin⟩, confidentiality {} m .streaming script alike notAdmin⟩

end Interpreter

end OperatorScript
