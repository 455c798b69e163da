import OperatorScript.Json.Equality
import OperatorScript.Procedure

/-!
Writing at a path, compared with changing the whole record.

A write asks for the member that its first key names, changes it by itself and merges it back. The
main statement: this leaves the record that a change of the whole record at the path would leave,
and every other record as it was.
-/

set_option autoImplicit false
set_option relaxedAutoImplicit false

namespace OperatorScript

open Json

namespace Json

private theorem Value.set_getD_null (new : Value) (key : String) (rest : List String)
    (v : Option Value) :
    set new (key :: rest) (v.getD .null) = set new (key :: rest) (v.getD (.obj [])) := by
  cases v with
  | none => rfl
  | some v => rfl

theorem Record.get?_pick_self {key : String} (single : dottedKeys key = [key]) (r : Record) :
    (r.pick key).get? key = r.get? key := by
  rw [pick_of_dottedKeys single]
  cases found : r.get? key with
  | none => rfl
  | some v => simp [Dict.get?]

end Json

namespace Procedure

theorem run_writePath_eq {key : String} (single : dottedKeys key = [key]) (scope : Scope)
    (id : String) (rest : List String) (value : Value) (s : State) :
    ∃ record accesses,
      Value.set value (key :: rest) (.obj ((s.world.table scope).record id)) = .obj record ∧
      (writePath scope id (key :: rest) value : Procedure String Unit).run .none s =
        { chunks := [], result := .ok ()
          state :=
            { world := s.world.withTable scope ((s.world.table scope).insert id record)
              accesses } } := by
  cases rest with
  | nil => exact ⟨_, _, rfl, rfl⟩
  | cons next rest =>
    refine ⟨_, s.accesses + 2, rfl, ?_⟩
    have member : (s.world.read scope id (.path key)).get? key =
        ((s.world.table scope).record id).get? key :=
      Record.get?_pick_self single _
    have written :
        (writePath scope id (key :: next :: rest) value : Procedure String Unit).run .none s =
          { chunks := [], result := .ok ()
            state :=
              { world := s.world.write scope id
                  [(key, Value.set value (next :: rest)
                    (((s.world.read scope id (.path key)).get? key).getD .null))]
                accesses := s.accesses + 2 } } := rfl
    rw [written, member, Value.set_getD_null]
    rfl

/-- A write refines a change of the whole record. It always succeeds. Without keys it leaves the
world as it is; with keys, the record is the one that changing the whole of it at these keys gives,
an unknown record being taken as empty, and no other record, no other table and no rank differs. -/
theorem written_as_changed (scope : Scope) (id : String) (parts : List String) (value : Value)
    (s : State) :
    let keys := pathKeys parts
    let written := (writePath scope id keys value : Procedure String Unit).run .none s
    let before := s.world
    let after := written.state.world
    written.result = .ok () ∧
    (keys = [] → after = before) ∧
    (keys ≠ [] →
      Value.obj (after.read scope id .whole) =
        Value.set value keys (.obj (before.read scope id .whole)) ∧
      ∀ other, other ∈ (after.table scope).keys ↔
        other = id ∨ other ∈ (before.table scope).keys) ∧
    (∀ other, other ≠ id → (after.table scope).get? other = (before.table scope).get? other) ∧
    (∀ other, other ≠ scope → after.table other = before.table other) ∧
    after.roles = before.roles := by
  intro keys written before after
  cases eq : keys with
  | nil =>
    have unchanged : written = { chunks := [], result := .ok (), state := s } := by
      simp only [written, eq]
      rfl
    have same : after = before := congrArg (fun o => o.state.world) unchanged
    refine ⟨congrArg Outcome.result unchanged, fun _ => same, fun filled => (filled rfl).elim, ?_⟩
    rw [same]
    exact ⟨fun _ _ => rfl, fun _ _ => rfl, rfl⟩
  | cons key rest =>
    have single : dottedKeys key = [key] := dottedKeys_of_mem_pathKeys (eq ▸ List.mem_cons_self)
    obtain ⟨record, accesses, changed, run⟩ :=
      run_writePath_eq single scope id rest value s
    have whole : written =
        { chunks := [], result := .ok ()
          state :=
            { world := before.withTable scope ((before.table scope).insert id record)
              accesses } } := by
      simp only [written, eq]
      exact run
    have table : after.table scope = (before.table scope).insert id record := by
      simp only [after, whole, World.table_withTable_self]
    refine ⟨congrArg Outcome.result whole, nofun, fun _ => ⟨?_, ?_⟩, ?_, ?_, ?_⟩
    · rw [World.read, table, World.read]
      simp only [World.Part.of, Table.record, Dict.get?_insert_self, Option.getD_some]
      exact changed.symm
    · intro other
      rw [table]
      exact Dict.mem_keys_insert
    · intro other ne
      rw [table]
      exact Dict.get?_insert_of_ne ne _ _
    · intro other ne
      simp only [after, whole]
      exact World.table_withTable_of_ne ne _ _
    · simp only [after, whole]
      exact World.roles_withTable _ _ _

theorem written_as_changed_below_number :
    let s : State :=
      { world :=
          { users := [("8", []), ("9", [("bank", .ofInt 3), ("name", .str "Ada")])] } }
    let keys := pathKeys ["bank.", "left"]
    let written := (writePath .users "9" keys (.bool true) : Procedure String Unit).run .none s
    keys ≠ [] ∧
    Value.obj (written.state.world.read .users "9" .whole) =
      Value.set (.bool true) keys (.obj (s.world.read .users "9" .whole)) ∧
    written.state.world.read .users "9" .whole =
      [("bank", .obj [("left", .bool true)]), ("name", .str "Ada")] := by
  intro s keys written
  have filled : keys ≠ [] := by decide +kernel
  have changed := (written_as_changed .users "9" ["bank.", "left"] (.bool true) s).2.2.1 filled
  exact ⟨filled, changed.1, by decide +kernel⟩

end Procedure

end OperatorScript
