import OperatorScript.Proofs.Builtin
import OperatorScript.Proofs.Interleaving

/-!
Places: single members of records.

A command on a property reads and writes the place that the first key of its path names, unless it
shows a whole record. The main statements: interactions at different places are independent, and
such a command keeps to its place.
-/

set_option autoImplicit false
set_option relaxedAutoImplicit false

namespace OperatorScript

open Json Procedure

/-- A member of a record: the table and the identity of the record, and the name of the member. -/
structure Place where
  scope : Scope
  id : String
  key : String
deriving DecidableEq

private theorem Table.write_comm {id id' key key' : String} (apart : id' = id → key' ≠ key)
    (t : Table) (value value' : Value) :
    (t.write id [(key, value)]).write id' [(key', value')] =
      (t.write id' [(key', value')]).write id [(key, value)] := by
  by_cases same : id' = id
  · subst same
    have members : ((t.record id').insert key value).insert key' value' =
        ((t.record id').insert key' value').insert key value :=
      Dict.insert_comm (apart rfl) _ _ _
    simp only [write, record, Dict.get?_insert_self, Option.getD_some, Dict.insert_insert_self,
      Dict.merge, List.foldl_cons, List.foldl_nil] at members ⊢
    rw [members]
  · rw [write, record_write_of_ne same, write, write, record_write_of_ne (Ne.symm same), write]
    exact Dict.insert_comm same _ _ _

namespace World

variable (w : World)

private theorem withTable_withTable_self (scope : Scope) (t u : Table) :
    (w.withTable scope t).withTable scope u = w.withTable scope u := by
  cases scope <;> rfl

private theorem withTable_comm {scope other : Scope} (ne : other ≠ scope) (t u : Table) :
    (w.withTable scope t).withTable other u = (w.withTable other u).withTable scope t := by
  cases scope <;> cases other <;> simp_all [withTable]

private theorem roles_write (scope : Scope) (id : String) (part : Record) :
    (w.write scope id part).roles = w.roles := w.roles_withTable scope _

private theorem write_comm {p q : Place} (ne : q ≠ p) (value value' : Value) :
    (w.write p.scope p.id [(p.key, value)]).write q.scope q.id [(q.key, value')] =
      (w.write q.scope q.id [(q.key, value')]).write p.scope p.id [(p.key, value)] := by
  obtain ⟨scope, id, key⟩ := p
  obtain ⟨scope', id', key'⟩ := q
  simp only [write]
  by_cases tables : scope' = scope
  · subst tables
    have apart (sameId : id' = id) : key' ≠ key := by
      rintro rfl
      exact ne (by rw [sameId])
    simp only [table_withTable_self, withTable_withTable_self, Table.write_comm apart]
  · rw [table_withTable_of_ne tables, table_withTable_of_ne (Ne.symm tables)]
    exact w.withTable_comm tables _ _

private theorem read_write_of_ne {p q : Place} (ne : q ≠ p) (single : dottedKeys p.key = [p.key])
    (value : Value) :
    (w.write q.scope q.id [(q.key, value)]).read p.scope p.id (.path p.key) =
      w.read p.scope p.id (.path p.key) := by
  obtain ⟨scope, id, key⟩ := p
  obtain ⟨scope', id', key'⟩ := q
  simp only [read, Part.of, Record.pick_of_dottedKeys single, write]
  by_cases tables : scope = scope'
  · subst tables
    rw [table_withTable_self]
    by_cases records : id = id'
    · subst records
      have members : key ≠ key' := by
        rintro rfl
        exact ne rfl
      have kept : (Dict.insert key' value ((w.table scope).record id)).get? key =
          ((w.table scope).record id).get? key := Dict.get?_insert_of_ne members _ _
      rw [Table.record_write_self]
      simp only [Dict.merge, List.foldl_cons, List.foldl_nil, kept]
    · rw [Table.record_write_of_ne records]
  · rw [table_withTable_of_ne tables]

end World

namespace Place

/-- What a command that keeps to a place may ask: who holds which rank, and for the place itself. -/
inductive Allows (p : Place) : Interaction → Prop
  | ask (rank : Rank) (id : String) : Allows p (.role (.ask rank id))
  | read : Allows p (.access (.read p.scope p.id (.path p.key)))
  | write (value : Value) : Allows p (.access (.write p.scope p.id [(p.key, value)]))

private theorem allows_of_atMember {p : Place} {x : Interaction}
    (at_ : x.AtMember p.scope p.id p.key) : p.Allows x := by
  cases at_ with
  | read => exact .read
  | write value => exact .write value

private theorem independent_ask {p : Place} {x : Interaction} (allowed : p.Allows x) (rank : Rank)
    (id : String) : x.Independent (.role (.ask rank id)) := by
  have same (w : World) : (Interaction.role (.ask rank id)).apply w = w := rfl
  cases allowed with
  | ask | read => exact ⟨fun _ => rfl, fun _ => rfl, fun _ => rfl⟩
  | write value =>
    refine ⟨fun _ => trivial, fun w => ?_, fun _ => rfl⟩
    have kept : (w.write p.scope p.id [(p.key, value)]).roles = w.roles := w.roles_write _ _ _
    simp only [Interaction.AnsweredAlike, Interaction.apply, Roles.perform, kept]

theorem independent {p q : Place} (ne : q ≠ p) (single : dottedKeys p.key = [p.key])
    (single' : dottedKeys q.key = [q.key]) {x y : Interaction} (left : p.Allows x)
    (right : q.Allows y) : x.Independent y := by
  cases right with
  | ask rank id => exact independent_ask left rank id
  | read =>
    cases left with
    | ask rank id => exact (independent_ask (p := q) .read rank id).symm
    | read => exact ⟨fun _ => rfl, fun _ => rfl, fun _ => rfl⟩
    | write value =>
      have unseen (w : World) := w.read_write_of_ne (Ne.symm ne) single' value
      exact ⟨fun _ => trivial, fun w => (unseen w).symm, fun _ => rfl⟩
  | write value' =>
    cases left with
    | ask rank id => exact (independent_ask (p := q) (.write value') rank id).symm
    | read =>
      have unseen (w : World) := w.read_write_of_ne ne single value'
      exact ⟨fun w => (unseen w).symm, fun _ => trivial, fun _ => rfl⟩
    | write value =>
      exact ⟨fun _ => trivial, fun _ => trivial, fun w => (w.write_comm ne value value').symm⟩

def ofProperty (scope : Scope) (target : String) (args : ArgList) : Option Place :=
  args.firstKey?.map fun key => { scope, id := target, key }

def ofShown (scope : Scope) (target : String) (args : ArgList) : Option Place :=
  if args.hasFlag "all" then none
  else (pathKeys args.args).head?.map fun key => { scope, id := target, key }

def ofCommand (name target : String) (args : ArgList) : Option Place :=
  match name with
  | "uset" | "uincr" => ofProperty .users target args
  | "tset" | "tincr" => ofProperty .threads target args
  | "uget" => ofShown .users target args
  | "tget" => ofShown .threads target args
  | _ => none

private theorem dottedKeys_of_ofProperty {scope : Scope} {target : String} {args : ArgList}
    {p : Place} (found : ofProperty scope target args = some p) : dottedKeys p.key = [p.key] := by
  obtain ⟨key, first, rfl⟩ := Option.map_eq_some_iff.mp found
  obtain ⟨property, _, head⟩ := Option.bind_eq_some_iff.mp first
  exact dottedKeys_of_mem_pathKeys (List.mem_of_head? head)

private theorem dottedKeys_of_ofShown {scope : Scope} {target : String} {args : ArgList} {p : Place}
    (found : ofShown scope target args = some p) : dottedKeys p.key = [p.key] := by
  unfold ofShown at found
  split at found
  · cases found
  · obtain ⟨key, head, rfl⟩ := Option.map_eq_some_iff.mp found
    exact dottedKeys_of_mem_pathKeys (List.mem_of_head? head)

theorem dottedKeys_of_ofCommand {name target : String} {args : ArgList} {p : Place}
    (found : ofCommand name target args = some p) : dottedKeys p.key = [p.key] := by
  unfold ofCommand at found
  split at found
  · exact dottedKeys_of_ofProperty found
  · exact dottedKeys_of_ofProperty found
  · exact dottedKeys_of_ofProperty found
  · exact dottedKeys_of_ofProperty found
  · exact dottedKeys_of_ofShown found
  · exact dottedKeys_of_ofShown found
  · cases found

private theorem only_ofProperty {R : Prop} {scope : Scope} {target : String} {args : ArgList}
    {p : Place}
    (found : ofProperty scope target args = some p) {procedure : Procedure String Status}
    (only : procedure.Only fun x =>
      R ∧ ∃ key, args.firstKey? = some key ∧ x.AtMember scope target key) :
    procedure.Only p.Allows := by
  obtain ⟨key, first, rfl⟩ := Option.map_eq_some_iff.mp found
  refine only.mono ?_
  rintro x ⟨_, other, first', at_⟩
  obtain rfl : key = other := Option.some.inj (first.symm.trans first')
  exact allows_of_atMember at_

end Place

namespace Command

private theorem get_only_ofShown (c : Context) (owner : Owner) {p : Place}
    (found : Place.ofShown owner.scope c.target c.args = some p) :
    ((get owner).body c).Only p.Allows := by
  unfold Place.ofShown at found
  split at found
  · cases found
  · next all =>
    obtain ⟨key, head, rfl⟩ := Option.map_eq_some_iff.mp found
    obtain ⟨rest, keys⟩ := List.head?_eq_some_iff.mp head
    have part : c.args.hasFlag "all" = false := by simpa using all
    unfold get
    dsimp only
    split
    · trivial
    · split
      · trivial
      · split
        · trivial
        · refine Only.bind ?_ fun _ => trivial
          rw [keys, part]
          exact only_queryRecord .read

/-- A built-in command on a single property keeps to its place. -/
theorem IsBuiltin.only_place {command : Command} (builtin : command.IsBuiltin) (c : Context)
    {p : Place} (found : Place.ofCommand command.name c.target c.args = some p) :
    (command.body c).Only p.Allows := by
  cases builtin with
  | set owner =>
    cases owner with
    | user => exact Place.only_ofProperty found (set_only c .user)
    | thread => exact Place.only_ofProperty found (set_only c .thread)
  | increment owner =>
    cases owner with
    | user => exact Place.only_ofProperty found (increment_only c .user)
    | thread => exact Place.only_ofProperty found (increment_only c .thread)
  | get owner =>
    cases owner with
    | user => exact get_only_ofShown c .user found
    | thread => exact get_only_ofShown c .thread found
  | _ => cases found

end Command

end OperatorScript
