import OperatorScript.Json.Path
import OperatorScript.Text.Dict.Lemmas

/-!
The world on which scripts act: three tables of records, and who holds which rank.

A record that was never written is empty, and writing merges members into it. The lemmas say that a
write is seen under its own identity and in its own table only.
-/

set_option autoImplicit false
set_option relaxedAutoImplicit false

namespace OperatorScript

open Json

inductive Scope where
  | users
  | threads
  | global
deriving DecidableEq, Inhabited

def Scope.name : Scope → String
  | .users => "users"
  | .threads => "threads"
  | .global => "global"

abbrev Table := Dict Record

namespace Table

def record (t : Table) (id : String) : Record := (t.get? id).getD []

def write (t : Table) (id : String) (part : Record) : Table :=
  t.insert id ((t.record id).merge part)

theorem record_write_self (t : Table) (id : String) (part : Json.Record) :
    (t.write id part).record id = (t.record id).merge part := by
  simp [write, record]

theorem record_write_of_ne {id other : String} (ne : other ≠ id) (t : Table)
    (part : Json.Record) : (t.write id part).record other = t.record other := by
  simp [write, record, Dict.get?_insert_of_ne ne]

end Table

inductive Rank where
  | admin
  | moderator
deriving DecidableEq

/-- Who holds which rank. The holders of a rank are kept in order. -/
structure Roles where
  admins : Dict Unit := []
  moderators : Dict Unit := []
  adminsOrdered : admins.Ordered := by exact Dict.ordered_nil
  moderatorsOrdered : moderators.Ordered := by exact Dict.ordered_nil
deriving DecidableEq, Inhabited

namespace Roles

def holders (r : Roles) : Rank → Dict Unit
  | .admin => r.admins
  | .moderator => r.moderators

theorem ordered_holders (r : Roles) (rank : Rank) : (r.holders rank).Ordered := by
  cases rank with
  | admin => exact r.adminsOrdered
  | moderator => exact r.moderatorsOrdered

def withHolders (r : Roles) (rank : Rank) (ids : Dict Unit) (ordered : ids.Ordered) : Roles :=
  match rank with
  | .admin => { r with admins := ids, adminsOrdered := ordered }
  | .moderator => { r with moderators := ids, moderatorsOrdered := ordered }

def holds (r : Roles) (rank : Rank) (id : String) : Bool := (r.holders rank).contains id

def ofLists (admins moderators : List String) : Roles :=
  { admins := Dict.ofEntries (admins.map (·, ()))
    moderators := Dict.ofEntries (moderators.map (·, ()))
    adminsOrdered := Dict.ordered_ofEntries _
    moderatorsOrdered := Dict.ordered_ofEntries _ }

inductive Act where
  | ask (rank : Rank) (id : String)
  | grant (rank : Rank) (id : String)
  | revoke (rank : Rank) (id : String)
deriving DecidableEq

/-- Performs an act. Granting and revoking answer whether they changed anything. -/
def perform (r : Roles) : Act → Bool × Roles
  | .ask rank id => (r.holds rank id, r)
  | .grant rank id =>
    (!r.holds rank id,
      r.withHolders rank ((r.holders rank).insert id ()) ((r.ordered_holders rank).insert id ()))
  | .revoke rank id =>
    (r.holds rank id,
      r.withHolders rank ((r.holders rank).erase id) ((r.ordered_holders rank).erase id))

@[simp] theorem holders_withHolders_self (r : Roles) (rank : Rank) (ids : Dict Unit)
    (ordered : ids.Ordered) : (r.withHolders rank ids ordered).holders rank = ids := by
  cases rank <;> rfl

theorem holders_withHolders_of_ne {rank other : Rank} (ne : other ≠ rank) (r : Roles)
    (ids : Dict Unit) (ordered : ids.Ordered) :
    (r.withHolders rank ids ordered).holders other = r.holders other := by
  cases rank <;> cases other <;> simp_all [withHolders, holders]

private theorem withHolders_of_eq {r : Roles} {rank : Rank} {ids : Dict Unit}
    (same : ids = r.holders rank) (ordered : ids.Ordered) :
    r.withHolders rank ids ordered = r := by
  subst same
  cases rank <;> rfl

theorem perform_of_not_answered {r : Roles} {act : Act} (unchanged : (r.perform act).1 = false) :
    (r.perform act).2 = r := by
  cases act with
  | ask => rfl
  | grant rank id =>
    have held : r.holds rank id = true := by simpa [perform] using unchanged
    obtain ⟨_, present⟩ := Option.isSome_iff_exists.mp held
    exact withHolders_of_eq (Dict.insert_eq_self present) _
  | revoke rank id =>
    have absent : (r.holders rank).get? id = none :=
      Option.not_isSome_iff_eq_none.mp (Bool.eq_false_iff.mp unchanged)
    exact withHolders_of_eq (Dict.erase_eq_self absent) _

end Roles

structure World where
  users : Table := []
  threads : Table := []
  global : Table := []
  roles : Roles := {}
deriving Inhabited

namespace World

def table (w : World) : Scope → Table
  | .users => w.users
  | .threads => w.threads
  | .global => w.global

def withTable (w : World) (scope : Scope) (t : Table) : World :=
  match scope with
  | .users => { w with users := t }
  | .threads => { w with threads := t }
  | .global => { w with global := t }

@[simp] theorem table_withTable_self (w : World) (scope : Scope) (t : Table) :
    (w.withTable scope t).table scope = t := by
  cases scope <;> rfl

theorem table_withTable_of_ne {scope other : Scope} (ne : other ≠ scope) (w : World) (t : Table) :
    (w.withTable scope t).table other = w.table other := by
  cases scope <;> cases other <;> simp_all [withTable, table]

@[simp] theorem roles_withTable (w : World) (scope : Scope) (t : Table) :
    (w.withTable scope t).roles = w.roles := by
  cases scope <;> rfl

def isAdmin (w : World) (id : String) : Bool := w.roles.holds .admin id

inductive Part where
  | whole
  | path (names : String)
deriving DecidableEq

def Part.of (part : Part) (r : Record) : Record :=
  match part with
  | .whole => r
  | .path names => r.pick names

def read (w : World) (scope : Scope) (id : String) (part : Part) : Record :=
  part.of ((w.table scope).record id)

def write (w : World) (scope : Scope) (id : String) (part : Record) : World :=
  w.withTable scope ((w.table scope).write id part)

end World

end OperatorScript
