import OperatorScript.Json.Equality
import OperatorScript.Proofs.Evaluation

/-!
Frames: what the statement of each built-in command leaves as it is.

A statement has a footprint, which its command, target and arguments determine. Nothing outside of
it changes, however the statement ends and whatever accesses break down.
-/

set_option autoImplicit false
set_option relaxedAutoImplicit false

namespace OperatorScript

open Json

/-- Nothing differs but one member of one record: the roles, the other tables, the other records of
the table and the other members of the record are the same. -/
structure World.MemberOnly (scope : Scope) (id key : String) (before after : World) : Prop where
  roles : after.roles = before.roles
  tables : ∀ other, other ≠ scope → after.table other = before.table other
  records : ∀ other, other ≠ id →
    (after.table scope).get? other = (before.table scope).get? other
  members : ∀ other, other ≠ key →
    ((after.table scope).record id).get? other = ((before.table scope).record id).get? other

/-- Nothing differs but whether one identity holds one rank. -/
structure World.MembershipOnly (rank : Rank) (id : String) (before after : World) : Prop where
  tables : ∀ scope, after.table scope = before.table scope
  ranks : ∀ other, other ≠ rank → after.roles.holders other = before.roles.holders other
  others : ∀ other, other ≠ id → after.roles.holds rank other = before.roles.holds rank other

namespace World

variable {u v w : World}

theorem MemberOnly.refl (scope : Scope) (id key : String) (w : World) :
    w.MemberOnly scope id key w :=
  ⟨rfl, fun _ _ => rfl, fun _ _ => rfl, fun _ _ => rfl⟩

theorem MemberOnly.trans {scope : Scope} {id key : String} (first : u.MemberOnly scope id key v)
    (second : v.MemberOnly scope id key w) : u.MemberOnly scope id key w where
  roles := second.roles.trans first.roles
  tables other ne := (second.tables other ne).trans (first.tables other ne)
  records other ne := (second.records other ne).trans (first.records other ne)
  members other ne := (second.members other ne).trans (first.members other ne)

private theorem memberOnly_write (w : World) (scope : Scope) (id key : String) (value : Value) :
    w.MemberOnly scope id key (w.write scope id [(key, value)]) where
  roles := w.roles_withTable scope _
  tables other ne := table_withTable_of_ne ne w _
  records other ne := by
    rw [write, table_withTable_self]
    exact Dict.get?_insert_of_ne ne _ _
  members other ne := by
    rw [write, table_withTable_self, Table.record_write_self]
    exact Dict.get?_insert_of_ne ne _ _

theorem MembershipOnly.refl (rank : Rank) (id : String) (w : World) : w.MembershipOnly rank id w :=
  ⟨fun _ => rfl, fun _ _ => rfl, fun _ _ => rfl⟩

theorem MembershipOnly.trans {rank : Rank} {id : String} (first : u.MembershipOnly rank id v)
    (second : v.MembershipOnly rank id w) : u.MembershipOnly rank id w where
  tables scope := (second.tables scope).trans (first.tables scope)
  ranks other ne := (second.ranks other ne).trans (first.ranks other ne)
  others other ne := (second.others other ne).trans (first.others other ne)

private theorem membershipOnly_withHolders (w : World) (rank : Rank) {id : String} {ids : Dict Unit}
    (ordered : ids.Ordered)
    (same : ∀ other, other ≠ id → ids.get? other = (w.roles.holders rank).get? other) :
    w.MembershipOnly rank id { w with roles := w.roles.withHolders rank ids ordered } where
  tables scope := by cases scope <;> rfl
  ranks other ne := Roles.holders_withHolders_of_ne ne _ _ _
  others other ne := by
    simp only [Roles.holds, Roles.holders_withHolders_self, Dict.contains, same other ne]

end World

/-- What a statement can change at most: nothing, one member of one record, or whether one identity
holds one rank. -/
inductive Footprint where
  | nothing
  | member (scope : Scope) (id key : String)
  | membership (rank : Rank) (id : String)
deriving DecidableEq

namespace Footprint

def Covers : Footprint → World → World → Prop
  | .nothing, before, after => after = before
  | .member scope id key, before, after => before.MemberOnly scope id key after
  | .membership rank id, before, after => before.MembershipOnly rank id after

inductive Allows : Footprint → Interaction → Prop
  | read (f : Footprint) (scope : Scope) (id : String) (part : World.Part) :
    Allows f (.access (.read scope id part))
  | write (scope : Scope) (id key : String) (value : Value) :
    Allows (.member scope id key) (.access (.write scope id [(key, value)]))
  | grant (rank : Rank) (id : String) : Allows (.membership rank id) (.role (.grant rank id))
  | revoke (rank : Rank) (id : String) : Allows (.membership rank id) (.role (.revoke rank id))

variable {f : Footprint} {u v w : World}

theorem Covers.refl (f : Footprint) (w : World) : f.Covers w w := by
  cases f with
  | nothing => rfl
  | member => exact World.MemberOnly.refl _ _ _ w
  | membership => exact World.MembershipOnly.refl _ _ w

theorem Covers.trans (first : f.Covers u v) (second : f.Covers v w) : f.Covers u w := by
  cases f with
  | nothing => exact Eq.trans second first
  | member => exact World.MemberOnly.trans first second
  | membership => exact World.MembershipOnly.trans first second

private theorem Covers.apply {x : Interaction} (w : World) (allowed : f.Allows x) :
    f.Covers w (x.apply w) := by
  cases allowed with
  | read => exact .refl f w
  | write scope id key value => exact w.memberOnly_write scope id key value
  | grant rank id =>
    exact w.membershipOnly_withHolders rank _ fun _ ne => Dict.get?_insert_of_ne ne _ _
  | revoke rank id =>
    exact w.membershipOnly_withHolders rank _ fun _ ne =>
      (w.roles.ordered_holders rank).get?_erase_of_ne ne

private theorem allows_of_atMember {scope : Scope} {id key : String} {x : Interaction}
    (at_ : x.AtMember scope id key) : (member scope id key).Allows x := by
  cases at_ with
  | read => exact .read _ _ _ _
  | write value => exact .write _ _ _ value

/-- The footprint of changing a property: the member that the first key of its path names. -/
def ofProperty (scope : Scope) (target : String) (args : ArgList) : Footprint :=
  match args.firstKey? with
  | some key => .member scope target key
  | none => .nothing

def ofCommand (name target : String) (args : ArgList) : Footprint :=
  match name with
  | "uset" | "uincr" => ofProperty .users target args
  | "tset" | "tincr" => ofProperty .threads target args
  | "ulink" | "uunlink" => .member .global LinkTable.recordId LinkTable.fieldName
  | "promote" | "demote" => .membership .admin target
  | "mpromote" | "mdemote" => .membership .moderator target
  | _ => .nothing

private theorem only_ofProperty {Q : Prop} {scope : Scope} {target : String} {args : ArgList}
    {p : Procedure String Status} (only : p.Only fun x =>
      Q ∧ ∃ key, args.firstKey? = some key ∧ x.AtMember scope target key) :
    p.Only (ofProperty scope target args).Allows := by
  refine only.mono ?_
  rintro x ⟨_, key, first, at_⟩
  unfold ofProperty
  rw [first]
  exact allows_of_atMember at_

end Footprint

def Statement.footprint (st : Statement) : Footprint :=
  .ofCommand st.command st.target (.read st.tail)

namespace Command

private theorem rankBody_allows (c : Context) (rank : Rank) (isGrant : Bool) :
    (rankBody rank isGrant c).Only (Footprint.membership rank c.target).Allows := by
  refine (rankBody_only c rank isGrant).mono ?_
  rintro x ⟨_, rfl⟩
  cases isGrant with
  | true => exact .grant rank c.target
  | false => exact .revoke rank c.target

private theorem IsBuiltin.only_allows {command : Command} (builtin : command.IsBuiltin)
    (c : Context) :
    (command.body c).Only (Footprint.ofCommand command.name c.target c.args).Allows := by
  cases builtin with
  | print => exact print_only c
  | arg => exact arg_only c
  | promote => exact rankBody_allows c .admin true
  | demote => exact rankBody_allows c .admin false
  | mpromote => exact rankBody_allows c .moderator true
  | mdemote => exact rankBody_allows c .moderator false
  | set owner =>
    have allowed := Footprint.only_ofProperty (set_only c owner)
    cases owner with
    | user => exact allowed
    | thread => exact allowed
  | get owner =>
    refine (get_only c owner).mono ?_
    rintro x ⟨_, part, rfl⟩
    exact .read _ _ _ _
  | input => exact input_only c
  | ulink => exact (ulink_only c).mono fun x asked => Footprint.allows_of_atMember asked.2
  | uunlink => exact (uunlink_only c).mono fun x asked => Footprint.allows_of_atMember asked.2
  | links =>
    refine (links_only c).mono ?_
    rintro x rfl
    exact .read _ _ _ _
  | increment owner =>
    have allowed := Footprint.only_ofProperty (increment_only c owner)
    cases owner with
    | user => exact allowed
    | thread => exact allowed
  | num =>
    refine (num_only c).mono ?_
    rintro x rfl
    exact .read _ _ _ _
  | help => exact help_only c

theorem IsBuiltin.covers_run {command : Command} (builtin : command.IsBuiltin) (c : Context)
    (outage : Outage) (s : State) :
    (Footprint.ofCommand command.name c.target c.args).Covers s.world
      ((command.body c).run outage s).state.world :=
  Procedure.rel_run (Footprint.Covers.refl _) Footprint.Covers.trans
    (fun _ w allowed => Footprint.Covers.apply w allowed) outage (builtin.only_allows c) s

end Command

namespace Interpreter

variable {i : Interpreter} (m : Message)

private theorem covers_finish (builtin : i.catalog = .builtin) (x : Expansion) {st : Statement}
    (read : Statement.read (String.ofList x.text) m = .ok st) :
    st.footprint.Covers x.state.world (i.finish m x).2.world := by
  rcases finish_cases m builtin x with ⟨_, stop⟩ | ⟨st', permission, command, read', found, run⟩
  · rw [stop]
    exact .refl _ _
  · obtain rfl : st' = st := Except.ok.inj (read'.symm.trans read)
    obtain ⟨known, named⟩ := Catalog.isBuiltin_of_command? found
    unfold Statement.footprint
    rw [run, ← named]
    exact known.covers_run (i.context m st' x.state permission) i.outage x.state

private theorem covers_evaluate_of_spanFree (builtin : i.catalog = .builtin) (mode : Mode)
    (levels : Nat) {script : String} (s : State) (plain : SpanFree script m) {st : Statement}
    (read : Statement.read (Placeholder.fill script m) m = .ok st) :
    st.footprint.Covers s.world (i.evaluate m mode (levels + 1) script s).stop.world := by
  have begun := i.expansion_of_spanFree m plain levels s
  have whole : Statement.read (String.ofList (i.expansion m levels script s).text) m = .ok st := by
    rw [begun, String.ofList_toList]
    exact read
  have start : (i.expansion m levels script s).state = s := by rw [begun]
  have covered := covers_finish m builtin _ whole
  rw [start] at covered
  rw [stop_evaluate_succ]
  exact covered

/-- Frame of every command. The run of a statement without spans, whoever sends it, however it ends
and whatever accesses break down, changes nothing outside of the footprint of the statement. -/
theorem frame (settings : Settings) (outage : Outage) (mode : Mode) (script : String) (s : State)
    (plain : SpanFree script m) {st : Statement}
    (read : Statement.read (Placeholder.fill script m) m = .ok st) :
    let run := ({ settings, outage } : Interpreter).run m mode script s
    st.footprint.Covers s.world run.stop.world :=
  covers_evaluate_of_spanFree m rfl mode maxInlineDepth s plain read

theorem frame_of_nested_increment :
    let s : State :=
      { world :=
          { users := [("5", [("bank", .obj [("gold", .ofInt 3)]), ("money", .ofInt 7)])] } }
    let m : Message := { sender := "5" }
    let st : Statement :=
      { modifier := none, command := "uincr", target := "5", tail := "bank.gold 2" }
    let run := ({} : Interpreter).run m .streaming "uincr::self bank.gold 2" s
    (SpanFree "uincr::self bank.gold 2" m ∧
        Statement.read (Placeholder.fill "uincr::self bank.gold 2" m) m = .ok st) ∧
      run.stop.world.users ≠ s.world.users ∧
      s.world.MemberOnly .users "5" "bank" run.stop.world := by
  intro s m st run
  have plain : SpanFree "uincr::self bank.gold 2" m := by decide +kernel
  have read : Statement.read (Placeholder.fill "uincr::self bank.gold 2" m) m = .ok st := by
    have filled : Placeholder.fill "uincr::self bank.gold 2" m = "uincr::self bank.gold 2" := by
      decide +kernel
    rw [filled]
    cbv
  have named : st.footprint = .member .users "5" "bank" := by decide +kernel
  have changed : run.stop.world.users ≠ s.world.users := by decide +kernel
  have covered : st.footprint.Covers s.world run.stop.world :=
    frame m {} .none .streaming _ s plain read
  rw [named] at covered
  exact ⟨⟨plain, read⟩, changed, covered⟩

end Interpreter

end OperatorScript
