import OperatorScript.Proofs.Lens
import OperatorScript.Proofs.Segments

/-!
The part of a record at a dotted path.

The names of a path lead somewhere if every one of them is a member of the object to which those
before it lead; positions of arrays do not count. The main statement: the part is empty just if the
path has no names or they lead nowhere, and otherwise holds the one path and nothing else.
-/

set_option autoImplicit false
set_option relaxedAutoImplicit false

namespace OperatorScript.Json

private theorem dottedKeys_of_segments {path : String} {segments : List String}
    (cut : Text.Segments '.' path segments) : dottedKeys path = segments.filter (· ≠ "") := by
  rw [Text.segments_iff.mp cut, dottedKeys, Text.pieces, List.filter_map]
  congr 2
  funext w
  cases w <;> simp

namespace Value

/-- Names lead from a value to another one through the members of objects alone. -/
inductive NamesLead : Value → List String → Value → Prop
  | here (v : Value) : NamesLead v [] v
  | member {members : Record} {name : String} {names : List String} {child x : Value}
      (found : members.get? name = some child) (deeper : child.NamesLead names x) :
      NamesLead (.obj members) (name :: names) x

/-- A value below names, in objects that have no other members. -/
def chain (x : Value) : List String → Value
  | [] => x
  | name :: names => single name (chain x names)

variable {v x : Value} {names : List String}

private theorem NamesLead.get?_eq (leads : v.NamesLead names x) : v.get? names = some x := by
  induction leads with
  | here v => rfl
  | member found _ ih => simp only [get?, child?, found, Option.bind_some, ih]

private theorem namesLead_chain (x : Value) (names : List String) :
    (chain x names).NamesLead names x := by
  induction names with
  | nil => exact .here x
  | cons name names ih => exact .member (by simp [Dict.get?]) ih

end Value

namespace Record

variable {r : Record} {names : List String} {x : Value}

private theorem obj_pickKeys (filled : names ≠ []) (leads : (Value.obj r).NamesLead names x) :
    Value.obj (pickKeys names r) = x.chain names := by
  induction names generalizing r with
  | nil => exact absurd rfl filled
  | cons name names ih =>
    cases leads with
    | @member _ _ _ child _ found deeper =>
      cases names with
      | nil =>
        cases deeper
        simp [pickKeys, found, Value.chain, Value.single]
      | cons next names =>
        cases deeper with
        | @member inner _ _ _ _ found' deeper' =>
          have below := ih (List.cons_ne_nil next names) (.member found' deeper')
          obtain below : pickKeys (next :: names) inner = [(next, x.chain names)] :=
            Value.obj.inj below
          simp [pickKeys, found, below, Value.chain, Value.single]

private theorem exists_namesLead (picked : pickKeys names r ≠ []) :
    names ≠ [] ∧ ∃ x, (Value.obj r).NamesLead names x := by
  fun_induction pickKeys names r with
  | case2 r name v found => exact ⟨List.cons_ne_nil _ _, v, .member found (.here v)⟩
  | case5 name names r last inner found filled ih =>
    obtain ⟨-, x, leads⟩ := ih filled
    exact ⟨List.cons_ne_nil _ _, x, .member found leads⟩
  | _ => exact absurd rfl picked

private theorem pickKeys_eq_nil_iff :
    pickKeys names r = [] ↔ names = [] ∨ ∀ x, ¬ (Value.obj r).NamesLead names x := by
  constructor
  · intro empty
    by_cases filled : names = []
    · exact .inl filled
    · refine .inr fun x leads => ?_
      have chained := obj_pickKeys filled leads
      obtain ⟨name, rest, rfl⟩ := List.exists_cons_of_ne_nil filled
      rw [empty] at chained
      cases chained
  · intro nowhere
    by_contra picked
    obtain ⟨filled, x, leads⟩ := exists_namesLead picked
    exact nowhere.elim filled fun none => none x leads

private theorem pickKeys_pickKeys (names : List String) (r : Record) :
    pickKeys names (pickKeys names r) = pickKeys names r := by
  by_cases picked : pickKeys names r = []
  · have empty : pickKeys names [] = [] := by
      refine pickKeys_eq_nil_iff.mpr (or_iff_not_imp_left.mpr fun filled x leads => ?_)
      cases leads with
      | here => exact filled rfl
      | member found => cases found
    rw [picked, empty]
  · obtain ⟨filled, x, leads⟩ := exists_namesLead picked
    have chained := obj_pickKeys filled leads
    have again : (Value.obj (pickKeys names r)).NamesLead names x := by
      rw [chained]
      exact x.namesLead_chain names
    exact Value.obj.inj ((obj_pickKeys filled again).trans chained.symm)

/-- The part of a record at a dotted path is one path of it. The names of the path are its segments
between dots that are not empty. Nothing is picked just if there are none or they lead nowhere
through objects; otherwise the part is the chain of the names around what they lead to, which stands
at these keys both in the part and in the record, and writing it there again changes nothing. What
is picked of the part is the part. -/
theorem one_path_picked (r : Record) (path : String) :
    ∃ segments, (∀ other, Text.Segments '.' path other ↔ other = segments) ∧
      let names := segments.filter (· ≠ "")
      (r.pick path = [] ↔ names = [] ∨ ∀ x, ¬ (Value.obj r).NamesLead names x) ∧
      (∀ x, names ≠ [] → (Value.obj r).NamesLead names x →
        Value.obj (r.pick path) = x.chain names ∧
        (Value.obj (r.pick path)).get? names = some x ∧ (Value.obj r).get? names = some x ∧
        Value.set x names (.obj r) = .obj r) ∧
      Record.pick path (r.pick path) = r.pick path := by
  refine ⟨_, fun _ => Text.segments_iff, ?_⟩
  intro names
  have keys : dottedKeys path = names := dottedKeys_of_segments (Text.segments_iff.mpr rfl)
  simp only [pick, keys]
  refine ⟨pickKeys_eq_nil_iff, fun x filled leads => ?_, pickKeys_pickKeys names r⟩
  have chained := obj_pickKeys filled leads
  refine ⟨chained, ?_, leads.get?_eq, Value.set_eq_self leads.get?_eq⟩
  rw [chained]
  exact (x.namesLead_chain names).get?_eq

theorem one_path_picked_of_null :
    let r : Record :=
      [("a b", .obj [("c", .null), ("d", .ofInt 1)]), ("list", .arr [.obj [("x", .str "y")]])]
    let path := "..a b.c."
    let names := ["a b", "c"]
    (names ≠ [] ∧ (Value.obj r).NamesLead names .null) ∧
      r.pick path = [("a b", .obj [("c", .null)])] ∧
      (Value.obj (r.pick path)).get? names = some .null ∧
      Value.set .null names (.obj r) = .obj r ∧
      r.pick "list.0.x" = [] ∧ Record.pick path (r.pick path) = r.pick path := by
  intro r path names
  have leads : (Value.obj r).NamesLead names .null := .member rfl (.member rfl (.here .null))
  obtain ⟨segments, cut, -, one, again⟩ := one_path_picked r path
  have parts : segments = ["", "", "a b", "c", ""] :=
    ((cut _).mp ⟨by decide, by decide +kernel, by decide +kernel⟩).symm
  subst parts
  obtain ⟨chained, held, -, written⟩ := one .null (by decide +kernel) leads
  obtain ⟨other, cut', nothing, -⟩ := one_path_picked r "list.0.x"
  obtain rfl : ["list", "0", "x"] = other :=
    (cut' _).mp ⟨by decide, by decide +kernel, by decide +kernel⟩
  have nowhere (x : Value) : ¬ (Value.obj r).NamesLead ["list", "0", "x"] x := by
    intro leads
    cases leads with
    | @member _ _ _ child _ found deeper =>
      obtain rfl : Value.arr [.obj [("x", .str "y")]] = child := Option.some.inj found
      cases deeper
  exact ⟨⟨by decide, leads⟩, Value.obj.inj chained, held, written,
    nothing.mpr (.inr nowhere), again⟩

end Record

end OperatorScript.Json
