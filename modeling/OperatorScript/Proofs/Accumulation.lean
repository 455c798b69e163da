import Mathlib.Algebra.BigOperators.Group.List.Basic
import Mathlib.Data.List.Infix
import OperatorScript.Proofs.Exactness
import OperatorScript.Proofs.Increment
import OperatorScript.Proofs.Reaching

/-!
Accumulation: increments of one property, one after the other.

Each increment by an integer replaces the integer in the property by the exact sum, as long as the
sum stays below `2 ^ 53` in magnitude. The main statement: so a sequence of increments leaves the
exact sum of all amounts, in whatever order they come.
-/

set_option autoImplicit false
set_option relaxedAutoImplicit false

namespace OperatorScript

open Json Command

def World.HoldsInt (w : World) (scope : Scope) (id : String) (keys : List String) (n : Int) :
    Prop :=
  ∃ inRange, (w.recordValue scope id).get? keys = some (.num (.integer n inRange))

/-- A submitted statement adds an amount, written in decimal, to the property at a path. -/
inductive Submission.Adds (owner : Owner) (id : String) (keys : List String) :
    Submission → Int → Prop
  | intro {q : Submission} {st : Statement} {property word : String} {amount : Int}
      (asks : q.Asks st) (named : st.command = (increment owner).name) (target : st.target = id)
      (given : (ArgList.read st.tail).arg? 0 = some property) (path : pathKeys [property] = keys)
      (second : (ArgList.read st.tail).arg? 1 = some word)
      (written : Binary64.WritesInt word.toList amount) : Adds owner id keys q amount

/-- A submitted statement adds an amount below `2 ^ 53` in magnitude to a property of a record on
which its sender may act. -/
structure World.Takes (w : World) (owner : Owner) (id : String) (keys : List String)
    (q : Submission) (amount : Int) : Prop where
  adds : q.Adds owner id keys amount
  small : amount.natAbs < Nat.pow 2 53
  allowed : w.MayActOn q.message.sender id

/-- All partial sums of amounts that are added to a number stay below `2 ^ 53` in magnitude. -/
def StaysExact (n : Int) (amounts : List Int) : Prop :=
  ∀ front, front <+: amounts → (n + front.sum).natAbs < Nat.pow 2 53

instance (n : Int) (amounts : List Int) : Decidable (StaysExact n amounts) :=
  decidable_of_iff (∀ front ∈ amounts.inits, (n + front.sum).natAbs < Nat.pow 2 53)
    (forall_congr' fun front => by rw [List.mem_inits])

private theorem StaysExact.start {n : Int} {amounts : List Int} (exact : StaysExact n amounts) :
    n.natAbs < Nat.pow 2 53 := by
  simpa using exact [] List.nil_prefix

private theorem StaysExact.tail {n amount : Int} {amounts : List Int}
    (exact : StaysExact n (amount :: amounts)) : StaysExact (n + amount) amounts := by
  intro front isPrefix
  have longer := exact (amount :: front) ((List.prefix_cons_inj amount).mpr isPrefix)
  rwa [List.sum_cons, ← Int.add_assoc] at longer

private theorem Json.Number.holdsInt_toBinary64 {n : Int} (small : n.natAbs < Nat.pow 2 53)
    (inRange : InRange n) : (Number.integer n inRange).toBinary64.HoldsInt n :=
  Binary64.holdsInt_ofInt small

namespace Interpreter

variable {i : Interpreter} (builtin : i.catalog = .builtin) (intact : i.outage = .none)
  {owner : Owner} {id : String} {keys : List String} {q : Submission} {s : State} {n amount : Int}

include builtin intact

private theorem holdsInt_submit (takes : s.world.Takes owner id keys q amount)
    (held : s.world.HoldsInt owner.scope id keys n)
    (before : n.natAbs < Nat.pow 2 53) (after : (n + amount).natAbs < Nat.pow 2 53) :
    (i.submit q s).evaluation.status = .success ∧
      (i.submit q s).stop.world.roles = s.world.roles ∧
      (i.submit q s).stop.world.HoldsInt owner.scope id keys (n + amount) := by
  obtain ⟨⟨asks, named, rfl, given, rfl, second, written⟩, small, allowed⟩ := takes
  rename_i st property word
  obtain ⟨inRange, held⟩ := held
  obtain ⟨x, read, exact⟩ := written.exists_read? small
  let c := i.reached q.message st s
  have increments : Increments owner c s.world property (.integer n inRange) x :=
    { named := allowed.named
      allowed := c.risen_allowsTarget.mpr allowed.permitted
      given
      amount := by
        have finite : finite? word = some x := Option.filter_eq_some_iff.mpr ⟨read, exact.isFinite⟩
        exact (congrArg (·.bind finite?) second).trans finite
      held }
  obtain ⟨t, run, sum, leaf⟩ := run_increment increments
  have ended := conclusion_submit builtin asks (.increment owner) named s
  rw [intact, run] at ended
  have stop : (i.submit q s).stop = t := congrArg Conclusion.state ended
  have total := (Number.holdsInt_toBinary64 before inRange).add exact after
  obtain ⟨inRange', stored⟩ := Value.exists_ofNumber_eq_integer total after
  rw [stop]
  exact ⟨congrArg (fun d => d.evaluation.status) ended, leaf.roles, inRange',
    sum.trans (congrArg some stored)⟩

private theorem holdsInt_history {additions : List (Submission × Int)}
    (each : ∀ a ∈ additions, s.world.Takes owner id keys a.1 a.2)
    (held : s.world.HoldsInt owner.scope id keys n)
    (exact : StaysExact n (additions.map Prod.snd)) :
    let history := i.history (additions.map Prod.fst) s
    (∀ r ∈ history, r.evaluation.status = .success) ∧
      (Run.lastStop history s).world.HoldsInt owner.scope id keys
        (n + (additions.map Prod.snd).sum) := by
  induction additions generalizing s n with
  | nil => exact ⟨by simp [history], by simpa [history, Run.lastStop] using held⟩
  | cons a rest ih =>
    obtain ⟨first, others⟩ := List.forall_mem_cons.mp each
    obtain ⟨succeeded, roles, sum⟩ :=
      holdsInt_submit builtin intact first held exact.start exact.tail.start
    have still (b : Submission × Int) (member : b ∈ rest) :
        (i.submit a.1 s).stop.world.Takes owner id keys b.1 b.2 := by
      obtain ⟨adds, small, named, permitted⟩ := others b member
      exact ⟨adds, small, named, by rwa [World.isAdmin, roles]⟩
    obtain ⟨successes, total⟩ := ih still sum exact.tail
    refine ⟨List.forall_mem_cons.mpr ⟨succeeded, successes⟩, ?_⟩
    rw [List.map_cons, List.map_cons, history, Run.lastStop_cons, List.sum_cons, ← Int.add_assoc]
    exact total

omit builtin intact

/-- Increments by integers are exact and independent of their order. If a property holds an integer
and all partial sums stay below `2 ^ 53` in magnitude, then every one of the increments succeeds,
and the property holds the integer that is the exact sum in the end; so it is the same after every
order of the increments that keeps to the bound. -/
theorem exact_accumulation (settings : Settings) (owner : Owner) (id : String)
    (keys : List String) (n : Int) (s : State) (additions : List (Submission × Int)) :
    s.world.HoldsInt owner.scope id keys n →
    (∀ a ∈ additions, s.world.Takes owner id keys a.1 a.2) →
      ∀ order : List (Submission × Int), order.Perm additions → StaysExact n (order.map Prod.snd) →
        let history := ({ settings } : Interpreter).history (order.map Prod.fst) s
        (∀ r ∈ history, r.evaluation.status = .success) ∧
          (Run.lastStop history s).world.HoldsInt owner.scope id keys
            (n + (additions.map Prod.snd).sum) := by
  intro held each order same exact history
  have amounts : (order.map Prod.snd).sum = (additions.map Prod.snd).sum :=
    (same.map Prod.snd).sum_eq
  rw [← amounts]
  exact holdsInt_history rfl rfl (fun a member => each a (same.mem_iff.mp member)) held exact

theorem exact_accumulation_up_to_bound :
    let s : State :=
      { world :=
          { users := [("5", [("bank", .obj [("gold", .ofInt 9007199254740990)])])]
            roles := .ofLists ["1"] [] } }
    let up : Submission × Int := (⟨{ sender := "1" }, .buffered, "uincr::5 bank.gold +01"⟩, 1)
    let down : Submission × Int :=
      (⟨{ sender := "5" }, .streaming, "rise uincr::self .bank..gold -9007199254740991"⟩,
        -9007199254740991)
    let history := ({} : Interpreter).history [down.1, up.1] s
    (s.world.HoldsInt .users "5" ["bank", "gold"] 9007199254740990 ∧
      (∀ a ∈ [up, down], s.world.Takes .user "5" ["bank", "gold"] a.1 a.2) ∧
      [down, up].Perm [up, down] ∧ StaysExact 9007199254740990 [down.2, up.2]) ∧
    (∀ r ∈ history, r.evaluation.status = .success) ∧
      (Run.lastStop history s).world.HoldsInt .users "5" ["bank", "gold"] 0 := by
  intro s up down history
  have held : s.world.HoldsInt .users "5" ["bank", "gold"] 9007199254740990 :=
    ⟨by decide, by decide +kernel⟩
  have upAsks : up.1.Asks
      { modifier := none, command := "uincr", target := "5", tail := "bank.gold +01" } :=
    { spanFree := by decide +kernel
      read := by decide +kernel
      modifier := by decide +kernel }
  have downAsks : down.1.Asks
      { modifier := some "rise", command := "uincr", target := "5"
        tail := ".bank..gold -9007199254740991" } :=
    { spanFree := by decide +kernel
      read := by decide +kernel
      modifier := by decide +kernel }
  have upArgs : (ArgList.read "bank.gold +01").args = ["bank.gold", "+01"] := by decide +kernel
  have downArgs : (ArgList.read ".bank..gold -9007199254740991").args =
      [".bank..gold", "-9007199254740991"] := by decide +kernel
  have upWritten : Binary64.WritesInt "+01".toList 1 :=
    @Binary64.WritesInt.plus "01".toList (by decide) (List.all_eq_true.mp (by decide))
  have downWritten : Binary64.WritesInt "-9007199254740991".toList (-9007199254740991) :=
    @Binary64.WritesInt.minus "9007199254740991".toList (by decide)
      (List.all_eq_true.mp (by decide))
  have upTaken : s.world.Takes .user "5" ["bank", "gold"] up.1 up.2 :=
    { adds := .intro upAsks rfl rfl (congrArg (·[0]?) upArgs) (by decide +kernel)
        (congrArg (·[1]?) upArgs) upWritten
      small := by decide
      allowed := ⟨by decide, .inl (by decide +kernel)⟩ }
  have downTaken : s.world.Takes .user "5" ["bank", "gold"] down.1 down.2 :=
    { adds := .intro downAsks rfl rfl (congrArg (·[0]?) downArgs) (by decide +kernel)
        (congrArg (·[1]?) downArgs) downWritten
      small := by decide
      allowed := ⟨by decide, .inr rfl⟩ }
  have each : ∀ a ∈ [up, down], s.world.Takes .user "5" ["bank", "gold"] a.1 a.2 :=
    List.forall_mem_cons.mpr ⟨upTaken, List.forall_mem_singleton.mpr downTaken⟩
  have order : [down, up].Perm [up, down] := .swap up down []
  have exact : StaysExact 9007199254740990 ([down, up].map Prod.snd) := by decide +kernel
  have result := exact_accumulation {} .user "5" ["bank", "gold"] 9007199254740990 s [up, down]
    held each [down, up] order exact
  exact ⟨⟨held, each, order, exact⟩, result⟩

end Interpreter

end OperatorScript
