import OperatorScript.Proofs.LinkTable

/-!
Cycles of links.

A link is refused if one or two links would lead from its target back to it. Longer ways back are
not looked for, so a table can have cycles of three links and more. The main statement: after every
history from an empty global table no one or two links lead back to where they start.
-/

set_option autoImplicit false
set_option relaxedAutoImplicit false

namespace OperatorScript

namespace LinkTable

variable {t : LinkTable}

def follow (t : LinkTable) : Nat → String → Option String
  | 0, id => some id
  | n + 1, id => (t.linked? id).bind (t.follow n)

def Acyclic (t : LinkTable) : Prop := ∀ n id, t.follow (n + 1) id ≠ some id

/-- One or two links lead from an identity back to it. -/
def OnShortCycle (t : LinkTable) (id : String) : Prop :=
  t.follow 1 id = some id ∨ t.follow 2 id = some id

private theorem follow_one (t : LinkTable) (id : String) : t.follow 1 id = t.linked? id := by
  rw [follow]
  cases t.linked? id <;> rfl

private theorem follow_two (t : LinkTable) (id : String) :
    t.follow 2 id = (t.linked? id).bind t.linked? := by
  rw [follow]
  exact congrArg (t.linked? id).bind (funext t.follow_one)

private theorem Sound.not_onShortCycle (sound : t.Sound) (id : String) : ¬ t.OnShortCycle id := by
  rintro (one | two)
  · rw [follow_one] at one
    exact sound.irreflexive id (mem_of_linked? one)
  · rw [follow_two] at two
    obtain ⟨between, there, back⟩ := Option.bind_eq_some_iff.mp two
    exact sound.oneWay id between (mem_of_linked? there) (mem_of_linked? back)

private theorem onShortCycle_link (t : LinkTable) (target linked : String) :
    (t.link target linked).OnShortCycle target ↔ t.isCircular target linked = true := by
  have there : (t.link target linked).linked? target = some linked := by
    rw [linked?_link, if_pos rfl]
  have onward : (t.link target linked).follow 2 target =
      if target = linked then some linked else t.linked? linked := by
    rw [follow_two, there]
    exact linked?_link target linked t linked
  rw [OnShortCycle, follow_one, there, onward]
  by_cases same : target = linked
  · simp [isCircular, same]
  · simp [isCircular, same, Ne.symm same]

end LinkTable

namespace Interpreter

open LinkTable

/-- No cycle of one or two links. After every history from an empty global table, following one or
two links from an identity never leads back to it. A link by an administrator that would close such
a cycle is malformed and changes nothing; any other link of a target that may be changed succeeds,
and puts its pair into the table. -/
theorem no_short_cycles (settings : Settings) (submissions : List Submission) (s : State)
    (empty : s.world.global = []) :
    let history := ({ settings } : Interpreter).history submissions s
    (∀ id, ¬ (Run.lastStop history s).world.linkTable.OnShortCycle id) ∧
    ∀ (r q : Run) (c : Context) (linked : String), r ∈ history → q.Within r →
      q.ending.context? = some c → c.name = "ulink" → c.MayLink linked →
      let new := q.afterSpans.world.linkTable.link c.target linked
      (new.OnShortCycle c.target →
        q.evaluation.status = .malformedInput ∧ q.stop.world = q.afterSpans.world) ∧
      (¬ new.OnShortCycle c.target →
        q.evaluation.status = .success ∧ q.stop.world.linkTable = new) := by
  intro history
  have sound : (Run.lastStop history s).world.SoundLinks :=
    invariant_history (I := fun s => s.world.SoundLinks) (soundLinks_finish rfl) submissions
      (World.soundLinks_of_empty empty)
  refine ⟨sound.sound.not_onShortCycle, ?_⟩
  intro r q c linked member within context named may new
  obtain ⟨chunks, result, ran⟩ := Ending.exists_eq_ran_of_context? context
  have status : q.evaluation.status = (Ending.ran c chunks result).status := by rw [← ran]; rfl
  rw [status, onShortCycle_link]
  rcases ulink_of_history rfl member within ran named with left | ⟨other, made⟩
  · obtain ⟨circular, malformed⟩ := left.circular linked rfl may
    obtain rfl : result = .ok .malformedInput := malformed
    exact ⟨fun _ => ⟨rfl, left.world⟩, fun straight => (straight circular).elim⟩
  · obtain rfl : other = linked := Option.some.inj (made.permitted.given.symm.trans may.given)
    obtain rfl : result = .ok .success := made.succeeded
    have table : q.stop.world.linkTable = new := by
      have world : q.stop.world = _ := made.world
      rw [world, World.linkTable_withLinkTable]
    refine ⟨fun circular => ?_, fun _ => ⟨rfl, table⟩⟩
    rw [made.straight] at circular
    cases circular

/-- Three links can close a cycle: each of them succeeds, and the last one leads back to where the
first one starts. -/
theorem cycle_of_three_links :
    let s : State := { world := { roles := .ofLists ["1"] [] } }
    let admin (script : String) : Submission := ⟨{ sender := "1" }, .buffered, script⟩
    let history := ({} : Interpreter).history
      [admin "ulink::300 400", admin "ulink::400 500", admin "ulink::500 300"] s
    s.world.global = [] ∧ (∀ r ∈ history, r.evaluation.status = .success) ∧
      ¬ (Run.lastStop history s).world.linkTable.Acyclic := by
  intro s admin history
  have succeeded : ∀ r ∈ history, r.evaluation.status = .success := by decide +kernel
  have back : (Run.lastStop history s).world.linkTable.follow 3 "300" = some "300" := by
    decide +kernel
  exact ⟨rfl, succeeded, fun acyclic => acyclic 2 "300" back⟩

theorem no_short_cycles_of_reciprocal_link :
    let s : State := { world := { roles := .ofLists ["1"] [] } }
    let admin (script : String) : Submission := ⟨{ sender := "1" }, .buffered, script⟩
    let submissions := [admin "ulink::300 400", admin "ulink::400 300"]
    let history := ({} : Interpreter).history submissions s
    s.world.global = [] ∧ (∀ id, ¬ (Run.lastStop history s).world.linkTable.OnShortCycle id) ∧
    ∃ q c, q ∈ history ∧ q.ending.context? = some c ∧ c.name = "ulink" ∧ c.MayLink "300" ∧
      (q.afterSpans.world.linkTable.link c.target "300").OnShortCycle c.target ∧
      q.evaluation.status = .malformedInput ∧ q.stop.world = q.afterSpans.world := by
  intro s admin submissions history
  obtain ⟨short, refused⟩ := no_short_cycles {} submissions s rfl
  let q := history.getLast (by decide +kernel)
  have member : q ∈ history := List.getLast_mem _
  let seen (c : Context) : String × Bool × String × Bool × Option String :=
    (c.name, c.authorIsAdmin, c.target, c.targetIsAdmin && c.settings.ignoreAdminLinks,
      c.args.arg? 0)
  have named : q.ending.context?.map seen = some ("ulink", true, "400", false, some "300") := by
    decide +kernel
  obtain ⟨c, ran, fields⟩ := Option.map_eq_some_iff.mp named
  obtain ⟨name, admin, target, isProtected, given⟩ : c.name = "ulink" ∧ c.authorIsAdmin = true ∧
      c.target = "400" ∧ (c.targetIsAdmin && c.settings.ignoreAdminLinks) = false ∧
      c.args.arg? 0 = some "300" := by simpa only [seen, Prod.mk.injEq] using fields
  have may : c.MayLink "300" := ⟨admin, by rw [target]; decide, isProtected, given⟩
  have closes : (q.afterSpans.world.linkTable.link c.target "300").OnShortCycle c.target := by
    rw [target, onShortCycle_link]
    decide +kernel
  have left := (refused q q c "300" member (.self q) ran name may).1 closes
  exact ⟨rfl, short, q, c, member, ran, name, may, closes, left⟩

end Interpreter

end OperatorScript
