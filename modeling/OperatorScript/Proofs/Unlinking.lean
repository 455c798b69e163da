import OperatorScript.Proofs.LinkTable
import OperatorScript.Proofs.Reaching

/-!
Removing links.

To unlink a target drops a pair that points where the target does, and of several such pairs the
earliest. The main statement: in a table to which a history from an empty global table has led, this
is the only pair that is dropped; so a target that shares its linked identity is unlinked after as
many repetitions as there are pairs of that identity up to its own.
-/

set_option autoImplicit false
set_option relaxedAutoImplicit false

namespace OperatorScript

namespace LinkTable

variable {t u : LinkTable} {target linked holder : String}

/-- A table is another one less its earliest pair that points to an identity, the pair of a
holder. -/
inductive Unlinked (holder linked : String) : LinkTable → LinkTable → Prop
  | dropped {before : LinkTable} (earliest : ∀ e ∈ before, e.2 ≠ linked) (after : LinkTable) :
      Unlinked holder linked (before ++ (holder, linked) :: after) (before ++ after)

private theorem Unlinked.cons {e : String × String} (ne : e.2 ≠ linked)
    (rest : Unlinked holder linked t u) : Unlinked holder linked (e :: t) (e :: u) := by
  cases rest with
  | dropped earliest after => exact .dropped (List.forall_mem_cons.mpr ⟨ne, earliest⟩) after

def elsewhere (linked : String) (t : LinkTable) : LinkTable := t.filter fun e => e.2 != linked

/-- The number of the pairs that point to an identity, up to the pair of a target and with it. -/
def rank (target linked : String) : LinkTable → Nat
  | [] => 0
  | e :: rest =>
    if e.1 = target then 1
    else if e.2 = linked then rank target linked rest + 1
    else rank target linked rest

private theorem holder?_cons (e : String × String) (rest : LinkTable) (linked : String) :
    holder? (e :: rest) linked = if e.2 = linked then some e.1 else holder? rest linked := by
  by_cases same : e.2 = linked <;> simp [holder?, same]

private theorem exists_holder (found : t.linked? target = some linked) :
    ∃ holder, t.holder? linked = some holder := by
  induction t with
  | nil => cases found
  | cons e rest ih =>
    rw [linked?_cons] at found
    rw [holder?_cons]
    by_cases points : e.2 = linked
    · exact ⟨e.1, if_pos points⟩
    · rw [if_neg points]
      split at found
      · exact (points (Option.some.inj found)).elim
      · exact ih found

private theorem mem_targets_of_holder? (held : t.holder? linked = some holder) :
    holder ∈ t.targets := by
  obtain ⟨e, found, rfl⟩ := Option.map_eq_some_iff.mp held
  exact List.mem_map_of_mem (List.mem_of_find?_eq_some found)

private theorem unlink_of_not_mem (absent : target ∉ t.targets) : t.unlink target = t := by
  refine List.filter_eq_self.mpr fun e member => ?_
  have listed : e.1 ∈ t.targets := List.mem_map_of_mem member
  simpa using fun same : e.1 = target => absent (same ▸ listed)

private theorem unlinked_unlink (unique : t.targets.Nodup) (held : t.holder? linked = some holder) :
    Unlinked holder linked t (t.unlink holder) := by
  induction t with
  | nil => cases held
  | cons e rest ih =>
    obtain ⟨other, points⟩ := e
    obtain ⟨fresh, unique⟩ := List.nodup_cons.mp unique
    rw [holder?_cons] at held
    split at held
    · next same =>
      obtain rfl : points = linked := same
      obtain rfl : other = holder := Option.some.inj held
      have kept : unlink ((other, points) :: rest) other = rest := by
        rw [unlink, List.filter_cons_of_neg (by simp), ← unlink, unlink_of_not_mem fresh]
      rw [kept]
      have earliest : ∀ e ∈ ([] : LinkTable), e.2 ≠ points := fun _ member => nomatch member
      exact .dropped earliest rest
    · next ne =>
      have apart : other ≠ holder := by
        rintro rfl
        exact fresh (mem_targets_of_holder? held)
      have kept : unlink ((other, points) :: rest) holder =
          (other, points) :: LinkTable.unlink rest holder :=
        List.filter_cons_of_pos (bne_iff_ne.mpr apart)
      rw [kept]
      exact (ih unique held).cons ne

private theorem Unlinked.sublist (dropped : Unlinked holder linked t u) : u.Sublist t := by
  cases dropped with
  | dropped _ after => exact (List.sublist_cons_self _ after).append_left _

private theorem Unlinked.elsewhere_eq (dropped : Unlinked holder linked t u) :
    u.elsewhere linked = t.elsewhere linked := by
  cases dropped with
  | dropped => simp [elsewhere]

private theorem linked?_eq_none_of_not_mem (absent : target ∉ t.targets) :
    t.linked? target = none := by
  cases found : t.linked? target with
  | none => rfl
  | some linked => exact (absent (List.mem_map_of_mem (mem_of_linked? found))).elim

private theorem rank_pos (found : t.linked? target = some linked) : 0 < t.rank target linked := by
  induction t with
  | nil => cases found
  | cons e rest ih =>
    rw [linked?_cons] at found
    rw [rank]
    split
    · exact Nat.one_pos
    · next ne =>
      rw [if_neg ne] at found
      have later := ih found
      split
      · exact Nat.succ_pos _
      · exact later

/-- A target was the holder whose pair was dropped, the first of its rank, and is linked no more; or
it is linked as it was, and has come one rank nearer. -/
private theorem Unlinked.target_cases (dropped : Unlinked holder linked t u)
    (unique : t.targets.Nodup) (found : t.linked? target = some linked) :
    (holder = target ∧ t.rank target linked = 1 ∧ u.linked? target = none) ∨
      (holder ≠ target ∧ t.rank target linked = u.rank target linked + 1 ∧
        u.linked? target = some linked) := by
  cases dropped with
  | @dropped before earliest after =>
    induction before with
    | nil =>
      rw [List.nil_append] at unique found ⊢
      rw [linked?_cons] at found
      rw [rank, List.nil_append]
      by_cases same : holder = target
      · subst same
        have absent := (List.nodup_cons.mp unique).1
        exact .inl ⟨rfl, if_pos rfl, linked?_eq_none_of_not_mem absent⟩
      · rw [if_neg same] at found
        rw [if_neg same, if_pos rfl]
        exact .inr ⟨same, rfl, found⟩
    | cons e before ih =>
      obtain ⟨apart, earliest⟩ := List.forall_mem_cons.mp earliest
      rw [List.cons_append, linked?_cons] at found
      have ne : e.1 ≠ target := by
        intro same
        rw [if_pos same] at found
        exact apart (Option.some.inj found)
      rw [if_neg ne] at found
      rw [List.cons_append, List.cons_append, linked?_cons, rank, rank]
      simp only [if_neg ne, if_neg apart]
      exact ih earliest (List.nodup_cons.mp unique).2 found

private theorem Unlinked.linked?_eq_none_iff (dropped : Unlinked holder linked t u)
    (unique : t.targets.Nodup) (found : t.linked? target = some linked) :
    u.linked? target = none ↔ holder = target := by
  rcases dropped.target_cases unique found with ⟨same, -, unlinked⟩ | ⟨other, -, still⟩
  · exact ⟨fun _ => same, fun _ => unlinked⟩
  · simp [still, other]

end LinkTable

open LinkTable

inductive World.Unlinks (w : World) (target : String) : Status → World → Prop
  | absent (none : w.linkTable.linked? target = none) :
      Unlinks w target .missingOrInvalidArgs w
  | dropped {linked holder : String} (found : w.linkTable.linked? target = some linked)
      (held : w.linkTable.holder? linked = some holder) :
      Unlinks w target .success (w.withLinkTable (w.linkTable.unlink holder))

private theorem World.Unlinks.of_unlinked {w w' : World} {target : String} {status : Status}
    (unlinks : w.Unlinks target status w') (unlinked : w.linkTable.linked? target = none) :
    status = .missingOrInvalidArgs ∧ w' = w := by
  cases unlinks with
  | absent => exact ⟨rfl, rfl⟩
  | dropped found => cases found.symm.trans unlinked

private theorem World.Unlinks.of_linked {w w' : World} {target linked : String} {status : Status}
    (unlinks : w.Unlinks target status w') (unique : w.linkTable.targets.Nodup)
    (found : w.linkTable.linked? target = some linked) :
    status = .success ∧ w'.roles = w.roles ∧
      ∃ holder, Unlinked holder linked w.linkTable w'.linkTable := by
  cases unlinks with
  | absent none =>
    rw [none] at found
    cases found
  | @dropped other holder found' held =>
    obtain rfl : other = linked := Option.some.inj (found'.symm.trans found)
    refine ⟨rfl, w.roles_withTable _ _, holder, ?_⟩
    rw [linkTable_withLinkTable]
    exact unlinked_unlink unique held

private theorem Command.unlinks_run {c : Context} (admin : c.authorIsAdmin = true)
    (named : c.target ≠ "") (s : State) :
    let o := (uunlink.body c).run .none s
    s.world.Unlinks c.target (Conclusion.statusOf o.result) o.state.world := by
  intro o
  have run : o = (uunlink.body c).run .none s := rfl
  unfold uunlink at run
  dsimp only at run
  rw [if_neg (by simp [admin]), if_neg (by simpa using named)] at run
  rcases run_load_bind run with broken | loaded
  · exact (broken.accident rfl).elim
  split at loaded
  · next absent =>
    rw [loaded]
    exact .absent absent
  · next linked found =>
    obtain ⟨holder, held⟩ := exists_holder found
    rcases run_save_bind loaded with broken | saved
    · exact (broken.accident rfl).elim
    · rw [saved, held]
      exact .dropped found held

/-- An administrator's script has become a statement to unlink a target. -/
structure Expansion.AsksUnlink (x : Expansion) (m : Message) (target : String) : Prop where
  asks : ∃ st, x.Asks m st ∧ st.command = Command.uunlink.name ∧ st.target = target
  named : target ≠ ""
  admin : x.state.world.isAdmin m.sender = true

structure World.AsksUnlink (w : World) (target : String) (q : Submission) : Prop where
  asks : ∃ st, q.Asks st ∧ st.command = Command.uunlink.name ∧ st.target = target
  admin : w.isAdmin q.message.sender = true

namespace Interpreter

variable {i : Interpreter} {target linked : String}

section Builtin

variable (builtin : i.catalog = .builtin) (intact : i.outage = .none)

include builtin intact

private theorem unlinks_of_asks {m : Message} {mode : Mode} {levels : Nat} {script : String}
    {s : State}
    {x : Expansion} (expanded : i.expansion m levels script s = x) (asked : x.AsksUnlink m target)
    {r : Run} (evaluated : i.evaluate m mode (levels + 1) script s = r) :
    x.state.world.Unlinks target r.evaluation.status r.stop.world := by
  obtain ⟨⟨st, asks, command, rfl⟩, named, admin⟩ := asked
  have ended := conclusion_of_asks builtin expanded asks .uunlink command evaluated
  rw [intact] at ended
  have unlinks := Command.unlinks_run (c := i.reached m st x.state) admin named x.state
  have status := congrArg (fun d => d.evaluation.status) ended
  have world := congrArg (fun d => d.state.world) ended
  exact status ▸ world ▸ unlinks

private theorem unlinks_submit (named : target ≠ "") {q : Submission} {s : State}
    (asked : s.world.AsksUnlink target q) :
    s.world.Unlinks target (i.submit q s).evaluation.status (i.submit q s).stop.world := by
  obtain ⟨⟨st, asks, command, resolved⟩, admin⟩ := asked
  obtain ⟨reaches, state⟩ := expansion_of_asks (i := i) asks maxInlineDepth s
  have asked : (i.expansion q.message maxInlineDepth q.script s).AsksUnlink q.message target :=
    ⟨⟨st, reaches, command, resolved⟩, named, by rw [state]; exact admin⟩
  have unlinks := unlinks_of_asks builtin intact rfl asked (i.submit_eq q s).symm
  rw [state] at unlinks
  exact unlinks

/-- Up to the rank of a target, each repetition drops a pair that points where the target does, and
the last of them that of the target. -/
private theorem unlinks_history (named : target ≠ "") {repeats : List Submission} {s : State}
    (unique : s.world.linkTable.targets.Nodup)
    (found : s.world.linkTable.linked? target = some linked)
    (each : ∀ q ∈ repeats, s.world.AsksUnlink target q)
    (enough : repeats.length ≤ s.world.linkTable.rank target linked) :
    let runs := i.history repeats s
    let table := (Run.lastStop runs s).world.linkTable
    (∀ r ∈ runs, r.evaluation.status = .success) ∧
      table.elsewhere linked = s.world.linkTable.elsewhere linked ∧
      (table.linked? target = none ↔ repeats.length = s.world.linkTable.rank target linked) := by
  induction repeats generalizing s with
  | nil =>
    have positive := rank_pos found
    refine ⟨fun _ member => (List.not_mem_nil member).elim, rfl, ?_, fun none => ?_⟩
    · intro unlinked
      cases found.symm.trans unlinked
    · exact (Nat.ne_of_lt positive none).elim
  | cons q rest ih =>
    obtain ⟨asked, each⟩ := List.forall_mem_cons.mp each
    have unlinks := unlinks_submit builtin intact named asked
    rw [List.length_cons] at enough
    simp only [Interpreter.history, Run.lastStop_cons, List.forall_mem_cons, List.length_cons]
    generalize i.submit q s = r at unlinks
    obtain ⟨succeeded, roles, holder, dropped⟩ := unlinks.of_linked unique found
    rcases dropped.target_cases unique found with ⟨-, last, unlinked⟩ | ⟨-, nearer, still⟩
    · obtain rfl : rest = [] := List.eq_nil_of_length_eq_zero (by omega)
      refine ⟨⟨succeeded, fun _ member => (List.not_mem_nil member).elim⟩, dropped.elsewhere_eq, ?_⟩
      exact ⟨fun _ => last.symm, fun _ => unlinked⟩
    · have each' : ∀ q ∈ rest, r.stop.world.AsksUnlink target q := fun q member =>
        ⟨(each q member).asks, by
          rw [World.isAdmin, roles]
          exact (each q member).admin⟩
      have unique' := unique.sublist (dropped.sublist.map Prod.fst)
      have enough' : rest.length ≤ r.stop.world.linkTable.rank target linked := by
        omega
      obtain ⟨later, elsewhere, ended⟩ := ih unique' still each' enough'
      refine ⟨⟨succeeded, later⟩, elsewhere.trans dropped.elsewhere_eq, ended.trans ?_⟩
      omega

end Builtin

/-- What it does to unlink a target, in a state to which a history from an empty global table has
led. For a target without a link it is reported that there is none, and nothing changes. For a
target with a link the earliest pair that points to its linked identity is dropped, and every other
pair stays as it is; so the target itself is unlinked only if that pair is its own. The statement may
be repeated as often as pairs point there up to the pair of the target: each of these runs succeeds
and leaves the pairs that point elsewhere alone, and the last one unlinks the target. -/
theorem earliest_holder_unlinked (settings : Settings) (submissions : List Submission) (s : State)
    (empty : s.world.global = []) :
    let i : Interpreter := { settings }
    let last := Run.lastStop (i.history submissions s) s
    (∀ (m : Message) (mode : Mode) (levels : Nat) (script target : String),
      let x := i.expansion m levels script last
      let run := i.evaluate m mode (levels + 1) script last
      x.AsksUnlink m target →
        (x.state.world.linkTable.linked? target = none →
          run.evaluation.status = .missingOrInvalidArgs ∧ run.stop.world = x.state.world) ∧
        ∀ linked, x.state.world.linkTable.linked? target = some linked →
          run.evaluation.status = .success ∧
          ∃ holder, Unlinked holder linked x.state.world.linkTable run.stop.world.linkTable ∧
            (run.stop.world.linkTable.linked? target = none ↔ holder = target)) ∧
    ∀ (target linked : String) (repeats : List Submission), target ≠ "" →
      last.world.linkTable.linked? target = some linked →
      (∀ q ∈ repeats, last.world.AsksUnlink target q) →
      repeats.length ≤ last.world.linkTable.rank target linked →
        let runs := i.history repeats last
        let table := (Run.lastStop runs last).world.linkTable
        (∀ r ∈ runs, r.evaluation.status = .success) ∧
          table.elsewhere linked = last.world.linkTable.elsewhere linked ∧
          (table.linked? target = none ↔
            repeats.length = last.world.linkTable.rank target linked) := by
  intro i last
  have builtin : i.catalog = .builtin := rfl
  have intact : i.outage = .none := rfl
  have finish (m : Message) := soundLinks_finish builtin m
  have sound : last.world.SoundLinks := invariant_history (I := fun s => s.world.SoundLinks)
    finish submissions (World.soundLinks_of_empty empty)
  refine ⟨?_, fun target linked repeats named found each enough =>
    unlinks_history builtin intact named sound.sound.unique found each enough⟩
  intro m mode levels script target x run asked
  have expanded : i.expansion m levels script last = x := rfl
  have evaluated : i.evaluate m mode (levels + 1) script last = run := rfl
  have begun : x.state.world.SoundLinks := by
    have kept := keeps_evaluate (I := fun s => s.world.SoundLinks) (finish m) mode (levels + 1)
      script sound
    have afterSpans := kept.afterSpans
    rwa [afterSpans_evaluate_succ, expanded] at afterSpans
  have unlinks := unlinks_of_asks builtin intact expanded asked evaluated
  clear_value x run
  refine ⟨unlinks.of_unlinked, fun linked found => ?_⟩
  obtain ⟨succeeded, -, holder, dropped⟩ := unlinks.of_linked begun.sound.unique found
  exact ⟨succeeded, holder, dropped, dropped.linked?_eq_none_iff begun.sound.unique found⟩

theorem earliest_holder_unlinked_of_shared_identity :
    let s : State := { world := { roles := .ofLists ["1"] [] } }
    let m : Message := { sender := "1" }
    let admin (script : String) : Submission := ⟨m, .buffered, script⟩
    let submissions := [admin "ulink::300 600", admin "ulink::500 700", admin "ulink::400 600"]
    let last := Run.lastStop (({} : Interpreter).history submissions s) s
    let x := ({} : Interpreter).expansion m maxInlineDepth "rise uunlink::400" last
    let run :=
      ({} : Interpreter).evaluate m .streaming (maxInlineDepth + 1) "rise uunlink::400" last
    let repeats := [admin "uunlink::400", admin "uunlink::400"]
    let runs := ({} : Interpreter).history repeats last
    let table := (Run.lastStop runs last).world.linkTable
    (s.world.global = [] ∧
      last.world.linkTable = [("300", "600"), ("500", "700"), ("400", "600")] ∧
      x.AsksUnlink m "400" ∧ ∀ q ∈ repeats, last.world.AsksUnlink "400" q) ∧
    (run.evaluation.status = .success ∧ ∃ holder,
      Unlinked holder "600" x.state.world.linkTable run.stop.world.linkTable ∧
        (run.stop.world.linkTable.linked? "400" = none ↔ holder = "400")) ∧
    (∀ r ∈ runs, r.evaluation.status = .success) ∧
      table.elsewhere "600" = last.world.linkTable.elsewhere "600" ∧
      table.linked? "400" = none := by
  intro s m admin submissions last x run repeats runs table
  have linked : last.world.linkTable = [("300", "600"), ("500", "700"), ("400", "600")] := by
    decide +kernel
  let st : Statement :=
    { modifier := some "rise", command := "uunlink", target := "400", tail := "" }
  have asks : x.Asks m st := ⟨by decide +kernel, by decide +kernel, by decide +kernel⟩
  have asked : x.AsksUnlink m "400" := ⟨⟨st, asks, rfl, rfl⟩, by decide, by decide +kernel⟩
  have again : (admin "uunlink::400").Asks { st with modifier := none } :=
    ⟨by decide +kernel, by decide +kernel, by decide +kernel⟩
  have each : ∀ q ∈ repeats, last.world.AsksUnlink "400" q := by
    have one : last.world.AsksUnlink "400" (admin "uunlink::400") :=
      ⟨⟨_, again, rfl, rfl⟩, by decide +kernel⟩
    exact List.forall_mem_cons.mpr ⟨one, List.forall_mem_singleton.mpr one⟩
  obtain ⟨once, repeated⟩ := earliest_holder_unlinked {} submissions s rfl
  have first := (once m .streaming maxInlineDepth "rise uunlink::400" "400" asked).2 "600"
    (by decide +kernel)
  obtain ⟨succeeded, elsewhere, unlinked⟩ := repeated "400" "600" repeats (by decide)
    (by decide +kernel) each (by decide +kernel)
  exact ⟨⟨rfl, linked, asked, each⟩, first, succeeded, elsewhere, unlinked.mpr (by decide +kernel)⟩

end Interpreter

end OperatorScript
