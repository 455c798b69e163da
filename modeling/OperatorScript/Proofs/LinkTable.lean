import Mathlib.Data.List.Nodup
import OperatorScript.Proofs.Frame
import OperatorScript.Proofs.History
import OperatorScript.Proofs.Stages

/-!
The link table over whole histories.

The field in which the table is kept is written by two commands only, so its form and its soundness
are invariants of every statement. The main statement: after every history from an empty global
table the field holds the pairs of a sound table and nothing else, and each link that succeeded
changed one pair of it, or added one.
-/

set_option autoImplicit false
set_option relaxedAutoImplicit false

namespace OperatorScript

open Json

namespace LinkTable

variable {t u : LinkTable} {target linked : String}

def targets (t : LinkTable) : List String := t.map Prod.fst

/-- A table in which no target occurs twice, none is linked to itself, and no two are linked to
each other. -/
structure Sound (t : LinkTable) : Prop where
  unique : t.targets.Nodup
  irreflexive : ∀ a, (a, a) ∉ t
  oneWay : ∀ a b, (a, b) ∈ t → (b, a) ∉ t

/-- A table differs from another in the pair of one target only, which is in the place of an older
pair of the target, or else at the end. -/
inductive Relinked (target linked : String) : LinkTable → LinkTable → Prop
  | replaced {before : LinkTable} (absent : target ∉ before.targets) (old : String)
      (after : LinkTable) :
      Relinked target linked (before ++ (target, old) :: after)
        (before ++ (target, linked) :: after)
  | added {t : LinkTable} (absent : target ∉ t.targets) :
      Relinked target linked t (t ++ [(target, linked)])

private theorem Relinked.cons {e : String × String} (ne : e.1 ≠ target)
    (rest : Relinked target linked t u) : Relinked target linked (e :: t) (e :: u) := by
  have absent {before : LinkTable} (absent : target ∉ before.targets) :
      target ∉ targets (e :: before) := by
    simpa [targets, Ne.symm ne] using absent
  cases rest with
  | replaced first old after => exact .replaced (absent first) old after
  | added first => exact .added (absent first)

private theorem relinked_link (target linked : String) (t : LinkTable) :
    Relinked target linked t (t.link target linked) := by
  induction t with
  | nil => exact .added (by simp [targets])
  | cons e rest ih =>
    obtain ⟨other, old⟩ := e
    rw [link]
    split
    · next same =>
      obtain rfl : other = target := same
      have first : other ∉ targets [] := by simp [targets]
      exact .replaced first old rest
    · next ne => exact ih.cons ne

theorem mem_of_linked? {a b : String} (found : t.linked? a = some b) : (a, b) ∈ t := by
  induction t with
  | nil => cases found
  | cons e rest ih =>
    rw [linked?_cons] at found
    split at found
    · next same =>
      obtain rfl : e.2 = b := Option.some.inj found
      rw [← same]
      exact List.mem_cons_self
    · exact List.mem_cons_of_mem _ (ih found)

private theorem linked?_of_mem {a b : String} (unique : t.targets.Nodup) (member : (a, b) ∈ t) :
    t.linked? a = some b := by
  induction t with
  | nil => cases member
  | cons e rest ih =>
    obtain ⟨fresh, unique⟩ := List.nodup_cons.mp unique
    rw [linked?_cons]
    rcases List.mem_cons.mp member with rfl | member
    · exact if_pos rfl
    · have listed : a ∈ targets rest := List.mem_map_of_mem member
      have ne : e.1 ≠ a := by
        rintro rfl
        exact fresh listed
      rw [if_neg ne]
      exact ih unique member

private theorem Relinked.nodup_targets (relinked : Relinked target linked t u)
    (unique : t.targets.Nodup) :
    u.targets.Nodup := by
  cases relinked with
  | replaced absent old after => simpa [targets] using unique
  | added absent =>
    have last : (t.targets ++ [target]).Nodup := List.nodup_append.mpr
      ⟨unique, List.nodup_singleton _, fun a listed b last => by
        rintro rfl
        rw [List.mem_singleton.mp last] at listed
        exact absent listed⟩
    simpa [targets] using last

private theorem Relinked.mem (relinked : Relinked target linked t u) (unique : t.targets.Nodup)
    {a b : String} (member : (a, b) ∈ u) :
    (a = target ∧ b = linked) ∨ (a ≠ target ∧ (a, b) ∈ t) := by
  have unique' := relinked.nodup_targets unique
  by_cases same : a = target
  · subst same
    have new : (a, linked) ∈ u := by cases relinked <;> simp
    have found := (linked?_of_mem unique' new).symm.trans (linked?_of_mem unique' member)
    exact .inl ⟨rfl, (Option.some.inj found).symm⟩
  · refine .inr ⟨same, ?_⟩
    cases relinked with
    | replaced absent old after => simpa [same] using member
    | added absent => simpa [same] using member

private theorem isCircular_eq_false : t.isCircular target linked = false ↔
    linked ≠ target ∧ t.linked? linked ≠ some target := by
  simp [isCircular]

private theorem Sound.nil : Sound [] := ⟨List.nodup_nil, by simp, by simp⟩

private theorem Sound.sublist (sound : t.Sound) (fewer : u.Sublist t) : u.Sound where
  unique := sound.unique.sublist (fewer.map Prod.fst)
  irreflexive a member := sound.irreflexive a (fewer.subset member)
  oneWay a b member back := sound.oneWay a b (fewer.subset member) (fewer.subset back)

private theorem Sound.relinked (sound : t.Sound) (relinked : Relinked target linked t u)
    (open_ : t.isCircular target linked = false) : u.Sound := by
  obtain ⟨apart, oneWay⟩ := isCircular_eq_false.mp open_
  have pair {a b : String} := relinked.mem sound.unique (a := a) (b := b)
  have new (back : (linked, target) ∈ t) : False := oneWay (linked?_of_mem sound.unique back)
  refine ⟨relinked.nodup_targets sound.unique, fun a member => ?_, fun a b member back => ?_⟩
  · rcases pair member with ⟨same, same'⟩ | ⟨_, member⟩
    · exact apart (same'.symm.trans same)
    · exact sound.irreflexive a member
  · rcases pair member with ⟨rfl, rfl⟩ | ⟨_, member⟩ <;>
      rcases pair back with ⟨same, same'⟩ | ⟨_, back⟩
    · exact apart same
    · exact new back
    · subst same same'
      exact new member
    · exact sound.oneWay a b member back

end LinkTable

namespace World

def linksField (w : World) : Option Value :=
  (w.global.record LinkTable.recordId).get? LinkTable.fieldName

def linkTable (w : World) : LinkTable := .ofValue w.linksField

def withLinkTable (w : World) (t : LinkTable) : World :=
  w.write .global LinkTable.recordId [(LinkTable.fieldName, t.toValue)]

/-- The field of the links was never written, or holds the pairs of a sound table and nothing
else. -/
structure SoundLinks (w : World) : Prop where
  exact : ∀ value, w.linksField = some value → value = w.linkTable.toValue
  sound : w.linkTable.Sound

@[simp] theorem linksField_withLinkTable (w : World) (t : LinkTable) :
    (w.withLinkTable t).linksField = some t.toValue := by
  have written := Table.record_write_self w.global LinkTable.recordId
    [(LinkTable.fieldName, t.toValue)]
  simp only [linksField, withLinkTable, write, withTable, table, written]
  exact Dict.get?_insert_self _ _ _

@[simp] theorem linkTable_withLinkTable (w : World) (t : LinkTable) :
    (w.withLinkTable t).linkTable = t := by
  rw [linkTable, linksField_withLinkTable, LinkTable.ofValue_toValue]

private theorem soundLinks_withLinkTable (w : World) {t : LinkTable} (sound : t.Sound) :
    (w.withLinkTable t).SoundLinks := by
  refine ⟨fun value found => ?_, by rwa [linkTable_withLinkTable]⟩
  rw [linksField_withLinkTable] at found
  rw [linkTable_withLinkTable, Option.some.inj found]

theorem soundLinks_of_empty {w : World} (empty : w.global = []) : w.SoundLinks := by
  have unwritten : w.linksField = none := by rw [linksField, empty]; rfl
  refine ⟨fun value found => ?_, ?_⟩
  · rw [unwritten] at found
    cases found
  · rw [linkTable, unwritten]
    exact .nil

private theorem read_links (w : World) :
    (w.read .global LinkTable.recordId (.path LinkTable.fieldName)).get? LinkTable.fieldName =
      w.linksField := by
  have single : dottedKeys LinkTable.fieldName = [LinkTable.fieldName] := by decide +kernel
  simp only [read, Part.of, Record.pick_of_dottedKeys single, linksField, table]
  cases Dict.get? LinkTable.fieldName (w.global.record LinkTable.recordId) with
  | none => rfl
  | some value => simp [Dict.get?]

end World

structure Procedure.Outcome.Broke {α : Type} (o : Outcome String α) (outage : Outage) (w : World) :
    Prop where
  accident : outage ≠ .none
  faulty : ∃ fault, o.result = .error fault
  world : o.state.world = w

namespace LinkTable

variable {α : Type} {outage : Outage} {s : State} {o : Procedure.Outcome String α}

private theorem ne_none_of_answered {accesses : Nat} {access : Access} {breakdown : Breakdown}
    (answered : outage accesses access = some breakdown) : outage ≠ .none := by
  rintro rfl
  cases answered

theorem run_load_bind {f : LinkTable → Procedure String α} (run : o = (load.bind f).run outage s) :
    o.Broke outage s.world ∨ o = (f s.world.linkTable).run outage s.tick := by
  simp only [load, Procedure.queryRecord, Procedure.bind_eq, Procedure.bind, Procedure.run] at run
  cases answered : outage s.accesses (.read .global recordId (.path fieldName)) with
  | none =>
    simp only [answered, Procedure.ofAnswer, Procedure.done_bind, s.world.read_links] at run
    exact .inr run
  | some breakdown =>
    rw [run, answered]
    cases breakdown <;> exact .inl ⟨ne_none_of_answered answered, ⟨_, rfl⟩, rfl⟩

theorem run_save_bind {f : Unit → Procedure String α} {t : LinkTable}
    (run : o = (t.save.bind f).run outage s) :
    o.Broke outage s.world ∨
      o = (f ()).run outage { s.tick with world := s.world.withLinkTable t } := by
  simp only [save, Procedure.setRecord, Procedure.bind, Procedure.run] at run
  cases answered : outage s.accesses (.write .global recordId [(fieldName, t.toValue)]) with
  | none =>
    simp only [answered, Procedure.ofAnswer, Procedure.done_bind] at run
    exact .inr run
  | some breakdown =>
    rw [run, answered]
    cases breakdown <;> exact .inl ⟨ne_none_of_answered answered, ⟨_, rfl⟩, rfl⟩

private theorem result_load (s : State) : (load.run .none s).result = .ok s.world.linkTable := by
  rcases run_load_bind (congrArg (fun p => p.run .none s) load.bind_done.symm) with
    broken | loaded
  · exact (broken.accident rfl).elim
  · rw [loaded]
    rfl

private theorem result_save_load (t : LinkTable) (s : State) :
    ((t.save.bind fun _ => load).run .none s).result = .ok t := by
  generalize run : (t.save.bind fun _ => load).run .none s = o
  rcases run_save_bind run.symm with broken | saved
  · exact (broken.accident rfl).elim
  · rw [saved, result_load]
    exact congrArg Except.ok (s.world.linkTable_withLinkTable t)

end LinkTable

structure Context.MayLink (c : Context) (linked : String) : Prop where
  admin : c.authorIsAdmin = true
  named : c.target ≠ ""
  unprotected : (c.targetIsAdmin && c.settings.ignoreAdminLinks) = false
  given : c.args.arg? 0 = some linked

namespace Command

open LinkTable

/-- Linking left a world as it was and did not succeed. Where no access breaks down, only a link
that would point back at its target is left out, or one that may not be made. -/
structure NotLinked (c : Context) (outage : Outage) (w : World)
    (o : Procedure.Outcome String Status) : Prop where
  world : o.state.world = w
  failed : o.result ≠ .ok .success
  circular : ∀ linked, outage = .none → c.MayLink linked →
    w.linkTable.isCircular c.target linked = true ∧ o.result = .ok .malformedInput

structure Linked (c : Context) (linked : String) (w : World)
    (o : Procedure.Outcome String Status) : Prop where
  permitted : c.MayLink linked
  straight : w.linkTable.isCircular c.target linked = false
  succeeded : o.result = .ok .success
  world : o.state.world = w.withLinkTable (w.linkTable.link c.target linked)

section Run

variable {c : Context} {outage : Outage} {s : State} {o : Procedure.Outcome String Status}

private theorem NotLinked.of_stop {text : String} {status : Status}
    (stopped : o = (Procedure.stop text status).run outage s) (failed : status ≠ .success)
    (circular : ∀ linked, c.MayLink linked →
      s.world.linkTable.isCircular c.target linked = true ∧ status = .malformedInput) :
    NotLinked c outage s.world o where
  world := by
    rw [stopped]
    rfl
  failed := by
    rw [stopped]
    exact fun same => failed (Except.ok.inj same)
  circular linked _ may := by
    rw [stopped]
    exact ⟨(circular linked may).1, congrArg Except.ok (circular linked may).2⟩

private theorem NotLinked.of_broken (broken : o.Broke outage s.world) :
    NotLinked c outage s.world o := by
  obtain ⟨fault, result⟩ := broken.faulty
  exact ⟨broken.world, by simp [result], fun _ intact => (broken.accident intact).elim⟩

end Run

variable (c : Context) (outage : Outage) (s : State)

private theorem run_ulink :
    let o := (ulink.body c).run outage s
    NotLinked c outage s.world o ∨ ∃ linked, Linked c linked s.world o := by
  intro o
  have run : o = (ulink.body c).run outage s := rfl
  unfold ulink at run
  dsimp only at run
  split at run
  · next notAdmin =>
    exact .inl (.of_stop run (by decide) fun linked may => by simp [may.admin] at notAdmin)
  split at run
  · next unnamed =>
    have never (linked : String) (may : c.MayLink linked) : False :=
      may.named (by simpa using unnamed)
    exact .inl (.of_stop run (by decide) fun linked may => (never linked may).elim)
  split at run
  · next isProtected =>
    exact .inl (.of_stop run (by decide) fun linked may => by simp [may.unprotected] at isProtected)
  split at run
  · next missing =>
    exact .inl (.of_stop run (by decide) fun linked may => by simp [may.given] at missing)
  next admin named unprotected _ linked given =>
  have may : c.MayLink linked :=
    ⟨by simpa using admin, by simpa using named, by simpa using unprotected, given⟩
  rcases run_load_bind run with broken | loaded
  · exact .inl (.of_broken broken)
  split at loaded
  · next circular =>
    refine .inl (.of_stop (s := s.tick) loaded (by decide) fun other may' => ?_)
    obtain rfl : linked = other := Option.some.inj (given.symm.trans may'.given)
    exact ⟨circular, rfl⟩
  · next straight =>
    rcases run_save_bind loaded with broken | saved
    · exact .inl (.of_broken (s := s.tick) broken)
    · refine .inr ⟨linked, may, by simpa using straight, ?_, ?_⟩
      · rw [saved]
        rfl
      · rw [saved]
        rfl

private theorem run_uunlink :
    let o := (uunlink.body c).run outage s
    o.state.world = s.world ∨
      ∃ target, o.state.world = s.world.withLinkTable (s.world.linkTable.unlink target) := by
  intro o
  have run : o = (uunlink.body c).run outage s := rfl
  unfold uunlink at run
  dsimp only at run
  split at run
  · exact .inl (congrArg (fun o => o.state.world) run)
  split at run
  · exact .inl (congrArg (fun o => o.state.world) run)
  rcases run_load_bind run with broken | loaded
  · exact .inl broken.world
  split at loaded
  · exact .inl (congrArg (fun o => o.state.world) loaded)
  · rcases run_save_bind loaded with broken | saved
    · exact .inl broken.world
    · exact .inr ⟨_, congrArg (fun o => o.state.world) saved⟩

private theorem IsBuiltin.global_run {command : Command} (builtin : command.IsBuiltin)
    (linking : command.name ≠ "ulink") (unlinking : command.name ≠ "uunlink") :
    ((command.body c).run outage s).state.world.global = s.world.global := by
  have covered := builtin.covers_run c outage s
  have property {scope : Scope} {f : Footprint} (ne : scope ≠ .global)
      (f_eq : f = .ofProperty scope c.target c.args)
      (covered : f.Covers s.world ((command.body c).run outage s).state.world) :
      ((command.body c).run outage s).state.world.global = s.world.global := by
    subst f_eq
    unfold Footprint.ofProperty at covered
    split at covered
    · exact covered.tables .global (Ne.symm ne)
    · exact congrArg World.global covered
  generalize command.name = name at covered linking unlinking
  unfold Footprint.ofCommand at covered
  split at covered
  · exact property (by decide) rfl covered
  · exact property (by decide) rfl covered
  · exact property (by decide) rfl covered
  · exact property (by decide) rfl covered
  · contradiction
  · contradiction
  · exact covered.tables .global
  · exact covered.tables .global
  · exact covered.tables .global
  · exact covered.tables .global
  · exact congrArg World.global covered

/-- Every command keeps the links sound. -/
private theorem IsBuiltin.soundLinks_run {command : Command} (builtin : command.IsBuiltin)
    (sound : s.world.SoundLinks) : ((command.body c).run outage s).state.world.SoundLinks := by
  have kept (linking : command.name ≠ "ulink") (unlinking : command.name ≠ "uunlink") :
      ((command.body c).run outage s).state.world.SoundLinks := by
    have same : ((command.body c).run outage s).state.world.linksField = s.world.linksField := by
      rw [World.linksField, builtin.global_run c outage s linking unlinking, World.linksField]
    exact ⟨by rw [World.linkTable, same]; exact sound.exact,
      by rw [World.linkTable, same]; exact sound.sound⟩
  cases builtin with
  | ulink =>
    rcases run_ulink c outage s with left | ⟨linked, made⟩
    · rw [left.world]
      exact sound
    · rw [made.world]
      exact World.soundLinks_withLinkTable _
        (sound.sound.relinked (relinked_link _ _ _) made.straight)
  | uunlink =>
    rcases run_uunlink c outage s with world | ⟨target, world⟩
    · rw [world]
      exact sound
    · rw [world]
      exact World.soundLinks_withLinkTable _ (sound.sound.sublist List.filter_sublist)
  | set owner => cases owner <;> exact kept (by decide) (by decide)
  | get owner => cases owner <;> exact kept (by decide) (by decide)
  | increment owner => cases owner <;> exact kept (by decide) (by decide)
  | _ => exact kept (by decide) (by decide)

end Command

private theorem Ending.eq_ran_of_success {e : Ending} {c : Context} (ran : e.context? = some c)
    (succeeded : e.status = .success) : ∃ chunks, e = .ran c chunks (.ok .success) := by
  obtain ⟨chunks, result, rfl⟩ := Ending.exists_eq_ran_of_context? ran
  cases result with
  | ok status =>
    obtain rfl : status = .success := succeeded
    exact ⟨chunks, rfl⟩
  | error fault => cases succeeded

namespace Interpreter

open LinkTable

variable {i : Interpreter} (builtin : i.catalog = .builtin)

include builtin

theorem soundLinks_finish (m : Message) (x : Expansion) (sound : x.state.world.SoundLinks) :
    (i.finish m x).2.world.SoundLinks := by
  rcases finish_cases m builtin x with ⟨_, stop⟩ | ⟨st, permission, command, _, found, run⟩
  · rw [stop]
    exact sound
  · have known := (Catalog.isBuiltin_of_command? found).1
    rw [run]
    exact known.soundLinks_run (i.context m st x.state permission) i.outage x.state sound

theorem ulink_of_history {submissions : List Submission} {s : State} {r q : Run}
    (member : r ∈ i.history submissions s) (within : q.Within r) {c : Context}
    {chunks : List String} {ending : Except Fault Status} (ran : q.ending = .ran c chunks ending)
    (named : c.name = "ulink") :
    let o : Procedure.Outcome String Status := { chunks, result := ending, state := q.stop }
    Command.NotLinked c i.outage q.afterSpans.world o ∨
      ∃ linked, Command.Linked c linked q.afterSpans.world o := by
  intro o
  obtain ⟨m, mode, levels, script, t, _, evaluated⟩ :=
    exists_evaluate_of_history (I := fun _ => True) (fun _ _ _ => trivial) trivial member within
  obtain ⟨command, found, run⟩ := run_afterSpans_of_ran m builtin evaluated ran
  have known : Catalog.builtin.command? "ulink" = some .ulink := rfl
  rw [named, known] at found
  obtain rfl : Command.ulink = command := Option.some.inj found
  have linked := Command.run_ulink c i.outage q.afterSpans
  rw [run] at linked
  exact linked

omit builtin

/-- The link table over whole histories. After every history from an empty global table, whoever
sends its scripts and whatever accesses break down, the field of the links holds the pairs of a
sound table and nothing else, loading answers with these pairs, and what is saved is loaded again.
Each link that succeeds on the way puts its pair in the place of the old pair of its target or at
the end, and keeps all others. -/
theorem sound_links (settings : Settings) (outage : Outage) (submissions : List Submission)
    (s : State) (empty : s.world.global = []) :
    let history := ({ settings, outage } : Interpreter).history submissions s
    let last := Run.lastStop history s
    last.world.SoundLinks ∧
    (load.run .none last).result = .ok last.world.linkTable ∧
    (∀ t : LinkTable, ((t.save.bind fun _ => load).run .none last).result = .ok t) ∧
    ∀ (r q : Run) (c : Context), r ∈ history → q.Within r → q.ending.context? = some c →
      c.name = "ulink" → q.evaluation.status = .success →
      ∃ linked, c.args.arg? 0 = some linked ∧
        Relinked c.target linked q.afterSpans.world.linkTable q.stop.world.linkTable ∧
        q.afterSpans.world.SoundLinks ∧ q.stop.world.SoundLinks := by
  intro history last
  have sound : s.world.SoundLinks := World.soundLinks_of_empty empty
  have finish := soundLinks_finish (i := { settings, outage }) rfl
  refine ⟨invariant_history (I := fun s => s.world.SoundLinks) finish submissions sound,
    result_load last, fun t => result_save_load t last, ?_⟩
  intro r q c member within context named succeeded
  obtain ⟨chunks, ran⟩ := Ending.eq_ran_of_success context succeeded
  have kept := keeps_history (I := fun s => s.world.SoundLinks) finish sound member within
  rcases ulink_of_history rfl member within ran named with left | ⟨linked, made⟩
  · exact (left.failed rfl).elim
  · have world : q.stop.world = _ := made.world
    refine ⟨linked, made.permitted.given, ?_, kept.afterSpans, kept.stop⟩
    rw [world, World.linkTable_withLinkTable]
    exact relinked_link c.target linked _

theorem sound_links_of_relinking :
    let s : State := { world := { roles := .ofLists ["1"] [] } }
    let admin (script : String) : Submission := ⟨{ sender := "1" }, .buffered, script⟩
    let submissions := [admin "ulink::300 400", admin "ulink::500 300", admin "ulink::300 600"]
    let history := ({} : Interpreter).history submissions s
    let last := Run.lastStop history s
    s.world.global = [] ∧ last.world.SoundLinks ∧
    ∃ q c linked, q ∈ history ∧ q.ending.context? = some c ∧ c.name = "ulink" ∧
      q.evaluation.status = .success ∧
      q.afterSpans.world.linkTable = [("300", "400"), ("500", "300")] ∧
      Relinked c.target linked q.afterSpans.world.linkTable q.stop.world.linkTable := by
  intro s admin submissions history last
  obtain ⟨sound, -, -, relinked⟩ := sound_links {} .none submissions s rfl
  let q := history.getLast (by decide +kernel)
  have member : q ∈ history := List.getLast_mem _
  obtain ⟨named, succeeded, before⟩ : q.ending.context?.map Context.name = some "ulink" ∧
      q.evaluation.status = .success ∧
      q.afterSpans.world.linkTable = [("300", "400"), ("500", "300")] := by decide +kernel
  obtain ⟨c, ran, name⟩ := Option.map_eq_some_iff.mp named
  obtain ⟨linked, -, changed, -⟩ := relinked q q c member (.self q) ran name succeeded
  exact ⟨rfl, sound, q, c, linked, member, ran, name, succeeded, before, changed⟩

end Interpreter

end OperatorScript
