import OperatorScript.Proofs.Atomicity
import OperatorScript.Proofs.Lens
import OperatorScript.Proofs.RecordUpdate
import OperatorScript.Proofs.Rounding
import OperatorScript.Proofs.Stages

/-!
Increments.

The number is looked up below the member that the first key of its path names, and the sum is
written at the whole path; both lead to the same place of the record. The main statements: an
increment exchanges one number or does nothing; and the property holds a number afterwards exactly
if the sum does not overflow.
-/

set_option autoImplicit false
set_option relaxedAutoImplicit false

namespace OperatorScript

open Json

namespace Json

private theorem Number.isFinite_toBinary64 (n : Number) : n.toBinary64.isFinite = true := by
  cases n with
  | real x finite => exact finite
  | integer i inRange =>
    refine Binary64.isFinite_ofInt ?_
    have bounds : Nat.pow 2 63 = 9223372036854775808 ∧ Nat.pow 2 64 = 18446744073709551616 ∧
        Nat.pow 2 65 = 36893488147419103232 := by decide
    rw [InRange, bounds.1, bounds.2.1] at inRange
    rw [bounds.2.2]
    omega

namespace Value

private theorem isScalar_ofReal (x : Binary64) : (ofReal x).isScalar = true := by
  unfold ofReal
  split <;> rfl

private theorem isScalar_ofInt (i : Int) : (ofInt i).isScalar = true := by
  unfold ofInt
  split
  · rfl
  · exact isScalar_ofReal _

private theorem isScalar_ofNumber (x : Binary64) : (ofNumber x).isScalar = true := by
  unfold ofNumber
  split
  · split
    · exact isScalar_ofInt _
    · exact isScalar_ofReal x
  · exact isScalar_ofReal x

private theorem exists_ofReal_eq_num_iff {x : Binary64} :
    (∃ n, ofReal x = .num n) ↔ x.isFinite = true := by
  unfold ofReal Number.ofBinary64?
  by_cases finite : x.isFinite = true
  · simp [finite]
  · simp [finite]

private theorem exists_ofNumber_eq_num_iff {x : Binary64} :
    (∃ n, ofNumber x = .num n) ↔ x.isFinite = true := by
  unfold ofNumber
  split
  · next i integral =>
    split
    · next small =>
      have finite : x.isFinite = true := by
        cases x with
        | finite => rfl
        | nan | infinite => cases integral
      have inRange : InRange i := by
        have bounds : Nat.pow 2 53 = 9007199254740992 ∧ Nat.pow 2 63 = 9223372036854775808 ∧
            Nat.pow 2 64 = 18446744073709551616 := by decide
        rw [bounds.1] at small
        rw [InRange, bounds.2.1, bounds.2.2]
        omega
      exact iff_of_true ⟨_, dif_pos inRange⟩ finite
    · exact exists_ofReal_eq_num_iff
  · exact exists_ofReal_eq_num_iff

private theorem exists_ofNumber_add_eq_num_iff {x y : Binary64} {u v : Int}
    (first : x.units? = some u) (second : y.units? = some v) :
    (∃ n, ofNumber (x + y) = .num n) ↔ (u + v).natAbs < Binary64.overflow :=
  exists_ofNumber_eq_num_iff.trans (Binary64.isFinite_add_iff first second)

private theorem exists_num_of_number? {v : Value} {x : Binary64} (held : v.number? = some x) :
    ∃ n, v = .num n ∧ n.toBinary64 = x := by
  cases v with
  | num n => exact ⟨n, rfl, Option.some.inj held⟩
  | null | bool _ | str _ | arr _ | obj _ => cases held

end Value

end Json

namespace World

def recordValue (w : World) (scope : Scope) (id : String) : Value :=
  .obj (w.read scope id .whole)

def property? (w : World) (scope : Scope) (id property : String) : Option Value :=
  (w.recordValue scope id).get? (pathKeys [property])

/-- Two worlds differ at a path of one record only, and there only in the content of a scalar. All
paths that neither lead to a place before it nor to it or through it lead to the same values; and
wherever a path leads, the keys of an object and the length of an array are the same. -/
structure LeafOnly (scope : Scope) (id : String) (keys : List String) (before after : World) :
    Prop where
  roles : after.roles = before.roles
  tables : ∀ other, other ≠ scope → after.table other = before.table other
  identities : Dict.keys (after.table scope) = Dict.keys (before.table scope)
  records : ∀ other, other ≠ id → (after.table scope).get? other = (before.table scope).get? other
  beside : ∀ path, ¬ (before.recordValue scope id).Along path keys →
    ¬ (before.recordValue scope id).Along keys path →
      (after.recordValue scope id).get? path = (before.recordValue scope id).get? path
  outlines : ∀ path, ((after.recordValue scope id).get? path).map Value.outline =
    ((before.recordValue scope id).get? path).map Value.outline

variable {w : World} {scope : Scope} {id : String} {keys : List String} {old new : Value}
  {record : Record} {property : String}

private theorem recordValue_withTable_insert :
    (w.withTable scope ((w.table scope).insert id record)).recordValue scope id = .obj record := by
  simp [recordValue, read, Part.of, Table.record]

private theorem property?_withTable_insert
    (changed : Value.set new (pathKeys [property]) (w.recordValue scope id) = .obj record) :
    (w.withTable scope ((w.table scope).insert id record)).property? scope id property =
      some new := by
  rw [property?, recordValue_withTable_insert, ← changed]
  exact Value.get?_set_self _ _ _

private theorem leafOnly_withTable (held : (w.recordValue scope id).get? keys = some old)
    (before : old.isScalar = true) (after : new.isScalar = true)
    (changed : Value.set new keys (w.recordValue scope id) = .obj record) :
    LeafOnly scope id keys w (w.withTable scope ((w.table scope).insert id record)) where
  roles := roles_withTable _ _ _
  tables other ne := table_withTable_of_ne ne _ _
  identities := by
    rw [table_withTable_self]
    cases known : (w.table scope).get? id with
    | some r => exact Dict.keys_insert_of_get? known
    | none =>
      have empty : w.recordValue scope id = .obj [] := by
        simp [recordValue, read, Part.of, Table.record, known]
      rw [empty] at held
      cases keys with
      | nil =>
        obtain rfl : Value.obj [] = old := Option.some.inj held
        cases before
      | cons key rest => cases held
  records other ne := by
    rw [table_withTable_self]
    exact Dict.get?_insert_of_ne ne _ _
  beside path notBefore notAfter := by
    rw [recordValue_withTable_insert, ← changed]
    exact Value.get?_set_of_diverge new (Value.fits_of_get? held)
      (Value.diverge_iff.mpr ⟨notAfter, notBefore⟩)
  outlines path := by
    rw [recordValue_withTable_insert, ← changed]
    exact Value.outline_get?_set held before after path

end World

def Evaluation.notANumber (property : String) : Evaluation :=
  { status := .malformedInput
    result := "Property " ++ property ++ " is not a number or does not exist." }

private theorem Evaluation.ne_notANumber {e : Evaluation} (head : e.result.toList.head? ≠ some 'P')
    (property : String) : e ≠ notANumber property := by
  rintro rfl
  simp [notANumber] at head

namespace Command

/-- A statement adds an amount to a property that holds a number, and may do so. -/
structure Increments (owner : Owner) (c : Context) (w : World) (property : String) (n : Number)
    (amount : Binary64) : Prop where
  named : c.target ≠ ""
  allowed : c.risen.allowsTarget = true
  given : c.args.arg? 0 = some property
  amount : (c.args.arg? 1).bind finite? = some amount
  held : w.property? owner.scope c.target property = some (.num n)

variable {owner : Owner} {c : Context} {s : State}

private theorem isFinite_of_finite? {word : String} {amount : Binary64}
    (read : finite? word = some amount) : amount.isFinite = true :=
  (Option.filter_eq_some_iff.mp read).2

private theorem exists_run_readNumberRoot (scope : Scope) (id property : String) (s : State) :
    ∃ root t, t.world = s.world ∧
      numberAt? root (pathKeys [property]) =
        (s.world.property? scope id property).bind Value.number? ∧
      (readNumberRoot scope id (pathKeys [property])).run .none s =
        { chunks := [], result := .ok root, state := t } := by
  unfold World.property?
  cases keys : pathKeys [property] with
  | nil => exact ⟨.null, s, rfl, rfl, rfl⟩
  | cons key rest =>
    have single : dottedKeys key = [key] := dottedKeys_of_mem_pathKeys (keys ▸ List.mem_cons_self)
    refine ⟨.obj (s.world.read scope id (.path key)), s.tick, rfl, ?_, rfl⟩
    have member : (s.world.read scope id (.path key)).get? key =
        (s.world.read scope id .whole).get? key :=
      Record.get?_pick_self single _
    simp only [numberAt?, World.recordValue, Value.get?, Value.child?, member]

private theorem increment_cases (owner : Owner) (c : Context) (s : State) :
    (∃ text status, status ≠ .success ∧ text.toList.head? ≠ some 'P' ∧
      ((increment owner).body c).run .none s =
        { chunks := [text], result := .ok status, state := s }) ∨
    (∃ property t, c.args.arg? 0 = some property ∧
      (s.world.property? owner.scope c.target property).bind Value.number? = none ∧
      t.world = s.world ∧
      ((increment owner).body c).run .none s =
        { chunks := [(Evaluation.notANumber property).result]
          result := .ok (Evaluation.notANumber property).status
          state := t }) ∨
    ∃ property n amount, Increments owner c s.world property n amount := by
  unfold increment
  dsimp only
  split
  · exact .inl ⟨_, _, by decide, by decide, rfl⟩
  next filled =>
  split
  · exact .inl ⟨_, _, by decide, by decide, rfl⟩
  next permitted =>
  split
  · next property word given second =>
    cases amount : finite? word with
    | none => exact .inl ⟨_, _, by decide, by simp, rfl⟩
    | some x =>
      obtain ⟨root, t, world, same, run⟩ :=
        exists_run_readNumberRoot owner.scope c.target property s
      cases held : numberAt? root (pathKeys [property]) with
      | none =>
        refine .inr (.inl ⟨property, t, given, same ▸ held, world, ?_⟩)
        simp only [Procedure.bind_eq, Procedure.run_bind, run, held]
        rfl
      | some current =>
        obtain ⟨v, found, number⟩ := Option.bind_eq_some_iff.mp (same.symm.trans held)
        obtain ⟨n, rfl, -⟩ := Value.exists_num_of_number? number
        exact .inr (.inr ⟨property, n, x,
          { named := by simpa using filled
            allowed := by simpa using permitted
            given
            amount := by rw [second, Option.bind_some, amount]
            held := found }⟩)
  · exact .inl ⟨_, _, by decide, by decide, rfl⟩

theorem run_increment {property : String} {n : Number} {amount : Binary64}
    (adds : Increments owner c s.world property n amount) :
    ∃ t,
      ((increment owner).body c).run .none s =
        { chunks :=
            ["Incremented " ++ property ++ " by " ++ amount.text ++ " for " ++ owner.noun ++ " [" ++
                c.target ++ "]. New value: " ++ (n.toBinary64 + amount).text,
              (Value.obj [(property, .ofNumber (n.toBinary64 + amount))]).pretty]
          result := .ok .success
          state := t } ∧
      t.world.property? owner.scope c.target property =
        some (.ofNumber (n.toBinary64 + amount)) ∧
      World.LeafOnly owner.scope c.target (pathKeys [property]) s.world t.world := by
  obtain ⟨word, second, finite⟩ := Option.bind_eq_some_iff.mp adds.amount
  obtain ⟨root, t, world, same, read⟩ :=
    exists_run_readNumberRoot owner.scope c.target property s
  have number : numberAt? root (pathKeys [property]) = some n.toBinary64 := by
    rw [same, adds.held]
    rfl
  cases keys : pathKeys [property] with
  | nil =>
    have held := adds.held
    rw [World.property?, keys] at held
    cases held
  | cons key rest =>
    have single : dottedKeys key = [key] := dottedKeys_of_mem_pathKeys (keys ▸ List.mem_cons_self)
    obtain ⟨record, accesses, changed, written⟩ := Procedure.run_writePath_eq single owner.scope
      c.target rest (.ofNumber (n.toBinary64 + amount)) t
    rw [world] at changed written
    rw [← keys] at changed written ⊢
    have leaf := World.leafOnly_withTable adds.held rfl (Value.isScalar_ofNumber _) changed
    refine ⟨{ world := _, accesses }, ?_, World.property?_withTable_insert changed, leaf⟩
    unfold increment
    simp only [adds.given, second, finite]
    rw [if_neg (by simpa using adds.named), if_neg (by simp [adds.allowed]), Procedure.bind_eq,
      Procedure.run_bind, read]
    simp only [number, Procedure.bind_eq, Procedure.run_bind, written]
    rfl

end Command

/-- The spans of a script have been evaluated, and what the script has become is a statement with an
increment command. -/
structure Expansion.AsksIncrement (x : Expansion) (m : Message) (owner : Command.Owner)
    (st : Statement) : Prop where
  read : Statement.read (String.ofList x.text) m = .ok st
  named : st.command = (Command.increment owner).name

namespace Interpreter

open Command

variable {i : Interpreter} {m : Message} {mode : Mode} {levels : Nat} {script : String} {s : State}
  {owner : Owner} {st : Statement} {r : Run}

section Builtin

variable (builtin : i.catalog = .builtin) (intact : i.outage = .none) {x : Expansion}
  (expanded : i.expansion m levels script s = x) (asks : x.AsksIncrement m owner st)
  (evaluated : i.evaluate m mode (levels + 1) script s = r)

include builtin intact expanded asks evaluated

private theorem conclusion_of_increment :
    (∃ status text, status ≠ .success ∧ text.toList.head? ≠ some 'P' ∧
      r.conclusion = .early status text x.state) ∨
    ∃ c : Context, c.target = st.target ∧ c.args = ArgList.read st.tail ∧
      r.conclusion = .ofCommand mode c (((increment owner).body c).run .none x.state) := by
  have known : i.catalog.command? st.command = some (increment owner) := by
    rw [builtin, asks.named]
    cases owner <;> rfl
  have concludes : i.Concludes m mode x r.conclusion := by
    rw [concludes_iff, ← evaluated, conclusion_evaluate_succ, expanded]
  rcases concludes.cases_of_command builtin asks.read known with
    spansFailed | ⟨name, unknownModifier⟩ | ⟨permission, ran⟩
  · exact .inl ⟨_, _, by decide, by simp [issues], spansFailed⟩
  · exact .inl ⟨_, _, by decide, by simp, unknownModifier⟩
  · rw [intact] at ran
    exact .inr ⟨_, rfl, rfl, ran⟩

private theorem increment_outcome :
    let before := x.state.world
    let after := r.stop.world
    let args := ArgList.read st.tail
    (r.evaluation.status ≠ .success ∧ (∀ property, r.evaluation ≠ .notANumber property) ∧
      after = before) ∨
    (∃ property, args.arg? 0 = some property ∧
      (before.property? owner.scope st.target property).bind Value.number? = none ∧
      r.evaluation = .notANumber property ∧ after = before) ∨
    ∃ property n amount,
      args.arg? 0 = some property ∧ (args.arg? 1).bind finite? = some amount ∧
      before.property? owner.scope st.target property = some (.num n) ∧
      after.property? owner.scope st.target property = some (.ofNumber (n.toBinary64 + amount)) ∧
      World.LeafOnly owner.scope st.target (pathKeys [property]) before after ∧
      r.evaluation.status = .success := by
  intro before after args
  have otherwise {status : Status} {text : String} (failed : status ≠ .success)
      (head : text.toList.head? ≠ some 'P') (evaluation : r.evaluation = ⟨status, text⟩) :
      r.evaluation.status ≠ .success ∧ ∀ property, r.evaluation ≠ .notANumber property := by
    rw [evaluation]
    exact ⟨failed, Evaluation.ne_notANumber head⟩
  rcases conclusion_of_increment builtin intact expanded asks evaluated with
    ⟨status, text, failed, head, ended⟩ | ⟨c, target, words, ended⟩
  · have refused := otherwise failed head (congrArg Conclusion.evaluation ended)
    exact .inl ⟨refused.1, refused.2, congrArg (fun d => d.state.world) ended⟩
  · rw [← target, show args = c.args from words.symm]
    rcases increment_cases owner c x.state with
      ⟨text, status, failed, head, run⟩ | ⟨property, t, given, missing, world, run⟩ |
        ⟨property, n, amount, adds⟩
    · rw [run] at ended
      have refused := otherwise failed head (congrArg Conclusion.evaluation ended)
      exact .inl ⟨refused.1, refused.2, congrArg (fun d => d.state.world) ended⟩
    · rw [run] at ended
      exact .inr (.inl ⟨property, given, missing, congrArg Conclusion.evaluation ended,
        (congrArg (fun d => d.state.world) ended).trans world⟩)
    · obtain ⟨t, run, sum, leaf⟩ := run_increment adds
      rw [run] at ended
      have world : after = t.world := congrArg (fun d => d.state.world) ended
      rw [world]
      exact .inr (.inr ⟨property, n, amount, adds.given, adds.amount, adds.held, sum, leaf,
        congrArg (fun d => d.evaluation.status) ended⟩)

private theorem ne_notANumber_of_held {property : String} {n : Number}
    (given : (ArgList.read st.tail).arg? 0 = some property)
    (held : x.state.world.property? owner.scope st.target property = some (.num n)) :
    r.evaluation ≠ .notANumber property := by
  intro refused
  rcases increment_outcome builtin intact expanded asks evaluated with
    ⟨-, otherwise, -⟩ | ⟨other, asked, missing, -, -⟩ | ⟨_, _, _, -, -, -, -, -, succeeded⟩
  · exact otherwise property refused
  · obtain rfl : property = other := Option.some.inj (given.symm.trans asked)
    rw [held] at missing
    cases missing
  · rw [refused] at succeeded
    cases succeeded

private theorem success_of_increments {c : Context} {property : String} {n : Number}
    {amount : Binary64} (ran : r.ending.context? = some c)
    (adds : Increments owner c x.state.world property n amount) :
    r.evaluation.status = .success := by
  rcases conclusion_of_increment builtin intact expanded asks evaluated with
    ⟨status, text, -, -, ended⟩ | ⟨c', -, -, ended⟩
  · have early : r.ending.context? = none := congrArg Conclusion.ran ended
    cases early.symm.trans ran
  · have context : r.ending.context? = some c' := congrArg Conclusion.ran ended
    obtain rfl : c' = c := Option.some.inj (context.symm.trans ran)
    obtain ⟨t, run, -, -⟩ := run_increment adds
    rw [run] at ended
    exact congrArg (fun d => d.evaluation.status) ended

end Builtin

/-- An increment touches one number or nothing. A statement with an increment command that succeeds
found a number at the path of its property, and differs from what its spans left in the content of
this leaf only. One that does not succeed leaves everything as its spans left it, and without spans
everything as it was. Where the command runs and may add, it succeeds. -/
theorem single_leaf (settings : Settings) (m : Message) (mode : Mode) (levels : Nat)
    (script : String) (s : State) (owner : Owner) (st : Statement) :
    let i : Interpreter := { settings }
    let run := i.evaluate m mode (levels + 1) script s
    let before := run.afterSpans.world
    let after := run.stop.world
    (i.expansion m levels script s).AsksIncrement m owner st →
      (run.evaluation.status = .success →
        ∃ property n, (ArgList.read st.tail).arg? 0 = some property ∧
          before.property? owner.scope st.target property = some (.num n) ∧
          World.LeafOnly owner.scope st.target (pathKeys [property]) before after) ∧
      (run.evaluation.status ≠ .success → after = before) ∧
      (SpanFree script m → before = s.world) ∧
      ∀ c property n amount, run.ending.context? = some c →
        Increments owner c before property n amount → run.evaluation.status = .success := by
  intro i run before after asks
  have start : before = (i.expansion m levels script s).state.world :=
    congrArg State.world (afterSpans_evaluate_succ i m mode levels script s)
  have plain (free : SpanFree script m) : before = s.world := by
    rw [start, expansion_of_spanFree i m free]
  have evaluated : i.evaluate m mode (levels + 1) script s = run := rfl
  have outcome := increment_outcome rfl rfl rfl asks evaluated
  have succeeds (c : Context) (property : String) (n : Number) (amount : Binary64)
      (ran : run.ending.context? = some c) (adds : Increments owner c before property n amount) :
      run.evaluation.status = .success := by
    rw [start] at adds
    exact success_of_increments rfl rfl rfl asks evaluated ran adds
  rw [← start] at outcome
  refine ⟨fun success => ?_, fun failed => ?_, plain, succeeds⟩
  · rcases outcome with ⟨failed, -, -⟩ | ⟨_, -, -, refused, -⟩ |
      ⟨property, n, amount, given, -, held, -, leaf, -⟩
    · exact (failed success).elim
    · rw [refused] at success
      cases success
    · exact ⟨property, n, given, held, leaf⟩
  · rcases outcome with ⟨-, -, same⟩ | ⟨_, -, -, -, same⟩ | ⟨_, _, _, -, -, -, -, -, succeeded⟩
    · exact same
    · exact same
    · exact (failed succeeded).elim

theorem single_leaf_of_item_of_array :
    let s : State :=
      { world :=
          { users :=
              [("5", [("list", .arr [.ofInt 1, .obj [("x", .ofInt 3)]]), ("name", .str "Ada")])] } }
    let m : Message := { sender := "5" }
    let script := "rise uincr::self list.+01.x -0.5"
    let st : Statement :=
      { modifier := some "rise", command := "uincr", target := "5", tail := "list.+01.x -0.5" }
    let i : Interpreter := {}
    let run := i.run m .streaming script s
    (i.expansion m maxInlineDepth script s).AsksIncrement m .user st ∧
      run.evaluation.status = .success ∧
      World.LeafOnly .users "5" ["list", "+01", "x"] run.afterSpans.world run.stop.world := by
  intro s m script st i run
  have asks : (i.expansion m maxInlineDepth script s).AsksIncrement m .user st :=
    { read := by decide +kernel
      named := by decide +kernel }
  have succeeded : run.evaluation.status = .success := by decide +kernel
  obtain ⟨property, _, given, _, leaf⟩ :=
    (single_leaf {} m .streaming maxInlineDepth script s .user st asks).1 succeeded
  have keys : ((ArgList.read st.tail).arg? 0).map (fun property => pathKeys [property]) =
      some ["list", "+01", "x"] := by decide +kernel
  rw [given] at keys
  exact ⟨asks, succeeded, Option.some.inj keys ▸ leaf⟩

/-- A numeric property stays numeric unless its sum overflows. After a statement with an increment
command that succeeds, the property holds what the sum of its number and of the finite amount
becomes. This is a number exactly if the exact sum lies below the overflow, and then no increment of
the property, in any state in which it still holds this, is refused for want of a number. -/
theorem numeric_unless_overflow (settings : Settings) (m : Message) (mode : Mode) (levels : Nat)
    (script : String) (s : State) (owner : Owner) (st : Statement) :
    let i : Interpreter := { settings }
    let run := i.evaluate m mode (levels + 1) script s
    let held (w : World) (property : String) := w.property? owner.scope st.target property
    (i.expansion m levels script s).AsksIncrement m owner st → run.evaluation.status = .success →
      ∃ property n amount u v,
        (ArgList.read st.tail).arg? 0 = some property ∧
        ((ArgList.read st.tail).arg? 1).bind finite? = some amount ∧
        held run.afterSpans.world property = some (.num n) ∧
        n.toBinary64.units? = some u ∧ amount.units? = some v ∧
        held run.stop.world property = some (.ofNumber (n.toBinary64 + amount)) ∧
        ((∃ k, held run.stop.world property = some (.num k)) ↔
          (u + v).natAbs < Binary64.overflow) ∧
        ((u + v).natAbs < Binary64.overflow →
          ∀ m' mode' levels' script' s' st',
            let next := i.expansion m' levels' script' s'
            next.AsksIncrement m' owner st' → st'.target = st.target →
            (ArgList.read st'.tail).arg? 0 = some property →
            held next.state.world property = held run.stop.world property →
              (i.evaluate m' mode' (levels' + 1) script' s').evaluation ≠
                .notANumber property) := by
  intro i run held asks success
  have start : run.afterSpans.world = (i.expansion m levels script s).state.world :=
    congrArg State.world (afterSpans_evaluate_succ i m mode levels script s)
  have evaluated : i.evaluate m mode (levels + 1) script s = run := rfl
  have outcome := increment_outcome rfl rfl rfl asks evaluated
  rw [← start] at outcome
  rcases outcome with
    ⟨failed, -, -⟩ | ⟨_, -, -, refused, -⟩ |
      ⟨property, n, amount, given, second, number, sum, -, -⟩
  · exact (failed success).elim
  · rw [show run.evaluation = _ from refused] at success
    cases success
  · obtain ⟨word, -, finite⟩ := Option.bind_eq_some_iff.mp second
    obtain ⟨u, first⟩ := Binary64.exists_units_of_isFinite n.isFinite_toBinary64
    obtain ⟨v, other⟩ := Binary64.exists_units_of_isFinite (isFinite_of_finite? finite)
    have stored : held run.stop.world property = some (.ofNumber (n.toBinary64 + amount)) := sum
    have numeric : (∃ k, held run.stop.world property = some (.num k)) ↔
        (u + v).natAbs < Binary64.overflow := by
      simp only [stored, Option.some.injEq]
      exact Value.exists_ofNumber_add_eq_num_iff first other
    refine ⟨property, n, amount, u, v, given, second, number, first, other, stored, numeric, ?_⟩
    intro below m' mode' levels' script' s' st' next asks' target asked kept
    obtain ⟨k, holds⟩ := numeric.mpr below
    have present : next.state.world.property? owner.scope st'.target property = some (.num k) := by
      rw [target]
      exact kept.trans holds
    have expanded : i.expansion m' levels' script' s' = next := rfl
    exact ne_notANumber_of_held rfl rfl expanded asks' rfl asked present

theorem numeric_unless_overflow_of_negative_amount :
    let s : State :=
      { world :=
          { threads := [("7", [("bank", .obj [("left", .ofInt 3)])])], roles := .ofLists ["1"] [] } }
    let m : Message := { sender := "1" }
    let script := "tincr::7 bank.left -0.5"
    let st : Statement :=
      { modifier := none, command := "tincr", target := "7", tail := "bank.left -0.5" }
    let i : Interpreter := { settings := {} }
    let first := i.evaluate m .buffered (maxInlineDepth + 1) script s
    let second := i.evaluate m .streaming (maxInlineDepth + 1) script first.stop
    (i.expansion m maxInlineDepth script s).AsksIncrement m .thread st ∧
      first.evaluation.status = .success ∧
      (i.expansion m maxInlineDepth script first.stop).AsksIncrement m .thread st ∧
      second.evaluation ≠ .notANumber "bank.left" := by
  intro s m script st i first second
  have asks : (i.expansion m maxInlineDepth script s).AsksIncrement m .thread st :=
    { read := by decide +kernel
      named := by decide +kernel }
  have again : (i.expansion m maxInlineDepth script first.stop).AsksIncrement m .thread st :=
    { read := by decide +kernel
      named := by decide +kernel }
  have succeeded : first.evaluation.status = .success := by decide +kernel
  obtain ⟨property, _, _, _, _, given, _, _, _, _, _, numeric, later⟩ :=
    numeric_unless_overflow {} m .buffered maxInlineDepth script s .thread st asks succeeded
  have named : (ArgList.read st.tail).arg? 0 = some "bank.left" := by decide +kernel
  obtain rfl : "bank.left" = property := Option.some.inj (named.symm.trans given)
  have stored : first.stop.world.property? .threads "7" "bank.left" =
      some (.ofNumber (.ofDecimal false 25 (-1))) := by decide +kernel
  have finite : (Binary64.ofDecimal false 25 (-1)).isFinite = true := by decide +kernel
  obtain ⟨n, number⟩ := Value.exists_ofNumber_eq_num_iff.mpr finite
  have below := numeric.mp ⟨n, stored.trans (congrArg some number)⟩
  have unrefused := later below m .streaming maxInlineDepth script first.stop st again rfl named
  exact ⟨asks, succeeded, again, unrefused (by decide +kernel)⟩

/-- A sum of two finite numbers that overflows is stored as `null`, with success, and the next
increment of the property is refused. -/
theorem refused_after_overflow :
    let large : Value := .ofNumber (.ofDecimal false 17 307)
    let s : State :=
      { world := { users := [("1", [("n", large)])], roles := .ofLists ["1"] [] } }
    let m : Message := { sender := "1" }
    let first := ({} : Interpreter).run m .buffered "uincr::1 n 1.7e308" s
    let second := ({} : Interpreter).run m .buffered "uincr::1 n 1" first.stop
    ((finite? "1.7e308").map Value.ofNumber = some large ∧ first.evaluation.status = .success) ∧
      first.stop.world.property? .users "1" "n" = some .null ∧
      second.evaluation = .notANumber "n" := by
  decide +kernel

end Interpreter

end OperatorScript
