import OperatorScript.Proofs.Increment
import OperatorScript.Proofs.Reaching

/-!
Spellings of a path: the keys of a path may be spread over the arguments of a statement in many
ways.

The main statements: all spellings are read as the same keys; and whatever the spelling, and whether
the record is read as a whole or only the member that the first key names, the item that is shown is
the one to which the keys lead in the whole record.
-/

set_option autoImplicit false
set_option relaxedAutoImplicit false

namespace OperatorScript

open Json Command

namespace Json

structure IsKey (key : String) : Prop where
  filled : key ≠ ""
  plain : ∀ c ∈ key.toList, (c == '.' || c == ' ') = false

instance (key : String) : Decidable (IsKey key) :=
  decidable_of_iff (key ≠ "" ∧ (key.toList.all fun c => !(c == '.' || c == ' ')) = true)
    ⟨fun both => ⟨both.1, by simpa using both.2⟩,
      fun isKey => ⟨isKey.filled, by simpa using isKey.plain⟩⟩

/-- A text spells keys: they stand in it in order, with a dot after each but perhaps the last, and
with any number of dots more before and after them. -/
inductive Spells : List Char → List String → Prop
  | nil : Spells [] []
  | dot {cs : List Char} {keys : List String} (rest : Spells cs keys) : Spells ('.' :: cs) keys
  | last {key : String} (isKey : IsKey key) : Spells key.toList [key]
  | key {key : String} {cs : List Char} {keys : List String} (isKey : IsKey key)
      (rest : Spells cs keys) : Spells (key.toList ++ '.' :: cs) (key :: keys)

inductive SpellTogether : List String → List String → Prop
  | nil : SpellTogether [] []
  | part {part : String} {parts keys more : List String} (first : Spells part.toList keys)
      (others : SpellTogether parts more) : SpellTogether (part :: parts) (keys ++ more)

private theorem IsKey.toList_ne_nil {key : String} (isKey : IsKey key) : key.toList ≠ [] :=
  fun empty => isKey.filled (String.toList_eq_nil_iff.mp empty)

private theorem pieces_of_spells {cs : List Char} {keys : List String} (spells : Spells cs keys) :
    (Text.pieces (fun c => c == '.' || c == ' ') cs).map String.ofList = keys := by
  induction spells with
  | nil => rfl
  | dot _ ih => exact ih
  | last isKey =>
    rw [Text.pieces_of_uncut isKey.toList_ne_nil isKey.plain, List.map_singleton,
      String.ofList_toList]
  | key isKey _ ih =>
    rw [Text.pieces_append_cons _ isKey.toList_ne_nil isKey.plain rfl, List.map_cons,
      String.ofList_toList, ih]

theorem pathKeys_of_spellTogether {parts keys : List String} (spell : SpellTogether parts keys) :
    pathKeys parts = keys := by
  induction spell with
  | nil => rfl
  | part first _ ih => rw [pathKeys, List.flatMap_cons, pieces_of_spells first, ← ih, pathKeys]

private theorem Record.get?_pick {key : String} (single : dottedKeys key = [key])
    (rest : List String) (r : Record) :
    (Value.obj (r.pick key)).get? (key :: rest) = (Value.obj r).get? (key :: rest) := by
  have member : (r.pick key).get? key = r.get? key := Record.get?_pick_self single r
  simp only [Value.get?, Value.child?, member]

end Json

/-- The item to which keys lead in the whole record of an identity; `null` if they lead nowhere. -/
def World.item (w : World) (scope : Scope) (id : String) (keys : List String) : Value :=
  ((w.recordValue scope id).get? keys).getD .null

namespace Command

variable {owner : Owner} {c : Context} {s : State} {keys : List String}

private theorem exists_run_readFor (path : pathKeys c.args.args = keys) (scope : Scope)
    (id : String) (all : Bool) (s : State) :
    ∃ record, (readFor scope id all keys).run .none s =
        { chunks := [], result := .ok record, state := s.tick } ∧
      ((Value.obj record).get? keys).getD .null = s.world.item scope id keys := by
  cases keys with
  | nil => exact ⟨_, rfl, rfl⟩
  | cons first rest =>
    cases all with
    | true => exact ⟨_, rfl, rfl⟩
    | false =>
      have single : dottedKeys first = [first] :=
        dottedKeys_of_mem_pathKeys (path ▸ List.mem_cons_self)
      refine ⟨_, rfl, ?_⟩
      exact congrArg (Option.getD · Value.null) (Record.get?_pick single rest _)

private theorem run_get_item (named : c.target ≠ "") (allowed : c.risen.allowsTarget = true)
    (path : pathKeys c.args.args = keys) (filled : keys ≠ []) :
    ((get owner).body c).run .none s =
      { chunks := [itemHeader c.args keys ++ itemText c.args (c.args.hasFlag "all")
          (s.world.item owner.scope c.target keys)]
        result := .ok .success
        state := s.tick } := by
  obtain ⟨record, read, item⟩ :=
    exists_run_readFor path owner.scope c.target (c.args.hasFlag "all") s
  unfold get
  simp only [path]
  rw [if_neg (by simpa using named), if_neg (by simp [filled]), if_neg (by simp [allowed]),
    Procedure.bind_eq, Procedure.run_bind, read]
  simp only [item]
  rfl

end Command

/-- What a script has become asks for the item at keys, which its arguments spell, of a record on
which the sender may act. -/
structure Expansion.AsksItem (x : Expansion) (m : Message) (owner : Owner) (keys : List String)
    (st : Statement) : Prop where
  asks : x.Asks m st
  named : st.command = (get owner).name
  allowed : x.state.world.MayActOn m.sender st.target
  filled : keys ≠ []
  spelled : SpellTogether (ArgList.read st.tail).args keys

def shown (args : ArgList) (keys : List String) (item : Value) : Evaluation :=
  { status := .success
    result := itemHeader args keys ++ itemText args (args.hasFlag "all") item }

private theorem shown_json {args other : ArgList} (json : args.hasFlag "json" = true)
    (json' : other.hasFlag "json" = true) (raw : other.hasFlag "raw" = args.hasFlag "raw")
    (keys : List String) (item : Value) : shown other keys item = shown args keys item := by
  simp only [shown, itemHeader, itemText, json, json', raw, if_true]

namespace Interpreter

variable {i : Interpreter} {m : Message} {mode : Mode} {levels : Nat} {script : String} {s : State}
  {owner : Owner} {keys : List String} {st : Statement}

private theorem evaluation_of_asksItem (builtin : i.catalog = .builtin) (intact : i.outage = .none)
    {x : Expansion} (expanded : i.expansion m levels script s = x)
    (asks : x.AsksItem m owner keys st) {r : Run}
    (evaluated : i.evaluate m mode (levels + 1) script s = r) :
    r.evaluation =
        shown (ArgList.read st.tail) keys (x.state.world.item owner.scope st.target keys) ∧
      r.stop.world = x.state.world := by
  have path : pathKeys (i.reached m st x.state).args.args = keys :=
    pathKeys_of_spellTogether asks.spelled
  have ended := conclusion_of_asks builtin expanded asks.asks (.get owner) asks.named evaluated
  rw [intact, run_get_item asks.allowed.named
    ((i.reached m st x.state).risen_allowsTarget.mpr asks.allowed.permitted) path asks.filled]
    at ended
  exact ⟨congrArg Conclusion.evaluation ended, congrArg (fun d => d.state.world) ended⟩

private theorem evaluation_eq_of_asksItem (builtin : i.catalog = .builtin)
    (intact : i.outage = .none)
    {x x' : Expansion} {m' : Message} {mode' : Mode} {levels' : Nat} {script' : String} {s' : State}
    {st' : Statement} (expanded : i.expansion m levels script s = x)
    (expanded' : i.expansion m' levels' script' s' = x') (asks : x.AsksItem m owner keys st)
    (asks' : x'.AsksItem m' owner keys st')
    (record : x'.state.world.recordValue owner.scope st'.target =
      x.state.world.recordValue owner.scope st.target)
    (json : (ArgList.read st.tail).hasFlag "json" = true)
    (json' : (ArgList.read st'.tail).hasFlag "json" = true)
    (raw : (ArgList.read st'.tail).hasFlag "raw" = (ArgList.read st.tail).hasFlag "raw")
    {r r' : Run} (evaluated : i.evaluate m mode (levels + 1) script s = r)
    (evaluated' : i.evaluate m' mode' (levels' + 1) script' s' = r') :
    r'.evaluation = r.evaluation := by
  have item : x'.state.world.item owner.scope st'.target keys =
      x.state.world.item owner.scope st.target keys := by
    rw [World.item, record, World.item]
  rw [(evaluation_of_asksItem builtin intact expanded asks evaluated).1,
    (evaluation_of_asksItem builtin intact expanded' asks' evaluated').1, item]
  exact shown_json json json' raw keys _

/-- Reading a property agrees with reading the whole record. A statement that may show the item at
keys succeeds, changes nothing, and shows the item to which the keys lead in the whole record,
however they are spelled. So two such statements for the same keys of equal records show the same
as JSON, with the whole record asked for or not. -/
theorem item_of_whole_record (settings : Settings) (m : Message) (mode : Mode) (levels : Nat)
    (script : String) (s : State) (owner : Owner) (keys : List String) (st : Statement) :
    let i : Interpreter := { settings }
    let x := i.expansion m levels script s
    let run := i.evaluate m mode (levels + 1) script s
    x.AsksItem m owner keys st →
      (run.evaluation =
          shown (ArgList.read st.tail) keys (x.state.world.item owner.scope st.target keys) ∧
        run.stop.world = x.state.world) ∧
      ∀ m' mode' levels' script' s' st',
        let other := i.expansion m' levels' script' s'
        other.AsksItem m' owner keys st' →
        other.state.world.recordValue owner.scope st'.target =
          x.state.world.recordValue owner.scope st.target →
        (ArgList.read st.tail).hasFlag "json" = true →
        (ArgList.read st'.tail).hasFlag "json" = true →
        (ArgList.read st'.tail).hasFlag "raw" = (ArgList.read st.tail).hasFlag "raw" →
          (i.evaluate m' mode' (levels' + 1) script' s').evaluation = run.evaluation := by
  intro i x run asks
  have builtin : i.catalog = .builtin := rfl
  have intact : i.outage = .none := rfl
  have expanded : i.expansion m levels script s = x := rfl
  have evaluated : i.evaluate m mode (levels + 1) script s = run := rfl
  refine ⟨evaluation_of_asksItem builtin intact expanded asks evaluated, ?_⟩
  intro m' mode' levels' script' s' st' other asks' record json json' raw
  have expanded' : i.expansion m' levels' script' s' = other := rfl
  exact evaluation_eq_of_asksItem builtin intact expanded expanded' asks asks' record json json' raw
    evaluated rfl

theorem item_of_whole_record_of_two_spellings :
    let s : State :=
      { world :=
          { users := [("5", [("bank", .obj [("list", .arr [.ofInt 1, .obj [("x", .str "y")]])])])]
            roles := .ofLists ["1"] [] } }
    let keys := ["bank", "list", "1", "x"]
    let own : Message := { sender := "5" }
    let script := "uget::self bank..list .1.x --json"
    let st : Statement :=
      { modifier := none, command := "uget", target := "5", tail := "bank..list .1.x --json" }
    let admin : Message := { sender := "1" }
    let script' := "rise uget::5 ...bank. list.1 x --json --all"
    let st' : Statement :=
      { modifier := some "rise", command := "uget", target := "5"
        tail := "...bank. list.1 x --json --all" }
    ((({} : Interpreter).expansion own maxInlineDepth script s).AsksItem own .user keys st ∧
      (({} : Interpreter).expansion admin maxInlineDepth script' s).AsksItem admin .user keys st') ∧
    (({} : Interpreter).evaluate own .buffered (maxInlineDepth + 1) script s).evaluation =
        shown (ArgList.read st.tail) keys (.str "y") ∧
      (({} : Interpreter).evaluate admin .streaming (maxInlineDepth + 1) script' s).evaluation =
        (({} : Interpreter).evaluate own .buffered (maxInlineDepth + 1) script s).evaluation := by
  intro s keys own script st admin script' st'
  have args : (ArgList.read st.tail).args = ["bank..list", ".1.x"] := by decide +kernel
  have args' : (ArgList.read st'.tail).args = ["...bank.", "list.1", "x"] := by decide +kernel
  have bank : IsKey "bank" := by decide +kernel
  have list : IsKey "list" := by decide +kernel
  have one : IsKey "1" := by decide +kernel
  have x : IsKey "x" := by decide +kernel
  have doubled : Spells "bank..list".toList ["bank", "list"] := .key bank (.dot (.last list))
  have leading : Spells ".1.x".toList ["1", "x"] := .dot (.key one (.last x))
  have around : Spells "...bank.".toList ["bank"] := .dot (.dot (.dot (.key bank .nil)))
  have joined : Spells "list.1".toList ["list", "1"] := .key list (.last one)
  have spelled : SpellTogether ["bank..list", ".1.x"] keys := .part doubled (.part leading .nil)
  have spelled' : SpellTogether ["...bank.", "list.1", "x"] keys :=
    .part around (.part joined (.part (.last x) .nil))
  have asks :
      (({} : Interpreter).expansion own maxInlineDepth script s).AsksItem own .user keys st :=
    { asks := ⟨by decide +kernel, by decide +kernel, by decide +kernel⟩
      named := rfl
      allowed := ⟨by decide +kernel, .inr rfl⟩
      filled := by decide
      spelled := args ▸ spelled }
  have asks' :
      (({} : Interpreter).expansion admin maxInlineDepth script' s).AsksItem admin .user keys st' :=
    { asks := ⟨by decide +kernel, by decide +kernel, by decide +kernel⟩
      named := rfl
      allowed := ⟨by decide +kernel, .inl (by decide +kernel)⟩
      filled := by decide
      spelled := args' ▸ spelled' }
  obtain ⟨⟨first, _⟩, alike⟩ :=
    item_of_whole_record {} own .buffered maxInlineDepth script s .user keys st asks
  have second := alike admin .streaming maxInlineDepth script' s st' asks' (by decide +kernel)
    (by decide +kernel) (by decide +kernel) (by decide +kernel)
  have item :
      (({} : Interpreter).expansion own maxInlineDepth script s).state.world.item .users "5" keys =
        .str "y" := by decide +kernel
  exact ⟨⟨asks, asks'⟩, first.trans (congrArg (shown _ keys) item), second⟩

end Interpreter

end OperatorScript
