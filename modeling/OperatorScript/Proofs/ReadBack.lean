import OperatorScript.Proofs.PlainText

/-!
Reading back what was set.

A property that names a key is written below the member that its first key names, and reading it
asks for this member only. The main statement: a value that an administrator set is what the
administrator gets. A property without keys is an exception: setting it succeeds and writes nothing.
-/

set_option autoImplicit false
set_option relaxedAutoImplicit false

namespace OperatorScript

open Json

private theorem World.read_write_self {key : String} (single : dottedKeys key = [key]) (w : World)
    (scope : Scope) (id : String) (item : Value) :
    (w.write scope id [(key, item)]).read scope id (.path key) = [(key, item)] := by
  have written : (Dict.insert key item ((w.table scope).record id)).get? key = some item :=
    Dict.get?_insert_self _ _ _
  simp only [read, Part.of, Record.pick_of_dottedKeys single, write, table_withTable_self,
    Table.record_write_self, Dict.merge, List.foldl_cons, List.foldl_nil, written]
  rfl

theorem World.get?_read_write_self (w : World) (scope : Scope) (id key : String)
    (rest : List String) (item : Value) :
    (Value.obj ((w.write scope id [(key, item)]).read scope id .whole)).get? (key :: rest) =
      item.get? rest := by
  have written : (Dict.insert key item ((w.table scope).record id)).get? key = some item :=
    Dict.get?_insert_self _ _ _
  simp only [read, Part.of, write, table_withTable_self, Table.record_write_self, Dict.merge,
    List.foldl_cons, List.foldl_nil, Value.get?, Value.child?, written, Option.bind_some]

namespace Command

def setScript (owner : Owner) (target property json : String) : String :=
  Statement.write none (set owner).name target (property ++ " " ++ json)

def getScript (owner : Owner) (target property : String) : String :=
  Statement.write none (get owner).name target (property ++ " --json --raw")

/-- The parts of a statement that sets a property, in which nothing is put in and nothing is
evaluated: a target that is there, a property of one word that is no flag, and any text. -/
structure PayloadParts (owner : Owner) (m : Message) (target property json : String) : Prop where
  spaceless : ' ' ∉ target.toList
  named : Statement.resolve m target ≠ ""
  word : Text.IsWord property
  unflagged : ArgList.isFlag property = false
  plain : PlainScript (setScript owner target property json)

private theorem PayloadParts.read_eq {owner : Owner} {m : Message} {target property json : String}
    (parts : PayloadParts owner m target property json) :
    Statement.read (setScript owner target property json) m =
      .ok { modifier := none, command := (set owner).name, target := Statement.resolve m target
            tail := property ++ " " ++ json } := by
  have word : Text.IsWord (set owner).name := by cases owner <;> decide +kernel
  have colon : ':' ∉ (set owner).name.toList := by cases owner <;> decide
  have filled : property ++ " " ++ json ≠ "" := by
    intro empty
    rw [String.append_assoc] at empty
    exact parts.word.filled (String.append_eq_empty_iff.mp empty).1
  exact Statement.read_write m word colon parts.spaceless filled

/-- The parts of a plain statement that sets a property: a target that stands for itself, a property
of one word, and a JSON text, without flags. -/
structure SetParts (owner : Owner) (target property json : String) : Prop where
  named : target ≠ ""
  spaceless : ' ' ∉ target.toList
  notSelf : target ≠ "self"
  notReplied : target ≠ "replied"
  word : Text.IsWord property
  unflagged : ArgList.isFlag property = false
  noFlag : ∀ word ∈ Text.words json, ArgList.isFlag word = false
  plain : PlainScript (setScript owner target property json)

variable {owner : Owner} {c : Context} {s : State} {property key : String} {rest : List String}

private theorem run_writePath (scope : Scope) (id key : String) (rest : List String) (value : Value)
    (s : State) :
    ∃ item accesses, item.get? rest = some value ∧
      (Procedure.writePath scope id (key :: rest) value : Procedure String Unit).run .none s =
        { chunks := [], result := .ok ()
          state := { world := s.world.write scope id [(key, item)], accesses } } := by
  cases rest with
  | nil => exact ⟨value, _, rfl, rfl⟩
  | cons next rest => exact ⟨_, _, Value.get?_set_self value (next :: rest) _, rfl⟩

private theorem exists_read_of_set
    (succeeded : (((set owner).body c).run .none s).result = .ok .success) :
    ∃ value, Value.read (c.args.rest 1) = .ok value := by
  have stopped {text : String} {status : Status}
      (result : ((Procedure.stop text status).run .none s).result = .ok .success)
      (failed : status ≠ .success) : ∃ value, Value.read (c.args.rest 1) = .ok value :=
    (failed (Except.ok.inj result)).elim
  unfold set at succeeded
  dsimp only at succeeded
  split at succeeded
  · exact stopped succeeded (by decide)
  split at succeeded
  · exact stopped succeeded (by decide)
  split at succeeded
  · exact stopped succeeded (by decide)
  split at succeeded
  · exact stopped succeeded (by decide)
  · next value read => exact ⟨value, read⟩

private theorem run_set (named : c.target ≠ "") (admin : c.authorIsAdmin = true)
    (given : c.args.arg? 0 = some property) {value : Value}
    (read : Value.read (c.args.rest 1) = .ok value) (keys : pathKeys [property] = key :: rest) :
    ∃ item accesses, item.get? rest = some value ∧
      ((set owner).body c).run .none s =
        { chunks := ["Set success [" ++ c.target ++ "]", (Value.obj [(property, value)]).pretty]
          result := .ok .success
          state := { world := s.world.write owner.scope c.target [(key, item)], accesses } } := by
  have follows : c.args.rest 1 ≠ "" := by
    intro empty
    have nothing : (Value.read "").toOption = none := by decide +kernel
    rw [empty] at read
    rw [read] at nothing
    cases nothing
  have found : namedProperty? c.args = some property := by
    simp [namedProperty?, given, follows]
  obtain ⟨item, accesses, holds, written⟩ := run_writePath owner.scope c.target key rest value s
  refine ⟨item, accesses, holds, ?_⟩
  unfold set
  simp only [found, read, keys]
  rw [if_neg (by simpa using named), if_neg (by simp [admin]), Procedure.bind_eq,
    Procedure.run_bind, written]
  rfl

private theorem run_get (named : c.target ≠ "") (admin : c.authorIsAdmin = true)
    (args : c.args.args = [property]) (part : c.args.hasFlag "all" = false)
    (json : c.args.hasFlag "json" = true) (raw : c.args.hasFlag "raw" = true)
    (keys : pathKeys [property] = key :: rest) {item value : Value}
    (stored : s.world.read owner.scope c.target (.path key) = [(key, item)])
    (holds : item.get? rest = some value) :
    ((get owner).body c).run .none s =
      { chunks := [value.pretty], result := .ok .success, state := s.tick } := by
  have allowed : c.risen.allowsTarget = true := c.risen_allowsTarget.mpr (.inl admin)
  have found : (Value.obj [(key, item)]).get? (key :: rest) = some value := by
    simpa [Value.get?, Value.child?, Dict.get?] using holds
  have read : (readFor owner.scope c.target false (key :: rest)).run .none s =
      { chunks := [], result := .ok [(key, item)], state := s.tick } := by
    rw [← stored]
    rfl
  unfold get
  simp only [args, part, keys]
  rw [if_neg (by simpa using named), if_neg (by simp), if_neg (by simp [allowed]),
    Procedure.bind_eq, Procedure.run_bind, read]
  simp only [found, Option.getD_some, itemHeader, itemText, raw, json, if_true]
  rfl

end Command

namespace ArgList

private theorem read_asked {property : String} (word : Text.IsWord property)
    (unflagged : isFlag property = false) :
    read (property ++ " --json --raw") =
      ofTokens [.argument property, .flag "--json" none, .flag "--raw" none] := by
  have tail : property ++ " --json --raw" = property ++ " " ++ "--json --raw" := by
    rw [String.append_assoc]
    rfl
  have flags : Text.words "--json --raw" = ["--json", "--raw"] := by decide +kernel
  have first : isFlag "--json" = true := by decide +kernel
  have second : isFlag "--raw" = true := by decide +kernel
  rw [read, tail, word.words_append, flags]
  simp [tokens, unflagged, first, second]

end ArgList

namespace Command.SetParts

variable {owner : Owner} {target property json : String}
  (parts : SetParts owner target property json)

include parts

private theorem resolve_eq (m : Message) : Statement.resolve m target = target := by
  rw [Statement.resolve, if_neg parts.notSelf, if_neg parts.notReplied]

private theorem append_ne {tail : String} : property ++ tail ≠ "" := by
  intro empty
  exact parts.word.filled (String.append_eq_empty_iff.mp empty).1

private theorem payload (m : Message) : PayloadParts owner m target property json where
  spaceless := parts.spaceless
  named := by
    rw [parts.resolve_eq m]
    exact parts.named
  word := parts.word
  unflagged := parts.unflagged
  plain := parts.plain

private theorem read_getScript (m : Message) : Statement.read (getScript owner target property) m =
    .ok { modifier := none, command := (get owner).name, target
          tail := property ++ " --json --raw" } := by
  have word : Text.IsWord (get owner).name := by cases owner <;> decide +kernel
  have colon : ':' ∉ (get owner).name.toList := by cases owner <;> decide
  rw [getScript, Statement.read_write m word colon parts.spaceless parts.append_ne,
    parts.resolve_eq m]

private theorem plain_getScript : PlainScript (getScript owner target property) := by
  have text : (setScript owner target property json).toList =
      ((set owner).name.toList ++ [':', ':']) ++ (target.toList ++ ' ' :: property.toList) ++
        ' ' :: json.toList := by
    have filled : property ++ " " ++ json ≠ "" := by
      rw [String.append_assoc]
      exact parts.append_ne
    simp [setScript, Statement.write, filled]
  have text' : (getScript owner target property).toList =
      ((get owner).name.toList ++ [':', ':']) ++ (target.toList ++ ' ' :: property.toList) ++
        ' ' :: "--json --raw".toList := by
    simp [getScript, Statement.write, parts.append_ne]
  refine parts.plain.exchange text text' ?_ ?_ ?_ (by decide) (by decide)
  · cases owner <;> decide
  · cases owner <;> decide
  · cases owner <;> decide

end Command.SetParts

namespace Interpreter

open Command

variable {i : Interpreter} {m : Message} {mode : Mode} {owner : Owner} {s : State}
  {target property json key : String} {rest : List String}

private theorem eq_success_of_statusOf {result : Except Fault Status}
    (succeeded : Conclusion.statusOf result = .success) : result = .ok .success := by
  cases result with
  | ok status => exact congrArg Except.ok succeeded
  | error fault => cases succeeded

section Builtin

variable (builtin : i.catalog = .builtin) (intact : i.outage = .none)

include builtin intact

private theorem conclusion_of_payload (parts : PayloadParts owner m target property json) {r : Run}
    (evaluated : i.run m mode (setScript owner target property json) s = r) :
    ∃ c : Context, c.target = Statement.resolve m target ∧
      c.authorIsAdmin = s.world.isAdmin m.sender ∧ c.args.arg? 0 = some property ∧
      c.args.rest 1 = Text.join " " (ArgList.positional (Text.words json)) ∧
      r.conclusion = .ofCommand mode c (((Command.set owner).body c).run .none s) := by
  have found : i.catalog.command? (Command.set owner).name = some (Command.set owner) := by
    rw [builtin]
    cases owner <;> rfl
  have concluded := conclusion_of_plain parts.plain parts.read_eq rfl found mode s
  rw [evaluated, intact] at concluded
  have args := ArgList.args_read_cons parts.word parts.unflagged json
  refine ⟨_, rfl, rfl, ?_, ?_, concluded⟩
  · rw [ArgList.arg?]
    exact congrArg (·[0]?) args
  · rw [ArgList.rest]
    exact congrArg (fun args => Text.join " " (args.drop 1)) args

theorem exists_read_of_payload (parts : PayloadParts owner m target property json) {r : Run}
    (evaluated : i.run m mode (setScript owner target property json) s = r)
    (succeeded : r.evaluation.status = .success) :
    ∃ value, Value.read (Text.join " " (ArgList.positional (Text.words json))) = .ok value := by
  obtain ⟨c, -, -, -, text, concluded⟩ := conclusion_of_payload builtin intact parts evaluated
  have status : Conclusion.statusOf (((Command.set owner).body c).run .none s).result =
      .success := by
    rw [← succeeded]
    exact congrArg (fun d => d.evaluation.status) concluded.symm
  rw [← text]
  exact exists_read_of_set (eq_success_of_statusOf status)

theorem run_payload (parts : PayloadParts owner m target property json)
    (admin : s.world.isAdmin m.sender = true) {value : Value}
    (read : Value.read (Text.join " " (ArgList.positional (Text.words json))) = .ok value)
    (keys : pathKeys [property] = key :: rest) {r : Run}
    (evaluated : i.run m mode (setScript owner target property json) s = r) :
    ∃ item accesses, item.get? rest = some value ∧
      r.evaluation =
        { status := .success
          result := Text.join "\n"
            ["Set success [" ++ Statement.resolve m target ++ "]",
              (Value.obj [(property, value)]).pretty] } ∧
      r.stop =
        { world := s.world.write owner.scope (Statement.resolve m target) [(key, item)]
          accesses } := by
  obtain ⟨c, goal, ranked, given, text, concluded⟩ :=
    conclusion_of_payload builtin intact parts evaluated
  rw [← goal]
  rw [← text] at read
  have named : c.target ≠ "" := by
    rw [goal]
    exact parts.named
  obtain ⟨item, accesses, holds, run⟩ := run_set named (ranked.trans admin) given read keys
  rw [run] at concluded
  exact ⟨item, accesses, holds, congrArg Conclusion.evaluation concluded,
    congrArg Conclusion.state concluded⟩

variable (parts : SetParts owner target property json)

include parts

private theorem exists_read_of_setScript {r : Run}
    (evaluated : i.run m mode (setScript owner target property json) s = r)
    (succeeded : r.evaluation.status = .success) :
    ∃ value, Value.read (Text.join " " (Text.words json)) = .ok value := by
  rw [← ArgList.positional_of_no_flag parts.noFlag]
  exact exists_read_of_payload builtin intact (parts.payload m) evaluated succeeded

private theorem run_setScript (admin : s.world.isAdmin m.sender = true) {value : Value}
    (read : Value.read (Text.join " " (Text.words json)) = .ok value)
    (keys : pathKeys [property] = key :: rest) {r : Run}
    (evaluated : i.run m mode (setScript owner target property json) s = r) :
    ∃ item accesses, item.get? rest = some value ∧
      r.evaluation =
        { status := .success
          result := Text.join "\n"
            ["Set success [" ++ target ++ "]", (Value.obj [(property, value)]).pretty] } ∧
      r.stop = { world := s.world.write owner.scope target [(key, item)], accesses } := by
  rw [← ArgList.positional_of_no_flag parts.noFlag] at read
  have run := run_payload builtin intact (parts.payload m) admin read keys evaluated
  rw [parts.resolve_eq m] at run
  exact run

private theorem run_getScript (keys : pathKeys [property] = key :: rest)
    (admin : s.world.isAdmin m.sender = true) {item value : Value}
    (stored : s.world.read owner.scope target (.path key) = [(key, item)])
    (holds : item.get? rest = some value) {r : Run}
    (evaluated : i.run m mode (getScript owner target property) s = r) :
    r.evaluation = { status := .success, result := value.pretty } := by
  have found : i.catalog.command? (Command.get owner).name = some (Command.get owner) := by
    rw [builtin]
    cases owner <;> rfl
  have concluded := conclusion_of_plain parts.plain_getScript (parts.read_getScript m) rfl found
    mode s
  rw [evaluated, intact] at concluded
  generalize context : i.context m _ s .strict = c at concluded
  have args : c.args = .ofTokens [.argument property, .flag "--json" none, .flag "--raw" none] := by
    rw [← context]
    exact ArgList.read_asked parts.word parts.unflagged
  have goal : c.target = target := by rw [← context]; rfl
  have ranked : c.authorIsAdmin = true := by
    rw [← context]
    exact admin
  have flags : c.args.hasFlag "all" = false ∧ c.args.hasFlag "json" = true ∧
      c.args.hasFlag "raw" = true := by
    rw [args]
    exact ⟨rfl, rfl, rfl⟩
  obtain ⟨part, json, raw⟩ := flags
  have shown : ((Command.get owner).body c).run .none s =
      { chunks := [value.pretty], result := .ok .success, state := s.tick } := by
    rw [← goal] at stored
    refine run_get ?_ ranked ?_ part json raw keys stored holds
    · rw [goal]
      exact parts.named
    · rw [args]
      rfl
  rw [shown] at concluded
  exact congrArg Conclusion.evaluation concluded

end Builtin

/-- Reading back what was set. If a property names a key, an administrator succeeds in setting it
exactly if a value can be read from the JSON text, and then gets the value that was confirmed. -/
theorem read_back (settings : Settings) (m : Message) (mode mode' : Mode) (s : State)
    (owner : Owner) {target property json : String} (admin : s.world.isAdmin m.sender = true)
    (parts : SetParts owner target property json) (keyed : pathKeys [property] ≠ []) :
    let i : Interpreter := { settings }
    let written := i.run m mode (setScript owner target property json) s
    let asked := i.run m mode' (getScript owner target property) written.stop
    let read := Value.read (Text.join " " (Text.words json))
    ((∃ value, read = .ok value) → written.evaluation.status = .success) ∧
    (written.evaluation.status = .success →
      ∃ value, read = .ok value ∧
        written.evaluation.result = Text.join "\n"
          ["Set success [" ++ target ++ "]", (Value.obj [(property, value)]).pretty] ∧
        asked.evaluation = { status := .success, result := value.pretty }) := by
  intro i written asked read
  obtain ⟨key, rest, keys⟩ := List.exists_cons_of_ne_nil keyed
  have single : dottedKeys key = [key] :=
    dottedKeys_of_mem_pathKeys (keys ▸ List.mem_cons_self)
  constructor
  · rintro ⟨value, found⟩
    obtain ⟨_, _, _, evaluation, _⟩ :=
      run_setScript (i := i) rfl rfl parts admin found keys (r := written) rfl
    rw [evaluation]
  · intro succeeded
    obtain ⟨value, found⟩ :=
      exists_read_of_setScript (i := i) rfl rfl parts (r := written) rfl succeeded
    obtain ⟨item, accesses, holds, evaluation, stop⟩ :=
      run_setScript (i := i) rfl rfl parts admin found keys (r := written) rfl
    refine ⟨value, found, congrArg Evaluation.result evaluation, ?_⟩
    have admin' : written.stop.world.isAdmin m.sender = true := by
      rw [stop, World.isAdmin, World.write, World.roles_withTable]
      exact admin
    have stored : written.stop.world.read owner.scope target (.path key) = [(key, item)] := by
      rw [stop]
      exact s.world.read_write_self single owner.scope target item
    exact run_getScript (i := i) rfl rfl parts keys admin' stored holds (r := asked) rfl

theorem read_back_of_item_of_array :
    let s : State :=
      { world :=
          { users := [("9", [("bank", .arr [.str "gold"])])], roles := .ofLists ["1"] [] } }
    let i : Interpreter := {}
    let m : Message := { sender := "1" }
    let written := i.run m .streaming (setScript .user "9" ".bank..1.left" "[1,  true]") s
    let asked := i.run m .buffered (getScript .user "9" ".bank..1.left") written.stop
    s.world.isAdmin m.sender = true ∧ SetParts .user "9" ".bank..1.left" "[1,  true]" ∧
    pathKeys [".bank..1.left"] ≠ [] ∧ written.evaluation.status = .success ∧
    ∃ value, Value.read "[1, true]" = .ok value ∧
      asked.evaluation = { status := .success, result := value.pretty } := by
  intro s i m written asked
  have admin : s.world.isAdmin m.sender = true := by decide +kernel
  have parts : SetParts .user "9" ".bank..1.left" "[1,  true]" :=
    { named := by decide
      spaceless := by decide
      notSelf := by decide
      notReplied := by decide
      word := by decide +kernel
      unflagged := by decide +kernel
      noFlag := by decide +kernel
      plain := by decide +kernel }
  have keyed : pathKeys [".bank..1.left"] ≠ [] := by decide +kernel
  have succeeded : written.evaluation.status = .success := by decide +kernel
  have joined : Text.join " " (Text.words "[1,  true]") = "[1, true]" := by decide +kernel
  obtain ⟨value, read, -, shown⟩ :=
    (read_back {} m .streaming .buffered s .user admin parts keyed).2 succeeded
  rw [joined] at read
  exact ⟨admin, parts, keyed, succeeded, value, read, shown⟩

/-- A property of dots alone names no key. Setting it succeeds and confirms the value, but nothing
is written, and it cannot be got. -/
theorem not_read_back_of_dots :
    let s : State := { world := { roles := .ofLists ["1"] [] } }
    let i : Interpreter := {}
    let m : Message := { sender := "1" }
    let written := i.run m .buffered (setScript .user "9" "." "5") s
    let asked := i.run m .buffered (getScript .user "9" ".") written.stop
    s.world.isAdmin m.sender = true ∧ SetParts .user "9" "." "5" ∧
    written.evaluation =
      { status := .success
        result := Text.join "\n" ["Set success [9]", (Value.obj [(".", .ofInt 5)]).pretty] } ∧
    written.stop.world.users = s.world.users ∧
    asked.evaluation.status = .missingOrInvalidArgs := by
  intro s i m written asked
  have parts : SetParts .user "9" "." "5" :=
    { named := by decide
      spaceless := by decide
      notSelf := by decide
      notReplied := by decide
      word := by decide +kernel
      unflagged := by decide +kernel
      noFlag := by decide +kernel
      plain := by decide +kernel }
  exact ⟨by decide +kernel, parts, by decide +kernel, by decide +kernel, by decide +kernel⟩

end Interpreter

end OperatorScript
