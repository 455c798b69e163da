import OperatorScript.Proofs.PlainText
import OperatorScript.Proofs.Reaching

/-!
The built-in modifier in front of a script.

The modifier stays in front of what the script becomes, so the statement gains the modifier and is
otherwise read as it was. The main statement: with the modifier a script does what it does without,
except that `arg` reports the modifier and the permission that it chose.
-/

set_option autoImplicit false
set_option relaxedAutoImplicit false

namespace OperatorScript

open Json

namespace Span

private theorem scanFrom_append_of_no_letter {cs : List Char} (plain : 'n' ∉ cs)
    (rest : List Char) :
    scanFrom none (cs ++ rest) = cs.map Piece.char ++ scanFrom none rest := by
  induction cs with
  | nil => rfl
  | cons c cs ih =>
    obtain ⟨ne, later⟩ := List.ne_and_not_mem_of_not_mem_cons plain
    rw [List.cons_append, scanFrom, ih later]
    · rfl
    · rintro rest rfl
      exact absurd rfl ne

end Span

private theorem Placeholder.fill_append {plain : String} (percent : '%' ∉ plain.toList)
    (script : String) (m : Message) : fill (plain ++ script) m = plain ++ fill script m := by
  rw [fill, String.toList_append, scan, scanFrom_append_of_no_percent percent, List.flatMap_append,
    flatMap_render_map_char, String.ofList_append, String.ofList_toList, fill, scan]

private theorem Expansion.ofPieces_append_chars {evaluate : String → State → Run} (cs : List Char)
    (pieces : List Span.Piece) (s : State) :
    ofPieces evaluate (cs.map Span.Piece.char ++ pieces) s =
      { ofPieces evaluate pieces s with text := cs ++ (ofPieces evaluate pieces s).text } := by
  induction cs with
  | nil => rfl
  | cons c cs ih =>
    rw [List.map_cons, List.cons_append, ofPieces, ih]
    rfl

private theorem Interpreter.expansion_append (i : Interpreter) (m : Message) (levels : Nat)
    {plain : String}
    (percent : '%' ∉ plain.toList) (letter : 'n' ∉ plain.toList) (script : String) (s : State) :
    i.expansion m levels (plain ++ script) s =
      { i.expansion m levels script s with
        text := plain.toList ++ (i.expansion m levels script s).text } := by
  simp only [expansion, Expansion.ofScript, Placeholder.fill_append percent, String.toList_append,
    Span.scan, Span.scanFrom_append_of_no_letter letter, Expansion.ofPieces_append_chars]

namespace Text

private theorem cutChars?_append_left {c : Char} {sep before cs front back : List Char}
    (absent : c ∉ before) (cut : cutChars? (c :: sep) cs = some (front, back)) :
    cutChars? (c :: sep) (before ++ cs) = some (before ++ front, back) := by
  induction before with
  | nil => exact cut
  | cons d before ih =>
    obtain ⟨ne, later⟩ := List.ne_and_not_mem_of_not_mem_cons absent
    have unread : (c :: sep).isPrefixOf (d :: (before ++ cs)) = false := by
      simp [List.isPrefixOf, ne]
    rw [List.cons_append, cutChars?, unread, ih later]
    rfl

private theorem cut?_append_left {sep before text front back : String} {c : Char} {cs : List Char}
    (starts : sep.toList = c :: cs) (absent : c ∉ before.toList)
    (cut : cut? sep text = some (front, back)) :
    cut? sep (before ++ text) = some (before ++ front, back) := by
  rw [cut?, starts] at cut ⊢
  obtain ⟨⟨first, last⟩, found, parts⟩ := Option.map_eq_some_iff.mp cut
  obtain ⟨rfl, rfl⟩ := Prod.mk.inj parts
  rw [String.toList_append, cutChars?_append_left absent found]
  simp only [Option.map_some, String.ofList_append, String.ofList_toList]

end Text

private theorem Statement.read_append {text head rest word modifier : String}
    (cut : Text.cut? "::" text = some (head, rest)) (words : Text.words head = [word])
    (isWord : Text.IsWord modifier) (colon : ':' ∉ modifier.toList) (m : Message) :
    ∃ target tail,
      read text m = .ok { modifier := none, command := word, target, tail } ∧
      read (modifier ++ " " ++ text) m =
        .ok { modifier := some modifier, command := word, target, tail } := by
  have colon' : ':' ∉ (modifier ++ " ").toList := by simp [colon]
  have parted : Text.cut? "::" (modifier ++ " " ++ text) = some (modifier ++ " " ++ head, rest) :=
    Text.cut?_append_left rfl colon' cut
  let ends := (Text.cut? " " rest).getD (rest, "")
  refine ⟨resolve m ends.1, ends.2, ?_, ?_⟩
  · simp only [read, cut, words, headOfWords, ends]
  · simp only [read, parted, isWord.words_append, words, headOfWords, ends]

def Context.raised (c : Context) : Context :=
  { c with
    modifier := some Command.rise.name
    permission := if c.authorIsAdmin then .rise else .strict }

private theorem Context.raised_active_allowsTarget (c : Context) :
    c.raised.active.allowsTarget = (c.authorIsAdmin || c.author == c.target) := by
  cases admin : c.authorIsAdmin <;>
    simp [raised, active, Predicate.allowsTarget, Predicate.allows, Predicate.isWidened, admin]

private theorem Context.active_allowsTarget_of_strict {c : Context}
    (strict : c.permission = .strict) :
    c.active.allowsTarget = (c.author == c.target) := by
  simp [active, Predicate.allowsTarget, Predicate.allows, Predicate.isWidened, strict]

namespace Command

private theorem IsBuiltin.body_raised {command : Command} (builtin : command.IsBuiltin)
    (other : command.name ≠ Command.arg.name) (c : Context) :
    command.body c.raised = command.body c := by
  cases builtin with
  | arg => exact absurd rfl other
  | set owner => cases owner <;> rfl
  | get owner => cases owner <;> rfl
  | increment owner => cases owner <;> rfl
  | _ => rfl

private theorem conclusion_arg (mode : Mode) (c : Context) (outage : Outage) (s : State) :
    Conclusion.ofCommand mode c ((arg.body c).run outage s) =
      { evaluation := { status := .success, result := (statementReport c).pretty }
        sent := [(statementReport c).pretty]
        ran := some c
        state := s } := by
  cases mode <;> rfl

def permissionMembers : List String := ["nsxMod", "permission", "isAllowed"]

private theorem get?_statementReport_raised {key : String} (other : key ∉ permissionMembers)
    (c : Context) : (statementReport c.raised).get? [key] = (statementReport c).get? [key] := by
  simp only [permissionMembers, List.mem_cons, List.not_mem_nil, or_false, not_or] at other
  simp [statementReport, Value.get?, Value.child?, Dict.ofEntries, Dict.merge, Dict.get?_insert,
    other, Context.raised]

private theorem get?_statementReport_isAllowed (c : Context) :
    (statementReport c).get? ["isAllowed"] = some (.bool c.active.allowsTarget) := by
  simp [statementReport, Value.get?, Value.child?, Dict.ofEntries, Dict.merge, Dict.get?_insert]

end Command

def Expansion.raised (x : Expansion) : Expansion := { x with text := "rise ".toList ++ x.text }

/-- What a script has become is split with a command and no modifier: its spans have succeeded, and
one word stands before the first separator. -/
structure Expansion.HasSoleWord (x : Expansion) (word : String) : Prop where
  spans : x.failures = []
  split : ∃ head rest, Text.cut? "::" (String.ofList x.text) = some (head, rest) ∧
    Text.words head = [word]

private theorem Expansion.HasSoleWord.asks {x : Expansion} {word : String}
    (sole : x.HasSoleWord word) (m : Message) :
    ∃ st : Statement, (st.modifier = none ∧ st.command = word) ∧ x.Asks m st ∧
      x.raised.Asks m { st with modifier := some Command.rise.name } := by
  obtain ⟨spans, head, rest, cut, words⟩ := sole
  have isWord : Text.IsWord "rise" := by decide +kernel
  obtain ⟨target, tail, plain, risen⟩ :=
    Statement.read_append cut words isWord (by decide +kernel) m
  have text : String.ofList x.raised.text = "rise" ++ " " ++ String.ofList x.text := by
    rw [raised, String.ofList_append, String.ofList_toList]
    rfl
  exact ⟨_, ⟨rfl, rfl⟩, ⟨spans, plain, .inl rfl⟩, ⟨spans, text ▸ risen, .inr rfl⟩⟩

namespace Interpreter

private theorem expansion_rise (i : Interpreter) (m : Message) (levels : Nat) (script : String)
    (s : State) :
    i.expansion m levels ("rise " ++ script) s = (i.expansion m levels script s).raised :=
  i.expansion_append m levels (by decide +kernel) (by decide +kernel) script s

private theorem reached_rise (i : Interpreter) (m : Message) (st : Statement) (s : State) :
    i.reached m { st with modifier := some Command.rise.name } s = (i.reached m st s).raised := rfl

section Builtin

variable {i : Interpreter} (builtin : i.catalog = .builtin)

include builtin

private theorem command_raised {c : Context} (other : c.name ≠ Command.arg.name) (s : State) :
    let risen := i.command c.raised s
    let plain := i.command c s
    (risen.1.status = plain.1.status ∧ ∀ mode, risen.1.deliver mode = plain.1.deliver mode) ∧
      risen.2 = plain.2 := by
  intro risen plain
  cases found : i.catalog.command? c.name with
  | none =>
    have unknown : plain = (.unknownCommand c.name, s) := command_of_unknown found s
    have unknown' : risen = (.unknownCommand c.name, s) :=
      command_of_unknown (c := c.raised) found s
    rw [unknown, unknown']
    exact ⟨⟨rfl, fun _ => rfl⟩, rfl⟩
  | some command =>
    have ran : plain = i.ranIn c command s := command_of_found found s
    have ran' : risen = i.ranIn c.raised command s := command_of_found (c := c.raised) found s
    rw [builtin] at found
    obtain ⟨isBuiltin, named⟩ := Catalog.isBuiltin_of_command? found
    rw [← named] at other
    rw [ran, ran', ranIn, ranIn, isBuiltin.body_raised other]
    refine ⟨⟨?_, fun _ => rfl⟩, rfl⟩
    cases ((command.body c).run i.outage s).result <;> rfl

section Evaluate

variable {m : Message} {mode : Mode} {levels : Nat} {script word : String} {s : State}
  {x : Expansion} (expanded : i.expansion m levels script s = x) (sole : x.HasSoleWord word)
  {r r' : Run} (evaluated : i.evaluate m mode (levels + 1) script s = r)
  (evaluated' : i.evaluate m mode (levels + 1) ("rise " ++ script) s = r')

include expanded sole evaluated evaluated'

private theorem evaluate_rise_of_ne_arg (other : word ≠ Command.arg.name) :
    r'.evaluation = r.evaluation ∧ r'.sent = r.sent ∧ r'.stop = r.stop := by
  obtain ⟨st, ⟨-, named⟩, asks, asks'⟩ := sole.asks m
  have expanded' : i.expansion m levels ("rise " ++ script) s = x.raised := by
    rw [expansion_rise, expanded]
  have plain : i.finish m x = _ := finish_of_asks builtin asks
  have risen : i.finish m x.raised = i.command (i.reached m st x.state).raised x.state :=
    finish_of_asks builtin asks'
  rw [← named] at other
  obtain ⟨⟨status, deliver⟩, stop⟩ :=
    command_raised builtin (c := i.reached m st x.state) other x.state
  rw [← plain, ← risen] at status deliver stop
  rw [← evaluated, ← evaluated']
  simp only [Run.evaluation, Run.sent, ending_evaluate_succ, delivery_evaluate_succ,
    stop_evaluate_succ, expanded, expanded', status, deliver, stop, and_self]

private theorem evaluate_rise_of_arg (arg : word = Command.arg.name) :
    ∃ st : Statement,
      Statement.read (String.ofList x.text) m = .ok st ∧ st.modifier = none ∧
      let c := i.reached m st x.state
      r.conclusion =
        { evaluation := { status := .success, result := (Command.statementReport c).pretty }
          sent := [(Command.statementReport c).pretty]
          ran := some c
          state := x.state } ∧
      r'.conclusion =
        { evaluation := { status := .success, result := (Command.statementReport c.raised).pretty }
          sent := [(Command.statementReport c.raised).pretty]
          ran := some c.raised
          state := x.state } := by
  obtain ⟨st, ⟨unmodified, named⟩, asks, asks'⟩ := sole.asks m
  have expanded' : i.expansion m levels ("rise " ++ script) s = x.raised := by
    rw [expansion_rise, expanded]
  have command : st.command = Command.arg.name := named.trans arg
  have plain := conclusion_of_asks builtin expanded asks .arg command evaluated
  have risen := conclusion_of_asks builtin expanded' asks' .arg command evaluated'
  rw [Command.conclusion_arg] at plain
  rw [Command.conclusion_arg, reached_rise] at risen
  exact ⟨st, asks.read, unmodified, plain, risen⟩

end Evaluate

end Builtin

/-- The built-in modifier in front of a script changes nothing but the report of `arg`. Where the
spans of the script succeed and one word stands before the first separator of what it becomes,
the script ends alike with the modifier and without, whoever sends it: with the same status, the
same result, the same chunks delivered, and in the same state. If the word is `arg`, the reports
agree but for what they tell of the modifier and of the permission: that a sender is allowed to act
on the record of another is reported only with the modifier, and only to an administrator. -/
theorem rise_only_reported (settings : Settings) (outage : Outage) (m : Message) (mode : Mode)
    (levels : Nat) (script word : String) (s : State) :
    let i : Interpreter := { settings, outage }
    let x := i.expansion m levels script s
    let plain := i.evaluate m mode (levels + 1) script s
    let risen := i.evaluate m mode (levels + 1) ("rise " ++ script) s
    x.HasSoleWord word →
      (word ≠ "arg" → risen.evaluation = plain.evaluation ∧ risen.sent = plain.sent ∧
        risen.stop = plain.stop) ∧
      (word = "arg" →
        (risen.evaluation.status = plain.evaluation.status ∧ risen.stop = plain.stop) ∧
        ∃ report report' : Value,
          (plain.evaluation.result = report.pretty ∧ plain.sent = [report.pretty]) ∧
          (risen.evaluation.result = report'.pretty ∧ risen.sent = [report'.pretty]) ∧
          (∀ key, key ∉ Command.permissionMembers → report'.get? [key] = report.get? [key]) ∧
          ∃ st, Statement.read (String.ofList x.text) m = .ok st ∧
            report.get? ["isAllowed"] = some (.bool (m.sender == st.target)) ∧
            report'.get? ["isAllowed"] =
              some (.bool (x.state.world.isAdmin m.sender || m.sender == st.target))) := by
  intro i x plain risen sole
  have builtin : i.catalog = .builtin := rfl
  have expanded : i.expansion m levels script s = x := rfl
  have evaluated : i.evaluate m mode (levels + 1) script s = plain := rfl
  have evaluated' : i.evaluate m mode (levels + 1) ("rise " ++ script) s = risen := rfl
  clear_value x plain risen
  refine ⟨evaluate_rise_of_ne_arg builtin expanded sole evaluated evaluated', fun arg => ?_⟩
  obtain ⟨st, read, unmodified, ended, ended'⟩ :=
    evaluate_rise_of_arg builtin expanded sole evaluated evaluated' arg
  simp only [Run.conclusion, Conclusion.mk.injEq] at ended ended'
  obtain ⟨evaluation, sent, -, stop⟩ := ended
  obtain ⟨evaluation', sent', -, stop'⟩ := ended'
  have strict : (i.reached m st x.state).permission = .strict := by
    simp [reached, context, Statement.permission, unmodified]
  refine ⟨⟨by rw [evaluation, evaluation'], by rw [stop, stop']⟩, _, _,
    ⟨by rw [evaluation], sent⟩, ⟨by rw [evaluation'], sent'⟩,
    fun key other => Command.get?_statementReport_raised other _, st, read, ?_, ?_⟩
  · rw [Command.get?_statementReport_isAllowed, Context.active_allowsTarget_of_strict strict]
    rfl
  · rw [Command.get?_statementReport_isAllowed, Context.raised_active_allowsTarget]
    rfl

theorem rise_only_reported_of_foreign_record :
    let s : State :=
      { world := { users := [("5", [("gold", .ofInt 3)])], roles := .ofLists ["1"] [] } }
    let m : Message := { sender := "1" }
    let ofGet := "uget::5 neax[print::self gold]"
    let ofArg := " arg::neax[print::self 5]"
    let run (script : String) : Run :=
      ({} : Interpreter).evaluate m .streaming (maxInlineDepth + 1) script s
    ((({} : Interpreter).expansion m maxInlineDepth ofGet s).HasSoleWord "uget" ∧
      (({} : Interpreter).expansion m maxInlineDepth ofArg s).HasSoleWord "arg") ∧
    ((run ("rise " ++ ofGet)).evaluation = (run ofGet).evaluation ∧
      (run ofGet).evaluation.status = .success) ∧
    ∃ report report' : Value,
      ((run ofArg).evaluation.result = report.pretty ∧
        (run ("rise " ++ ofArg)).evaluation.result = report'.pretty) ∧
      report.get? ["isAllowed"] = some (.bool false) ∧
        report'.get? ["isAllowed"] = some (.bool true) := by
  intro s m ofGet ofArg run
  have shows : (({} : Interpreter).expansion m maxInlineDepth ofGet s).HasSoleWord "uget" :=
    ⟨by decide +kernel, "uget", "5 gold", by decide +kernel, by decide +kernel⟩
  have reports : (({} : Interpreter).expansion m maxInlineDepth ofArg s).HasSoleWord "arg" :=
    ⟨by decide +kernel, " arg", "5", by decide +kernel, by decide +kernel⟩
  have shown := (rise_only_reported {} .none m .streaming maxInlineDepth ofGet "uget" s shows).1
    (by decide)
  obtain ⟨-, report, report', ⟨result, -⟩, ⟨result', -⟩, -, st, read, denied, allowed⟩ :=
    (rise_only_reported {} .none m .streaming maxInlineDepth ofArg "arg" s reports).2 rfl
  have target : st.target = "5" := by
    have again : (Statement.read
        (String.ofList (({} : Interpreter).expansion m maxInlineDepth ofArg s).text)
          m).toOption.map Statement.target = some "5" := by decide +kernel
    rw [read] at again
    exact Option.some.inj again
  have admin : (({} : Interpreter).expansion m maxInlineDepth ofArg s).state.world.isAdmin
      m.sender = true := by decide +kernel
  rw [target] at denied
  rw [admin] at allowed
  exact ⟨⟨shows, reports⟩, ⟨shown.1, by decide +kernel⟩, report, report', ⟨result, result'⟩, denied,
    allowed⟩

end Interpreter

end OperatorScript
