import OperatorScript.Proofs.Delivery

/-!
Stages: how an evaluation goes on when its spans have been evaluated.

The stages are given by rules. Each rule holds where all stages before its own have been passed, and
says what the evaluation comes to. The main statement: the rules and the interpreter agree, so just
one rule applies.
-/

set_option autoImplicit false
set_option relaxedAutoImplicit false

namespace OperatorScript

/-- What an evaluation comes to: its status and result, the strings it sent, the context in which
its command ran, if one ran, and the state it left. -/
structure Conclusion where
  evaluation : Evaluation
  sent : List String
  ran : Option Context
  state : State

namespace Conclusion

def early (status : Status) (text : String) (s : State) : Conclusion :=
  { evaluation := { status, result := text }, sent := [text], ran := none, state := s }

def statusOf : Except Fault Status → Status
  | .ok status => status
  | .error _ => .execError

/-- A command ran once: its output is what it emitted, and the text of its fault if it had one. -/
def ofCommand (mode : Mode) (c : Context) (o : Procedure.Outcome String Status) : Conclusion :=
  let output := o.chunks ++ Delivery.faultChunk o.result
  { evaluation := { status := statusOf o.result, result := Text.join "\n" output }
    sent :=
      match mode with
      | .streaming => output
      | .buffered => [Text.join "\n" output]
    ran := some c
    state := o.state }

end Conclusion

def Ending.context? : Ending → Option Context
  | .ran c _ _ => some c
  | _ => none

theorem Ending.exists_eq_ran_of_context? {e : Ending} {c : Context} (ran : e.context? = some c) :
    ∃ chunks result, e = .ran c chunks result := by
  cases e with
  | ran c' chunks result =>
    obtain rfl : c' = c := Option.some.inj ran
    exact ⟨chunks, result, rfl⟩
  | _ => cases ran

def Ending.conclude (mode : Mode) (e : Ending) (s : State) : Conclusion :=
  { evaluation := { status := e.status, result := (e.deliver mode).result }
    sent := (e.deliver mode).sent
    ran := e.context?
    state := s }

def Run.conclusion (r : Run) : Conclusion :=
  { evaluation := r.evaluation, sent := r.sent, ran := r.ending.context?, state := r.stop }

namespace Interpreter

/-- The modifier of a statement chooses a permission and leaves a state. A statement without a
modifier stays strict. -/
inductive Chooses (i : Interpreter) (c : Context) (s : State) : Permission → State → Prop
  | strict (plain : c.modifier = none) : Chooses i c s .strict s
  | chosen {name : String} {modifier : Modifier} {permission : Permission}
      (written : c.modifier = some name) (found : i.catalog.modifier? name = some modifier)
      (chosen : ((modifier.body c).run i.outage s).result = .ok permission) :
      Chooses i c s permission ((modifier.body c).run i.outage s).state

/-- The stages of an evaluation whose spans have been evaluated, in order. -/
inductive Concludes (i : Interpreter) (m : Message) (mode : Mode) (x : Expansion) :
    Conclusion → Prop
  | spansFailed (failed : x.failures ≠ []) :
      Concludes i m mode x (.early .malformedInput (issues x.failures) x.state)
  | noSeparator (spans : x.failures = []) (missing : ¬ [':', ':'] <:+: x.text) :
      Concludes i m mode x
        (.early .commandNotFound
          ("Neax::CommandNotFound = " ++ Text.trim (String.ofList x.text)) x.state)
  | unknownModifier {st : Statement} {name : String} (spans : x.failures = [])
      (read : Statement.read (String.ofList x.text) m = .ok st)
      (written : st.modifier = some name) (unknown : i.catalog.modifier? name = none) :
      Concludes i m mode x
        (.early .commandNotFound ("Neax::ModNotFound = " ++ name) x.state)
  | modifierFailed {st : Statement} {name : String} {modifier : Modifier} {fault : Fault}
      (spans : x.failures = []) (read : Statement.read (String.ofList x.text) m = .ok st)
      (written : st.modifier = some name) (found : i.catalog.modifier? name = some modifier)
      (failed : ((modifier.body (i.context m st x.state .strict)).run i.outage x.state).result =
        .error fault) :
      Concludes i m mode x
        (.early .execError fault.text
          ((modifier.body (i.context m st x.state .strict)).run i.outage x.state).state)
  | unknownCommand {st : Statement} {permission : Permission} {s : State}
      (spans : x.failures = []) (read : Statement.read (String.ofList x.text) m = .ok st)
      (chosen : i.Chooses (i.context m st x.state .strict) x.state permission s)
      (unknown : i.catalog.command? st.command = none) :
      Concludes i m mode x
        (.early .commandNotFound ("Neax::CommandNotFound = " ++ st.command) s)
  | ran {st : Statement} {permission : Permission} {s : State} {command : Command}
      (spans : x.failures = []) (read : Statement.read (String.ofList x.text) m = .ok st)
      (chosen : i.Chooses (i.context m st x.state .strict) x.state permission s)
      (found : i.catalog.command? st.command = some command) :
      Concludes i m mode x
        (.ofCommand mode (i.context m st x.state permission)
          ((command.body (i.context m st x.state permission)).run i.outage s))

variable {i : Interpreter} {m : Message} {mode : Mode} {x : Expansion}

theorem command_of_unknown {c : Context} (unknown : i.catalog.command? c.name = none) (s : State) :
    i.command c s = (.unknownCommand c.name, s) := by
  unfold Interpreter.command
  rw [unknown]

theorem command_of_found {c : Context} {command : Command}
    (found : i.catalog.command? c.name = some command) (s : State) :
    i.command c s = i.ranIn c command s := by
  unfold Interpreter.command
  rw [found]
  rfl

theorem statement_of_no_modifier {st : Statement} (plain : st.modifier = none) (s : State) :
    i.statement m st s = i.command (i.context m st s .strict) s := by
  unfold Interpreter.statement
  rw [plain]
  rfl

theorem statement_of_unknown_modifier {st : Statement} {name : String}
    (written : st.modifier = some name) (unknown : i.catalog.modifier? name = none) (s : State) :
    i.statement m st s = (.unknownModifier name, s) := by
  unfold Interpreter.statement
  simp only [written, unknown]

theorem statement_of_modifier {st : Statement} {name : String} {modifier : Modifier}
    (written : st.modifier = some name) (found : i.catalog.modifier? name = some modifier)
    (s : State) :
    i.statement m st s =
      let outcome := (modifier.body (i.context m st s .strict)).run i.outage s
      match outcome.result with
      | .error fault => (.modifierFailed fault, outcome.state)
      | .ok permission => i.command (i.context m st s permission) outcome.state := by
  unfold Interpreter.statement
  simp only [written, found]
  rfl

theorem statement_of_chooses {st : Statement} {s t : State} {permission : Permission}
    (chosen : i.Chooses (i.context m st s .strict) s permission t) :
    i.statement m st s = i.command (i.context m st s permission) t := by
  cases chosen with
  | strict plain => exact statement_of_no_modifier plain s
  | chosen written found chosen =>
    rw [statement_of_modifier written found]
    simp only [chosen]

private theorem statement_stages (st : Statement) (s : State) :
    (∃ name, st.modifier = some name ∧ i.catalog.modifier? name = none) ∨
      (∃ name modifier fault, st.modifier = some name ∧
        i.catalog.modifier? name = some modifier ∧
        ((modifier.body (i.context m st s .strict)).run i.outage s).result = .error fault) ∨
      ∃ permission t, i.Chooses (i.context m st s .strict) s permission t := by
  cases written : st.modifier with
  | none => exact .inr (.inr ⟨.strict, s, .strict written⟩)
  | some name =>
    cases found : i.catalog.modifier? name with
    | none => exact .inl ⟨name, rfl, found⟩
    | some modifier =>
      cases ended : ((modifier.body (i.context m st s .strict)).run i.outage s).result with
      | error fault => exact .inr (.inl ⟨name, modifier, fault, rfl, found, ended⟩)
      | ok permission => exact .inr (.inr ⟨permission, _, .chosen written found ended⟩)

theorem finish_of_read {st : Statement} (spans : x.failures = [])
    (read : Statement.read (String.ofList x.text) m = .ok st) :
    i.finish m x = i.statement m st x.state := by
  simp only [finish_of_no_failures i m spans, read]

theorem conclude_ranIn (c : Context) (command : Command) (s : State) :
    (i.ranIn c command s).1.conclude mode (i.ranIn c command s).2 =
      .ofCommand mode c ((command.body c).run i.outage s) := by
  simp only [ranIn, Ending.conclude, Conclusion.ofCommand, Ending.deliver, Ending.context?,
    Delivery.result, Delivery.chunks_ofCommand]
  cases mode with
  | streaming =>
    rw [Delivery.sent_ofCommand_streaming]
    cases ((command.body c).run i.outage s).result <;> rfl
  | buffered =>
    rw [Delivery.sent_ofCommand_buffered]
    cases ((command.body c).run i.outage s).result <;> rfl

private theorem eq_conclude_of_concludes {c : Conclusion} (concludes : i.Concludes m mode x c) :
    c = (i.finish m x).1.conclude mode (i.finish m x).2 := by
  cases concludes with
  | spansFailed failed =>
    rw [finish_of_failures i m failed]
    rfl
  | noSeparator spans missing =>
    have read : Statement.read (String.ofList x.text) m =
        .error (Text.trim (String.ofList x.text)) :=
      Statement.read_eq_error_iff.mpr ⟨by rwa [String.toList_ofList], rfl⟩
    simp only [finish_of_no_failures i m spans, read]
    rfl
  | unknownModifier spans read written unknown =>
    rw [finish_of_read spans read, statement_of_unknown_modifier written unknown]
    rfl
  | modifierFailed spans read written found failed =>
    rw [finish_of_read spans read, statement_of_modifier written found]
    simp only [failed]
    rfl
  | unknownCommand spans read chosen unknown =>
    rw [finish_of_read spans read, statement_of_chooses chosen, command_of_unknown unknown]
    rfl
  | ran spans read chosen found =>
    rw [finish_of_read spans read, statement_of_chooses chosen, command_of_found found]
    exact (conclude_ranIn _ _ _).symm

private theorem exists_concludes (i : Interpreter) (m : Message) (mode : Mode) (x : Expansion) :
    ∃ c, i.Concludes m mode x c := by
  by_cases spans : x.failures = []
  · cases read : Statement.read (String.ofList x.text) m with
    | error text =>
      have missing := (Statement.read_eq_error_iff.mp read).1
      rw [String.toList_ofList] at missing
      exact ⟨_, .noSeparator spans missing⟩
    | ok st =>
      rcases statement_stages (i := i) (m := m) st x.state with
        ⟨name, written, unknown⟩ | ⟨name, modifier, fault, written, found, failed⟩ |
          ⟨permission, s, chosen⟩
      · exact ⟨_, .unknownModifier spans read written unknown⟩
      · exact ⟨_, .modifierFailed spans read written found failed⟩
      · cases found : i.catalog.command? st.command with
        | none => exact ⟨_, .unknownCommand spans read chosen found⟩
        | some command => exact ⟨_, .ran spans read chosen found⟩
  · exact ⟨_, .spansFailed spans⟩

theorem concludes_iff {c : Conclusion} :
    i.Concludes m mode x c ↔ c = (i.finish m x).1.conclude mode (i.finish m x).2 := by
  constructor
  · exact eq_conclude_of_concludes
  · rintro rfl
    obtain ⟨c, concludes⟩ := exists_concludes i m mode x
    rw [← eq_conclude_of_concludes concludes]
    exact concludes

theorem exists_statement_of_context? {x : Expansion} {c : Context}
    (ran : (i.finish m x).1.context? = some c) :
    ∃ st, (∀ r ∈ x.runs, r.evaluation.status = .success) ∧
      Statement.read (String.ofList x.text) m = .ok st ∧
      c = i.context m st x.state c.permission := by
  obtain ⟨conclusion, concludes⟩ := exists_concludes i m .buffered x
  have known : conclusion.ran = some c := by
    rw [eq_conclude_of_concludes concludes]
    exact ran
  cases concludes with
  | ran spans read _ _ =>
    obtain rfl := Option.some.inj known
    refine ⟨_, fun r member => ?_, read, rfl⟩
    exact Decidable.byContradiction fun failed => Expansion.failures_ne_nil member failed spans
  | _ => cases known

private theorem state_of_chooses (builtin : i.catalog = .builtin) {c : Context}
    {permission : Permission} {s t : State} (chosen : i.Chooses c s permission t) : t = s := by
  cases chosen with
  | strict => rfl
  | chosen written found chosen =>
    rw [builtin] at found
    cases Catalog.eq_rise_of_modifier? found
    rfl

theorem Concludes.cases_of_command (builtin : i.catalog = .builtin) {st : Statement}
    (read : Statement.read (String.ofList x.text) m = .ok st) {command : Command}
    (known : i.catalog.command? st.command = some command) {c : Conclusion}
    (concludes : i.Concludes m mode x c) :
    c = .early .malformedInput (issues x.failures) x.state ∨
    (∃ name, c = .early .commandNotFound ("Neax::ModNotFound = " ++ name) x.state) ∨
    ∃ permission, c = .ofCommand mode (i.context m st x.state permission)
      ((command.body (i.context m st x.state permission)).run i.outage x.state) := by
  have same {other : Statement} (again : Statement.read (String.ofList x.text) m = .ok other) :
      st = other :=
    Except.ok.inj (read.symm.trans again)
  cases concludes with
  | spansFailed => exact .inl rfl
  | noSeparator spans missing =>
    have unread : Statement.read (String.ofList x.text) m =
        .error (Text.trim (String.ofList x.text)) :=
      Statement.read_eq_error_iff.mpr ⟨by rwa [String.toList_ofList], rfl⟩
    cases read.symm.trans unread
  | unknownModifier => exact .inr (.inl ⟨_, rfl⟩)
  | modifierFailed spans again written found failed =>
    rw [builtin] at found
    cases Catalog.eq_rise_of_modifier? found
    cases failed
  | unknownCommand spans again chosen unknown =>
    obtain rfl := same again
    cases known.symm.trans unknown
  | ran spans again chosen found =>
    obtain rfl := same again
    obtain rfl := Option.some.inj (known.symm.trans found)
    cases state_of_chooses builtin chosen
    exact .inr (.inr ⟨_, rfl⟩)

theorem conclusion_evaluate_succ (i : Interpreter) (m : Message) (mode : Mode) (levels : Nat)
    (script : String) (s : State) :
    (i.evaluate m mode (levels + 1) script s).conclusion =
      (i.finish m (i.expansion m levels script s)).1.conclude mode
        (i.finish m (i.expansion m levels script s)).2 := by
  rw [evaluate_succ]
  generalize i.finish m (i.expansion m levels script s) = finished
  rfl

end Interpreter

/-- The same names and manuals, with other bodies for the commands. -/
def Catalog.withBodies (c : Catalog) (bodies : Command → Context → Procedure String Status) :
    Catalog :=
  { c with commands := c.commands.map fun x => { x with body := bodies x } }

namespace Catalog

variable (c : Catalog) (bodies : Command → Context → Procedure String Status)

private theorem directory_withBodies : (c.withBodies bodies).directory = c.directory := by
  simp only [directory, withBodies, List.map_map]
  rfl

private theorem command?_withBodies (name : String) :
    (c.withBodies bodies).command? name =
      (c.command? name).map fun x => { x with body := bodies x } := by
  simp only [command?, withBodies, List.find?_map]
  rfl

end Catalog

namespace Interpreter

variable {i : Interpreter} {m : Message} {mode : Mode} {x : Expansion}

def withBodies (i : Interpreter) (bodies : Command → Context → Procedure String Status) :
    Interpreter :=
  { i with catalog := i.catalog.withBodies bodies }

section Bodies

variable (bodies : Command → Context → Procedure String Status)

private theorem context_withBodies (st : Statement) (s : State) (permission : Permission) :
    (i.withBodies bodies).context m st s permission = i.context m st s permission := by
  simp only [context, withBodies, Catalog.directory_withBodies]

private theorem Chooses.withBodies {c : Context} {s t : State} {permission : Permission}
    (chosen : i.Chooses c s permission t) : (i.withBodies bodies).Chooses c s permission t := by
  cases chosen with
  | strict plain => exact .strict plain
  | chosen written found chosen => exact .chosen (i := i.withBodies bodies) written found chosen

private theorem Concludes.withBodies {c : Conclusion} (concludes : i.Concludes m mode x c)
    (early : c.ran = none) : (i.withBodies bodies).Concludes m mode x c := by
  cases concludes with
  | spansFailed failed => exact .spansFailed failed
  | noSeparator spans missing => exact .noSeparator spans missing
  | unknownModifier spans read written unknown => exact .unknownModifier spans read written unknown
  | modifierFailed spans read written found failed =>
    rw [← context_withBodies bodies] at failed ⊢
    exact .modifierFailed (i := i.withBodies bodies) spans read written found failed
  | unknownCommand spans read chosen unknown =>
    rw [← context_withBodies bodies] at chosen
    refine .unknownCommand spans read (chosen.withBodies bodies) ?_
    rw [Interpreter.withBodies, Catalog.command?_withBodies, unknown]
    rfl
  | ran => cases early

end Bodies

/-- The stages of an evaluation, at any depth. Just one rule applies to an evaluation whose spans
have been evaluated, that of the first stage at which it can end, and it comes to what the rule
says. If that is before its command, it comes to the same with any other bodies of commands. -/
theorem staged_evaluation (i : Interpreter) (m : Message) (mode : Mode) (levels : Nat)
    (script : String) (s : State) :
    let x := i.expansion m levels script s
    let r := i.evaluate m mode (levels + 1) script s
    (r.spans = x.runs ∧ r.afterSpans = x.state) ∧
      (∀ c, i.Concludes m mode x c ↔ c = r.conclusion) ∧
      (r.conclusion.ran = none →
        ∀ bodies c, (i.withBodies bodies).Concludes m mode x c ↔ c = r.conclusion) := by
  intro x r
  have rules (c : Conclusion) : i.Concludes m mode x c ↔ c = r.conclusion := by
    rw [concludes_iff, conclusion_evaluate_succ]
  have spans : r.spans = x.runs := i.spans_evaluate_succ m mode levels script s
  have state : r.afterSpans = x.state := i.afterSpans_evaluate_succ m mode levels script s
  refine ⟨⟨spans, state⟩, rules, ?_⟩
  intro early bodies c
  have concludes : (i.withBodies bodies).Concludes m mode x r.conclusion :=
    ((rules r.conclusion).mpr rfl).withBodies bodies early
  rw [concludes_iff] at concludes ⊢
  rw [← concludes]

theorem staged_evaluation_of_failing_modifier :
    let fall : Modifier :=
      { name := "fall"
        body := fun _ => .role (.grant .admin "7") fun _ => .fail (.custom "no way down") }
    let i : Interpreter := { catalog := Catalog.builtin.registerModifier fall }
    let m : Message := { sender := "5" }
    let s : State := { world := {} }
    let script := "fall nope::self neax[num:: 5]"
    let x := i.expansion m maxInlineDepth script s
    let r := i.evaluate m .streaming (maxInlineDepth + 1) script s
    r.conclusion.ran = none ∧
      r.conclusion.evaluation =
        { status := .execError, result := "Neax::Problem = no way down" } ∧
      r.conclusion.state.world.isAdmin "7" = true ∧
      ∀ bodies c, (i.withBodies bodies).Concludes m .streaming x c ↔ c = r.conclusion := by
  intro fall i m s script x r
  have early : r.conclusion.ran = none := Option.isNone_iff_eq_none.mp (by decide +kernel)
  have ended : r.conclusion.evaluation =
      { status := .execError, result := "Neax::Problem = no way down" } := by decide +kernel
  have granted : r.conclusion.state.world.isAdmin "7" = true := by decide +kernel
  have whole := staged_evaluation i m .streaming maxInlineDepth script s
  exact ⟨early, ended, granted, whole.2.2 early⟩

end Interpreter

end OperatorScript
