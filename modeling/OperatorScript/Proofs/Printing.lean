import OperatorScript.Proofs.Delivery
import OperatorScript.Shell.Session

/-!
Printing: the program shows the same with buffered output as without it.

A streamed run is printed with a line for each chunk, a buffered one with the lines of its result.
The two differ for a run without any chunk, which is printed as nothing and as a blank line. So that
they agree, every built-in command has to emit or to end with a fault, whatever it is answered; what
ends before its command has one chunk. The main statement: the output of the program, its number,
and what it carries from line to line, do not go by the flag for buffered output.
-/

set_option autoImplicit false
set_option relaxedAutoImplicit false

namespace OperatorScript

open Json

namespace Procedure

variable {Out α β : Type}

/-- A procedure emits or ends with a fault, whatever it is answered. -/
def Speaks : Procedure Out α → Prop
  | .done _ => False
  | .emit _ _ => True
  | .read _ _ _ next => ∀ answer, (next answer).Speaks
  | .write _ _ _ next => ∀ answer, (next answer).Speaks
  | .role _ next => ∀ answer, (next answer).Speaks
  | .fail _ => True
  | .panic _ => True

private theorem Speaks.bind (p : Procedure Out α) {f : α → Procedure Out β}
    (rest : ∀ value, (f value).Speaks) : (p.bind f).Speaks := by
  induction p with
  | done value => exact rest value
  | emit | fail | panic => trivial
  | read _ _ _ _ ih => exact ih
  | write _ _ _ _ ih => exact ih
  | role _ _ ih => exact ih

private theorem Speaks.run {p : Procedure String α} (speaks : p.Speaks) (outage : Outage)
    (s : State) :
    (p.run outage s).chunks ++ Delivery.faultChunk (p.run outage s).result ≠ [] := by
  induction p generalizing s with
  | done => cases speaks
  | emit chunk next => exact List.cons_ne_nil chunk _
  | read scope id part next ih =>
    simp only [Procedure.run]
    split
    · exact List.cons_ne_nil _ _
    · exact ih _ (speaks _) _
    · exact ih _ (speaks _) _
  | write scope id part next ih =>
    simp only [Procedure.run]
    split
    · exact List.cons_ne_nil _ _
    · exact ih _ (speaks _) _
    · exact ih _ (speaks _) _
  | role act next ih => exact ih _ (speaks _) _
  | fail | panic => exact List.cons_ne_nil _ _

end Procedure

namespace Command

open Procedure

variable (c : Context)

private theorem print_speaks : (print.body c).Speaks := by
  unfold print
  dsimp only
  split <;> trivial

private theorem arg_speaks : (arg.body c).Speaks := trivial

private theorem input_speaks : (input.body c).Speaks := by
  unfold input
  dsimp only
  split <;> trivial

private theorem help_speaks : (help.body c).Speaks := by
  unfold help
  dsimp only
  split
  · trivial
  · split <;> trivial

private theorem rankBody_speaks (rank : Rank) (isGrant : Bool) :
    (rankBody rank isGrant c).Speaks := by
  unfold rankBody
  split
  · trivial
  · split
    · trivial
    · exact fun _ => trivial

private theorem get_speaks (owner : Owner) : ((get owner).body c).Speaks := by
  unfold get
  dsimp only
  split
  · trivial
  · split
    · trivial
    · split
      · trivial
      · exact Speaks.bind _ fun _ => trivial

private theorem set_speaks (owner : Owner) : ((set owner).body c).Speaks := by
  unfold set
  dsimp only
  split
  · trivial
  · split
    · trivial
    · split
      · trivial
      · split
        · trivial
        · exact Speaks.bind _ fun _ => trivial

private theorem increment_speaks (owner : Owner) : ((increment owner).body c).Speaks := by
  unfold increment
  dsimp only
  split
  · trivial
  · split
    · trivial
    · split
      · split
        · trivial
        · refine Speaks.bind _ fun root => ?_
          split
          · trivial
          · exact Speaks.bind _ fun _ => trivial
      · trivial

private theorem num_speaks : (num.body c).Speaks := by
  refine Speaks.bind _ fun record => ?_
  dsimp only
  split <;> trivial

private theorem links_speaks : (links.body c).Speaks := by
  refine Speaks.bind _ fun table => ?_
  split <;> trivial

private theorem ulink_speaks : (ulink.body c).Speaks := by
  unfold ulink
  dsimp only
  split
  · trivial
  · split
    · trivial
    · split
      · trivial
      · split
        · trivial
        · refine Speaks.bind _ fun table => ?_
          split
          · trivial
          · exact Speaks.bind _ fun _ => trivial

private theorem uunlink_speaks : (uunlink.body c).Speaks := by
  unfold uunlink
  dsimp only
  split
  · trivial
  · split
    · trivial
    · refine Speaks.bind _ fun table => ?_
      split
      · trivial
      · exact Speaks.bind _ fun _ => trivial

/-- No built-in command ends well without a word. -/
private theorem IsBuiltin.speaks {command : Command} (builtin : command.IsBuiltin) :
    (command.body c).Speaks := by
  cases builtin with
  | print => exact print_speaks c
  | arg => exact arg_speaks c
  | promote => exact rankBody_speaks c .admin true
  | demote => exact rankBody_speaks c .admin false
  | mpromote => exact rankBody_speaks c .moderator true
  | mdemote => exact rankBody_speaks c .moderator false
  | set owner => exact set_speaks c owner
  | get owner => exact get_speaks c owner
  | input => exact input_speaks c
  | ulink => exact ulink_speaks c
  | uunlink => exact uunlink_speaks c
  | links => exact links_speaks c
  | increment owner => exact increment_speaks c owner
  | num => exact num_speaks c
  | help => exact help_speaks c

end Command

private theorem Ending.chunks_deliver_of_isEarly {e : Ending} (early : e.isEarly = true)
    (mode : Mode) :
    (e.deliver mode).chunks ≠ [] := by
  cases e with
  | ran => cases early
  | _ => exact List.cons_ne_nil _ _

namespace Interpreter

variable {i : Interpreter} (m : Message)

private theorem chunks_finish_ne_nil (builtin : i.catalog = .builtin) (x : Expansion)
    (mode : Mode) :
    ((i.finish m x).1.deliver mode).chunks ≠ [] := by
  rcases finish_cases m builtin x with ⟨early, _⟩ | ⟨st, permission, command, _, found, ran⟩
  · exact Ending.chunks_deliver_of_isEarly early mode
  · have known := (Catalog.isBuiltin_of_command? found).1
    rw [ran]
    show (Delivery.ofCommand mode _ _).chunks ≠ []
    rw [Delivery.chunks_ofCommand]
    exact (known.speaks _).run i.outage x.state

private theorem chunks_evaluate_ne_nil (builtin : i.catalog = .builtin) (mode : Mode) (levels : Nat)
    (script : String) (s : State) : (i.evaluate m mode levels script s).delivery.chunks ≠ [] := by
  cases levels with
  | zero => exact List.cons_ne_nil _ _
  | succ levels =>
    rw [delivery_evaluate_succ]
    exact chunks_finish_ne_nil m builtin _ mode

end Interpreter

private theorem Text.join_lines {chunks : List String} (filled : chunks ≠ []) :
    String.join (chunks.map (· ++ "\n")) = Text.join "\n" chunks ++ "\n" := by
  induction chunks with
  | nil => exact absurd rfl filled
  | cons chunk rest ih =>
    cases rest with
    | nil => simp [Text.join]
    | cons next rest =>
      rw [List.map_cons, String.join_cons, ih (List.cons_ne_nil next rest)]
      simp only [Text.join, String.append_assoc]

private theorem Delivery.Complete.lines {d : Delivery} {mode : Mode} (complete : d.Complete mode)
    (spoken : d.chunks ≠ []) : String.join (d.sent.map (· ++ "\n")) = d.result ++ "\n" := by
  cases mode with
  | streaming =>
    have sent : d.sent = d.chunks := complete
    rw [sent, Text.join_lines spoken, result]
  | buffered =>
    have sent : d.sent = [d.result] := complete
    simp [sent]

namespace Shell

namespace Options

def flagged (o : Options) : Options := { o with buffered := true }

private theorem give?_flagged {o x : Options} {option : Valued} {value : String}
    (given : o.give? option value = some x) :
    x.buffered = o.buffered ∧ o.flagged.give? option value = some x.flagged := by
  cases option with
  | sender | replied | settingsFile | databaseUrl =>
    simp only [give?, Option.ite_none_right_eq_some, Option.some.injEq] at given
    obtain ⟨free, rfl⟩ := given
    exact ⟨rfl, if_pos free⟩

private theorem takeScript?_flagged {o x : Options} {script : String}
    (taken : o.takeScript? script = some x) :
    x.buffered = o.buffered ∧ o.flagged.takeScript? script = some x.flagged := by
  simp only [takeScript?, Option.ite_none_right_eq_some, Option.some.injEq] at taken
  obtain ⟨free, rfl⟩ := taken
  exact ⟨rfl, if_pos free⟩

private theorem takeScripts?_flagged {o x : Options} {scripts : List String}
    (taken : scripts.foldlM takeScript? o = some x) :
    x.buffered = o.buffered ∧ scripts.foldlM takeScript? o.flagged = some x.flagged := by
  induction scripts generalizing o with
  | nil =>
    cases taken
    exact ⟨rfl, rfl⟩
  | cons script rest ih =>
    rw [List.foldlM_cons] at taken
    obtain ⟨y, first, later⟩ := Option.bind_eq_some_iff.mp taken
    obtain ⟨kept, firstFlagged⟩ := takeScript?_flagged first
    obtain ⟨same, laterFlagged⟩ := ih later
    refine ⟨same.trans kept, ?_⟩
    rw [List.foldlM_cons, firstFlagged]
    exact laterFlagged

end Options

private theorem readFrom?_flagged {o o' : Options} {args : List String}
    (asked : readFrom? o args = some (.evaluate o')) (unset : o'.buffered = false) :
    o.buffered = false ∧ readFrom? o.flagged args = some (.evaluate o'.flagged) := by
  fun_induction readFrom? o args with
  | case1 o =>
    cases asked
    exact ⟨unset, rfl⟩
  | case2 o arg rest form =>
    obtain ⟨x, taken, same⟩ := Option.map_eq_some_iff.mp asked
    cases same
    obtain ⟨kept, flagged⟩ := Options.takeScripts?_flagged taken
    refine ⟨kept.symm.trans unset, ?_⟩
    simp only [readFrom?, form, readScripts?, flagged, Option.map_some]
  | case3 o arg rest text form ih =>
    obtain ⟨x, taken, later⟩ := Option.bind_eq_some_iff.mp asked
    obtain ⟨kept, flagged⟩ := Options.takeScript?_flagged taken
    obtain ⟨clear, rest⟩ := ih x later
    refine ⟨kept.symm.trans clear, ?_⟩
    simp only [readFrom?, form, flagged, Option.bind_some, rest]
  | case7 o arg rest name value form ih =>
    obtain ⟨option, known, given⟩ := Option.bind_eq_some_iff.mp asked
    obtain ⟨x, given, later⟩ := Option.bind_eq_some_iff.mp given
    obtain ⟨kept, flagged⟩ := Options.give?_flagged given
    obtain ⟨clear, rest⟩ := ih x later
    refine ⟨kept.symm.trans clear, ?_⟩
    simp only [readFrom?, form, known, flagged, Option.bind_some, rest]
  | case10 o arg rest form _ _ ih =>
    obtain ⟨x, set, later⟩ := Option.bind_eq_some_iff.mp asked
    have clear := (ih x later).1
    simp only [Options.buffer?, Option.ite_none_left_eq_some, Option.some.injEq] at set
    obtain ⟨_, rfl⟩ := set
    cases clear
  | case11 o arg name form other other' other'' option value rest known text plain ih =>
    obtain ⟨x, given, later⟩ := Option.bind_eq_some_iff.mp asked
    obtain ⟨kept, flagged⟩ := Options.give?_flagged given
    obtain ⟨clear, rest⟩ := ih x later
    refine ⟨kept.symm.trans clear, ?_⟩
    simp only [readFrom?, form, if_neg other, if_neg other', if_neg other'', known, plain, flagged,
      Option.bind_some, rest]
  | case4 | case5 | case6 | case8 | case9 | case12 | case13 => cases asked

private theorem Request.read?_flagged {args : List String} {o : Options}
    (asked : read? args = some (.evaluate o)) (unset : o.buffered = false) :
    read? ("--buffered" :: args) = some (.evaluate o.flagged) := by
  have form : Argument.ofText "--buffered" = .long "buffered" none := by decide +kernel
  simp only [read?, readFrom?, form]
  exact (readFrom?_flagged asked unset).2

private theorem printed_run {i : Interpreter} (builtin : i.catalog = .builtin) (m : Message)
    (mode : Mode) (script : String) (s : State) :
    let e := (i.run m mode script s).evaluation
    printed (i.run m mode script s) = e.result ++ "\n" ++ "[" ++ e.status.name ++ "]\n" := by
  have complete := i.complete_delivery_evaluate m mode (maxInlineDepth + 1) script s
  have spoken := Interpreter.chunks_evaluate_ne_nil m builtin mode (maxInlineDepth + 1) script s
  have lines := complete.lines spoken
  simp only [printed, Run.sent, Interpreter.run, lines, Run.evaluation]

namespace Session

variable {s : Session}

def inMode (s : Session) (mode : Mode) : Session := { s with mode }

def afterLines (lines : List String) (s : Session) : Session :=
  lines.foldl (fun s line => (s.line line).2) s

private theorem evaluate_inMode (s : Session) (mode : Mode) (script : String) :
    (s.inMode mode).evaluate script = s.interpreter.run s.message mode script s.state := rfl

private theorem evaluation_inMode (s : Session) (mode : Mode) (script : String) :
    ((s.inMode mode).evaluate script).evaluation = (s.evaluate script).evaluation := by
  rw [evaluate_inMode]
  unfold Session.evaluate Interpreter.run
  exact s.interpreter.evaluation_evaluate_mode s.message mode s.mode _ script s.state

private theorem stop_inMode (s : Session) (mode : Mode) (script : String) :
    ((s.inMode mode).evaluate script).stop = (s.evaluate script).stop := by
  rw [evaluate_inMode]
  unfold Session.evaluate Interpreter.run
  exact s.interpreter.stop_evaluate_mode s.message mode s.mode _ script s.state

private theorem printed_inMode (builtin : s.interpreter.catalog = .builtin) (mode : Mode)
    (script : String) :
    printed ((s.inMode mode).evaluate script) = printed (s.evaluate script) := by
  have same := s.evaluation_inMode mode script
  rw [evaluate_inMode] at same ⊢
  unfold Session.evaluate at same ⊢
  rw [printed_run builtin, printed_run builtin, same]

private theorem line_inMode (builtin : s.interpreter.catalog = .builtin) (mode : Mode)
    (line : String) :
    (s.inMode mode).line line = ((s.line line).1, (s.line line).2.inMode mode) := by
  simp only [Session.line]
  by_cases blank : (Text.trim line).isEmpty = true
  · simp only [blank, if_true]
  · have carried : (s.inMode mode).after ((s.inMode mode).evaluate (Text.trim line)) =
        (s.after (s.evaluate (Text.trim line))).inMode mode := by
      rw [Session.after, Session.after, stop_inMode]
      unfold inMode
      dsimp only
    simp only [if_neg blank, printed_inMode builtin, carried]

private theorem interpreter_line (s : Session) (line : String) :
    (s.line line).2.interpreter = s.interpreter := by
  simp only [Session.line]
  by_cases blank : (Text.trim line).isEmpty = true
  · simp only [blank, if_true]
  · simp only [if_neg blank, Session.after]

private theorem lines_inMode (builtin : s.interpreter.catalog = .builtin) (mode : Mode)
    (lines : List String) : Session.lines lines (s.inMode mode) = Session.lines lines s := by
  induction lines generalizing s with
  | nil => rfl
  | cons line rest ih =>
    have carried : (s.line line).2.interpreter.catalog = .builtin := by
      rw [interpreter_line, builtin]
    simp only [Session.lines, line_inMode builtin, ih carried]

private theorem afterLines_inMode (builtin : s.interpreter.catalog = .builtin) (mode : Mode)
    (lines : List String) :
    (s.inMode mode).afterLines lines = (s.afterLines lines).inMode mode := by
  induction lines generalizing s with
  | nil => rfl
  | cons line rest ih =>
    have carried : (s.line line).2.interpreter.catalog = .builtin := by
      rw [interpreter_line, builtin]
    have first : ((s.inMode mode).line line).2 = (s.line line).2.inMode mode := by
      rw [line_inMode builtin]
    simp only [afterLines, List.foldl_cons, first]
    exact ih carried

private theorem run_inMode (builtin : s.interpreter.catalog = .builtin) (mode : Mode)
    (script : Option String) (input : String) :
    (s.inMode mode).run script input = s.run script input := by
  cases script with
  | some script =>
    simp only [Session.run, printed_inMode builtin, evaluation_inMode]
  | none => simp only [Session.run, lines_inMode builtin]

private theorem start_buffered (read : FileReader) (env : Environment) (o : Options) :
    (∃ e, ∀ buffered, Session.start read env { o with buffered } = .error e) ∨
      ∃ s : Session, s.interpreter.catalog = .builtin ∧ ∀ buffered,
        Session.start read env { o with buffered } =
          .ok (s.inMode (if buffered then .buffered else .streaming)) := by
  have environment : ∀ buffered,
      environmentFor read env { o with buffered } = environmentFor read env o := fun _ => rfl
  have settings : ∀ buffered,
      settingsFor read env { o with buffered } = settingsFor read env o := fun _ => rfl
  simp only [Session.start, environment, settings]
  split
  · exact .inl ⟨_, fun _ => rfl⟩
  · split
    · exact .inl ⟨_, fun _ => rfl⟩
    · next settings _ =>
      split
      · exact .inl ⟨_, fun _ => rfl⟩
      · split
        · exact .inl ⟨_, fun _ => rfl⟩
        · refine .inr ⟨{
            interpreter := { settings }
            message := { sender := o.sender.getD defaultSender, repliedTo := o.replied }
            mode := .streaming
            state := { world := { roles := Roles.ofLists settings.admins settings.moderators } } },
            rfl, fun buffered => rfl⟩

end Session

/-- The program shows the same with buffered output as without it. Take two command lines that ask
for the same, one with the flag and one without. Then the output and the number of the program are
the same, for any files, environment and input. If it starts at all, it starts as the same session
but for the mode; any script leaves the same world in both, and after any lines of input the state
that is carried on is the same. -/
theorem run_flagged (read : FileReader) (env : Environment) {args flaggedArgs : List String}
    {o : Options} (plain : Request.read? args = some (.evaluate o)) (unset : o.buffered = false)
    (flagged : Request.read? flaggedArgs = some (.evaluate o.flagged)) (input : String) :
    run read env flaggedArgs input = run read env args input ∧
      ∀ s, Session.start read env o = .ok s →
        Session.start read env o.flagged = .ok (s.inMode .buffered) ∧ s.mode = .streaming ∧
        (∀ script, ((s.inMode .buffered).evaluate script).stop = (s.evaluate script).stop) ∧
        ∀ lines, ((s.inMode .buffered).afterLines lines).state = (s.afterLines lines).state := by
  have same : o = { o with buffered := false } := by rw [← unset]
  rcases Session.start_buffered read env o with ⟨e, refused⟩ | ⟨s, builtin, started⟩
  · have streaming : Session.start read env o = .error e := by rw [same, refused]
    have buffered : Session.start read env o.flagged = .error e := refused true
    refine ⟨?_, ?_⟩
    · simp only [run, plain, flagged, streaming, buffered]
    · rintro s started
      rw [streaming] at started
      cases started
  · have streaming : Session.start read env o = .ok (s.inMode .streaming) := by
      rw [same, started]
      rfl
    have buffered : Session.start read env o.flagged = .ok (s.inMode .buffered) := started true
    refine ⟨?_, ?_⟩
    · simp only [run, plain, flagged, streaming, buffered]
      rw [Session.run_inMode builtin, Session.run_inMode builtin]
      rfl
    · rintro t found
      rw [streaming] at found
      cases found
      refine ⟨buffered, rfl, fun script => ?_, fun lines => ?_⟩
      · exact Session.stop_inMode (s.inMode .streaming) .buffered script
      · rw [Session.afterLines_inMode (s := s.inMode .streaming) builtin]
        rfl

theorem run_flagged_of_lines :
    let read : FileReader := fun _ => .error .notFound
    let env : Environment := [("NEAX_ADMINS", "1")]
    let args := ["--sender", "1"]
    let o : Options := { sender := some "1" }
    let input := "uset::9 money 5\n\nuget::9 money --raw\n"
    let printed := "Set success [9]\n\x7b\n  \"money\": 5\n\x7d\n[Success]\n5\n[Success]\n"
    Request.read? args = some (.evaluate o) ∧ o.buffered = false ∧
      Request.read? ("--buffered" :: args) = some (.evaluate o.flagged) ∧
      run read env args input = { stdout := printed, exit := 0 } ∧
      run read env ("--buffered" :: args) input = { stdout := printed, exit := 0 } := by
  intro read env args o input printed
  have plain : Request.read? args = some (.evaluate o) := by decide +kernel
  have flagged : Request.read? ("--buffered" :: args) = some (.evaluate o.flagged) :=
    Request.read?_flagged plain rfl
  have streamed : run read env args input = { stdout := printed, exit := 0 } := by decide +kernel
  have same := (run_flagged read env plain rfl flagged input).1
  exact ⟨plain, rfl, flagged, streamed, same.trans streamed⟩

end Shell

end OperatorScript
