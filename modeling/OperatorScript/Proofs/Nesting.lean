import OperatorScript.Proofs.Evaluation

/-!
Nesting: how deep spans are evaluated, and what the failure of one does to those around it.

Evaluation is given by rules that count the depth up from the script that is run. Nothing else
becomes smaller from rule to rule: the text of a span may be as long as the script around it, as
fields of the message can bring their own placeholders back. The main statements: every script comes
to just one evaluation by these rules, none goes deeper than the limit, and a span that fails takes
every evaluation around it with it.
-/

set_option autoImplicit false
set_option relaxedAutoImplicit false

namespace OperatorScript

namespace Run

def refused (script : String) (s : State) : Run :=
  .mk 0 script s [] .tooDeep (.early (Fault.problem "inline scripts nested too deeply").text) s

/-- A run belongs to one of the spans of another, however deep. -/
def Inside (q r : Run) : Prop := ∃ x ∈ r.spans, q.Within x

private theorem AtDepth.inside {depth : Nat} {q r : Run} (deeper : q.AtDepth (depth + 1) r) :
    q.Inside r := by
  cases deeper with
  | span member deeper => exact ⟨_, member, deeper.within⟩

private theorem Inside.exists_mem_spans {q r : Run} (inside : q.Inside r) :
    ∃ p : Run, p.Within r ∧ q ∈ p.spans := by
  obtain ⟨x, member, within⟩ := inside
  induction within generalizing r with
  | self => exact ⟨r, .self r, member⟩
  | span deeper _ ih =>
    obtain ⟨p, within, spans⟩ := ih deeper
    exact ⟨p, .span member within, spans⟩

end Run

namespace Interpreter

mutual

/-- Evaluation at a depth. -/
inductive Evaluates (i : Interpreter) (m : Message) : Mode → Nat → String → State → Run → Prop
  | refused {mode : Mode} {depth : Nat} {script : String} {s : State}
      (deep : maxInlineDepth < depth) :
      Evaluates i m mode depth script s (.refused script s)
  | statement {mode : Mode} {depth : Nat} {script : String} {s : State} {x : Expansion}
      (allowed : depth ≤ maxInlineDepth)
      (spans : Expands i m (depth + 1) (Span.scan (Placeholder.fill script m).toList) s x) :
      Evaluates i m mode depth script s
        (.mk (maxInlineDepth + 1 - depth) script s x.runs (i.finish m x).1
          ((i.finish m x).1.deliver mode) (i.finish m x).2)

inductive Expands (i : Interpreter) (m : Message) :
    Nat → List Span.Piece → State → Expansion → Prop
  | nil {depth : Nat} (s : State) :
      Expands i m depth [] s { text := [], runs := [], state := s }
  | char {depth : Nat} {c : Char} {rest : List Span.Piece} {s : State} {x : Expansion}
      (tail : Expands i m depth rest s x) :
      Expands i m depth (.char c :: rest) s { x with text := c :: x.text }
  | span {depth : Nat} {inner : List Char} {rest : List Span.Piece} {s : State} {r : Run}
      {x : Expansion} (evaluated : Evaluates i m .buffered depth (spanScript inner) s r)
      (tail : Expands i m depth rest r.stop x) :
      Expands i m depth (.span inner :: rest) s
        { text := Expansion.replacement r.evaluation ++ x.text
          runs := r :: x.runs
          state := x.state }

end

variable {i : Interpreter} {m : Message}

private theorem evaluate_zero (mode : Mode) (script : String) (s : State) :
    i.evaluate m mode 0 script s = .refused script s := by
  simp only [evaluate, Ending.deliver, Run.refused]

private theorem expands_iff {depth levels : Nat}
    (spans : ∀ script s r, i.Evaluates m .buffered depth script s r ↔
      r = i.evaluate m .buffered levels script s)
    (pieces : List Span.Piece) (s : State) (x : Expansion) :
    i.Expands m depth pieces s x ↔
      x = Expansion.ofPieces (i.evaluate m .buffered levels) pieces s := by
  induction pieces generalizing s x with
  | nil =>
    constructor
    · intro expands
      cases expands
      rfl
    · rintro rfl
      exact .nil s
  | cons piece rest ih =>
    cases piece with
    | char c =>
      constructor
      · intro expands
        cases expands with
        | char tail =>
          rw [ih] at tail
          subst tail
          rfl
      · rintro rfl
        exact .char ((ih s _).mpr rfl)
    | span inner =>
      constructor
      · intro expands
        cases expands with
        | span evaluated tail =>
          rw [spans] at evaluated
          subst evaluated
          rw [ih] at tail
          subst tail
          rfl
      · rintro rfl
        exact .span ((spans _ _ _).mpr rfl) ((ih _ _).mpr rfl)

/-- The rules at a depth and the interpreter with the levels left there agree. -/
private theorem evaluates_iff {depth levels : Nat} (counted : depth + levels = maxInlineDepth + 1)
    (mode : Mode) (script : String) (s : State) (r : Run) :
    i.Evaluates m mode depth script s r ↔ r = i.evaluate m mode levels script s := by
  induction levels generalizing depth mode script s r with
  | zero =>
    rw [evaluate_zero]
    constructor
    · intro evaluates
      cases evaluates with
      | refused => rfl
      | statement allowed => omega
    · rintro rfl
      exact .refused (by omega)
  | succ levels ih =>
    have left : maxInlineDepth + 1 - depth = levels + 1 := by omega
    have deeper (script : String) (s : State) (r : Run) :
        i.Evaluates m .buffered (depth + 1) script s r ↔
          r = i.evaluate m .buffered levels script s :=
      ih (by omega) .buffered script s r
    have spans (x : Expansion) :
        i.Expands m (depth + 1) (Span.scan (Placeholder.fill script m).toList) s x ↔
          x = i.expansion m levels script s :=
      expands_iff deeper _ s x
    rw [evaluate_succ, ← left]
    constructor
    · intro evaluates
      cases evaluates with
      | refused deep => omega
      | statement allowed expands => rw [(spans _).mp expands]
    · rintro rfl
      exact .statement (by omega) ((spans _).mpr rfl)

private theorem finish_ne_tooDeep (x : Expansion) : (i.finish m x).1 ≠ .tooDeep := by
  have command (c : Context) (s : State) : (i.command c s).1 ≠ .tooDeep := by
    unfold Interpreter.command
    split <;> simp
  unfold finish
  split
  · simp
  · split
    · simp
    · unfold Interpreter.statement
      dsimp only
      split
      · exact command _ _
      · split
        · simp
        · split
          · simp
          · exact command _ _

theorem ending_evaluate_eq_tooDeep_iff (mode : Mode) (levels : Nat) (script : String) (s : State) :
    (i.evaluate m mode levels script s).ending = .tooDeep ↔ levels = 0 := by
  cases levels with
  | zero => exact ⟨fun _ => rfl, fun _ => rfl⟩
  | succ levels =>
    rw [ending_evaluate_succ]
    exact ⟨fun refused => (finish_ne_tooDeep _ refused).elim, fun none => by omega⟩

/-- A span that fields of the message bring back in its own script is evaluated again on every
level, down to the one where it is refused. -/
private theorem exists_refused_of_recurring {inner : List Char}
    (recurring :
      Span.Piece.span inner ∈ Span.scan (Placeholder.fill (spanScript inner) m).toList)
    (mode : Mode) (levels : Nat) (s : State) :
    ∃ q : Run, q.AtDepth levels (i.evaluate m mode levels (spanScript inner) s) ∧
      q.ending = .tooDeep := by
  induction levels generalizing mode s with
  | zero => exact ⟨_, .self _, (ending_evaluate_eq_tooDeep_iff ..).mpr rfl⟩
  | succ levels ih =>
    obtain ⟨t, member⟩ :=
      Expansion.exists_mem_runs_of_span (i.evaluate m .buffered levels) recurring s
    obtain ⟨q, deeper, refused⟩ := ih .buffered t
    refine ⟨q, .span ?_ deeper, refused⟩
    rw [spans_evaluate_succ]
    exact member

theorem exists_evaluate_of_inside {q r : Run} (inside : q.Inside r) {mode : Mode} {levels : Nat}
    {script : String} {s : State} (evaluated : r = i.evaluate m mode levels script s) :
    ∃ levels inner t, q = i.evaluate m .buffered levels (spanScript inner) t := by
  obtain ⟨p, within, member⟩ := inside.exists_mem_spans
  obtain ⟨mode, levels, script, s, rfl⟩ := i.exists_evaluate_of_within m within evaluated
  cases levels with
  | zero => cases member
  | succ levels =>
    rw [spans_evaluate_succ] at member
    obtain ⟨inner, t, below⟩ := Expansion.exists_of_mem_runs member
    exact ⟨levels, inner, t, below⟩

private theorem spansFailed_of_failed {mode : Mode} {levels : Nat} {script : String} {s : State}
    {x : Run} (member : x ∈ (i.evaluate m mode levels script s).spans)
    (failed : x.evaluation.status ≠ .success) :
    ∃ failures, (i.evaluate m mode levels script s).ending = .spansFailed failures ∧
      (i.evaluate m mode levels script s).stop =
        (i.evaluate m mode levels script s).afterSpans := by
  cases levels with
  | zero => cases member
  | succ levels =>
    rw [spans_evaluate_succ] at member
    rw [ending_evaluate_succ, stop_evaluate_succ, afterSpans_evaluate_succ]
    have listed := Expansion.failures_ne_nil member failed
    simp only [finish_of_failures i m listed, Ending.spansFailed.injEq, exists_eq', and_true]

private theorem failed_of_within {q r : Run} (within : q.Within r) {mode : Mode} {levels : Nat}
    {script : String} {s : State} (evaluated : r = i.evaluate m mode levels script s)
    (failed : q.evaluation.status ≠ .success) : r.evaluation.status ≠ .success := by
  induction within generalizing mode levels script s with
  | self => exact failed
  | span member _ ih =>
    obtain ⟨_, _, _, _, below⟩ := i.exists_evaluate_of_within m (.span member (.self _)) evaluated
    have spanFailed := ih below
    subst evaluated
    obtain ⟨failures, ending, _⟩ := spansFailed_of_failed member spanFailed
    rw [Run.evaluation, ending]
    simp [Ending.status]

private theorem early_of_failed_inside {p q : Run} (inside : p.Inside q) {mode : Mode}
    {levels : Nat} {script : String} {s : State} (evaluated : q = i.evaluate m mode levels script s)
    (failed : p.evaluation.status ≠ .success) :
    q.evaluation.status = .malformedInput ∧ q.ending.isEarly = true ∧ q.stop = q.afterSpans := by
  obtain ⟨x, member, within⟩ := inside
  obtain ⟨_, _, _, _, below⟩ := i.exists_evaluate_of_within m (.span member (.self _)) evaluated
  have spanFailed := failed_of_within within below failed
  subst evaluated
  obtain ⟨failures, ending, stop⟩ := spansFailed_of_failed member spanFailed
  refine ⟨?_, ?_, stop⟩
  · rw [Run.evaluation, ending]
    rfl
  · rw [ending]
    rfl

theorem refused_iff_of_atDepth {depth : Nat} {q : Run} {mode : Mode} {script : String} {s : State}
    (deeper : q.AtDepth depth (i.run m mode script s)) :
    depth ≤ maxInlineDepth + 1 ∧ (q.ending = .tooDeep ↔ maxInlineDepth < depth) ∧
      (q.ending = .tooDeep → q = .refused q.script q.start) := by
  obtain ⟨mode', left, script', t, counted, evaluated⟩ := i.exists_evaluate_of_atDepth m deeper rfl
  subst evaluated
  rw [ending_evaluate_eq_tooDeep_iff]
  refine ⟨by omega, ⟨fun none => by omega, fun deep => by omega⟩, ?_⟩
  rintro rfl
  rw [evaluate_zero]
  rfl

/-- Bounded nesting. Every script comes to just one evaluation by the rules, which have no bound but
the depth. What lies beyond the greatest depth is refused: it is the same whatever the interpreter
and the message, and leaves the state as it was. An evaluation inside which anything fails, however
deep, is malformed, runs no command of its own and changes nothing after its spans; so within a run
that succeeds, everything has succeeded. -/
theorem bounded_nesting (i : Interpreter) (m : Message) (mode : Mode) (script : String)
    (s : State) :
    let run := i.run m mode script s
    (∀ r, i.Evaluates m mode 0 script s r ↔ r = run) ∧
      (∀ (depth : Nat) (q : Run), q.AtDepth depth run →
        depth ≤ maxInlineDepth + 1 ∧ (q.ending = .tooDeep ↔ maxInlineDepth < depth) ∧
        (q.ending = .tooDeep → q = .refused q.script q.start ∧ q.stop = q.start)) ∧
      (∀ p q : Run, q.Within run → p.Inside q → p.evaluation.status ≠ .success →
        q.evaluation.status = .malformedInput ∧ q.ending.isEarly = true ∧
        q.stop = q.afterSpans) ∧
      (run.evaluation.status = .success →
        ∀ q : Run, q.Within run → q.evaluation.status = .success) := by
  intro run
  refine ⟨evaluates_iff (Nat.zero_add _) mode script s, ?_, ?_, ?_⟩
  · intro depth q deeper
    obtain ⟨bound, limit, refused⟩ := refused_iff_of_atDepth deeper
    refine ⟨bound, limit, fun tooDeep => ⟨refused tooDeep, ?_⟩⟩
    rw [refused tooDeep]
    rfl
  · intro p q within inside failed
    obtain ⟨_, _, _, _, evaluated⟩ := i.exists_evaluate_of_within m within rfl
    exact early_of_failed_inside inside evaluated failed
  · intro succeeded q within
    refine Decidable.byContradiction fun failed => ?_
    exact failed_of_within within rfl failed succeeded

theorem bounded_nesting_of_runaway_script :
    let m : Message :=
      { sender := "5", fields := [("loop", .str "neax[print::self %loop%]")] }
    let s : State := { world := {} }
    let runaway := ({} : Interpreter).run m .streaming "print::self %loop% --raw" s
    let calm := ({} : Interpreter).run m .streaming "print::self neax[num:: 5]" s
    (∃ q : Run, q.AtDepth 17 runaway ∧ q.ending = .tooDeep ∧ q.stop = q.start ∧
      q.Inside runaway ∧ q.evaluation.status ≠ .success ∧
      runaway.evaluation.status = .malformedInput ∧ runaway.ending.isEarly = true) ∧
    calm.evaluation.status = .success ∧ calm.spans.length = 1 ∧
      ∀ q : Run, q.Within calm → q.evaluation.status = .success := by
  intro m s runaway calm
  have recurring : Span.Piece.span "print::self %loop%".toList ∈
      Span.scan (Placeholder.fill (spanScript "print::self %loop%".toList) m).toList := by
    decide +kernel
  obtain ⟨_, depths, failures, _⟩ := bounded_nesting {} m .streaming "print::self %loop% --raw" s
  obtain ⟨_, _, _, successes⟩ := bounded_nesting {} m .streaming "print::self neax[num:: 5]" s
  obtain ⟨q, deeper, tooDeep⟩ := exists_refused_of_recurring (i := {}) recurring .streaming 17 s
  have unchanged : q.stop = q.start := ((depths 17 q deeper).2.2 tooDeep).2
  have failed : q.evaluation.status ≠ .success := by
    show q.ending.status ≠ .success
    rw [tooDeep]
    decide
  obtain ⟨malformed, early, _⟩ := failures q runaway (.self _) deeper.inside failed
  have succeeded : calm.evaluation.status = .success := by decide +kernel
  have single : calm.spans.length = 1 := by decide +kernel
  exact ⟨⟨q, deeper, tooDeep, unchanged, deeper.inside, failed, malformed, early⟩,
    succeeded, single, successes succeeded⟩

end Interpreter

end OperatorScript
