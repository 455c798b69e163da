import OperatorScript.Proofs.Nesting
import OperatorScript.Proofs.Scan

/-!
Splicing: an evaluation puts the results of its spans in their places.

The spans of a script are evaluated once each, from left to right, as if each was run by itself, in
the state that the one before it left. The depth at which a span stands makes no difference to what
it comes to, unless something inside it is refused for its depth.
-/

set_option autoImplicit false
set_option relaxedAutoImplicit false

namespace OperatorScript

namespace Span

def Piece.inner? : Piece → Option (List Char)
  | .char _ => none
  | .span inner => some inner

def inners (pieces : List Piece) : List (List Char) := pieces.filterMap Piece.inner?

def splice : List Piece → List (List Char) → List Char
  | [], _ => []
  | .char c :: rest, texts => c :: splice rest texts
  | .span _ :: rest, [] => splice rest []
  | .span _ :: rest, text :: texts => text ++ splice rest texts

end Span

namespace Run

/-- Runs follow on each other from one state to another: each begins in the state that the one
before it left. -/
inductive InTurn : State → List Run → State → Prop
  | nil (s : State) : InTurn s [] s
  | cons {r : Run} {rest : List Run} {t : State} (tail : InTurn r.stop rest t) :
      InTurn r.start (r :: rest) t

end Run

namespace Expansion

variable {evaluate : String → State → Run}

private theorem scripts_ofPieces (script : ∀ script s, (evaluate script s).script = script)
    (pieces : List Span.Piece) (s : State) :
    (ofPieces evaluate pieces s).runs.map Run.script = (Span.inners pieces).map spanScript := by
  induction pieces generalizing s with
  | nil => rfl
  | cons piece rest ih =>
    cases piece with
    | char c => exact ih s
    | span inner =>
      have tail := ih (evaluate (spanScript inner) s).stop
      simp only [ofPieces, List.map_cons, script, tail]
      rfl

private theorem inTurn_ofPieces (start : ∀ script s, (evaluate script s).start = s)
    (pieces : List Span.Piece) (s : State) :
    Run.InTurn s (ofPieces evaluate pieces s).runs (ofPieces evaluate pieces s).state := by
  induction pieces generalizing s with
  | nil => exact .nil s
  | cons piece rest ih =>
    cases piece with
    | char c => exact ih s
    | span inner =>
      have tail := Run.InTurn.cons (ih (evaluate (spanScript inner) s).stop)
      rw [start] at tail
      exact tail

private theorem text_ofPieces (pieces : List Span.Piece) (s : State) :
    (ofPieces evaluate pieces s).text =
      Span.splice pieces
        ((ofPieces evaluate pieces s).runs.map fun r => replacement r.evaluation) := by
  induction pieces generalizing s with
  | nil => rfl
  | cons piece rest ih =>
    cases piece with
    | char c => exact congrArg (c :: ·) (ih s)
    | span inner => exact congrArg (replacement _ ++ ·) (ih _)

theorem text_of_succeeded {pieces : List Span.Piece} {s : State}
    (succeeded : ∀ r ∈ (ofPieces evaluate pieces s).runs, r.evaluation.status = .success) :
    (ofPieces evaluate pieces s).text =
      Span.splice pieces
        ((ofPieces evaluate pieces s).runs.map fun r => (Text.trim r.evaluation.result).toList) := by
  have replaced : (ofPieces evaluate pieces s).runs.map (fun r => replacement r.evaluation) =
      (ofPieces evaluate pieces s).runs.map fun r => (Text.trim r.evaluation.result).toList := by
    refine List.map_congr_left fun r member => ?_
    rw [replacement, if_pos (succeeded r member), Text.trim, String.toList_ofList]
  rw [text_ofPieces, replaced]

end Expansion

namespace Interpreter

variable {i : Interpreter} {m : Message}

private theorem evaluate_of_unrefused {mode : Mode} {levels more : Nat} (le : levels ≤ more)
    {script : String} {s : State}
    (unrefused : ∀ q : Run, q.Within (i.evaluate m mode levels script s) → q.ending ≠ .tooDeep) :
    (i.evaluate m mode levels script s).ending = (i.evaluate m mode more script s).ending ∧
      (i.evaluate m mode levels script s).stop = (i.evaluate m mode more script s).stop := by
  induction levels generalizing mode more script s with
  | zero =>
    have refused : (i.evaluate m mode 0 script s).ending = .tooDeep :=
      (ending_evaluate_eq_tooDeep_iff ..).mpr rfl
    exact (unrefused _ (.self _) refused).elim
  | succ levels ih =>
    obtain ⟨more, rfl⟩ : ∃ k, more = k + 1 := ⟨more - 1, by omega⟩
    have spans (inner : List Char) {u v : State}
        (member : i.evaluate m .buffered levels (spanScript inner) u ∈
          (i.expansion m levels script s).runs) (same : u = v) :
        (i.evaluate m .buffered levels (spanScript inner) u).evaluation =
            (i.evaluate m .buffered more (spanScript inner) v).evaluation ∧
          (i.evaluate m .buffered levels (spanScript inner) u).stop =
            (i.evaluate m .buffered more (spanScript inner) v).stop := by
      subst same
      rw [← spans_evaluate_succ i m mode] at member
      obtain ⟨ending, stop⟩ :=
        ih (Nat.le_of_succ_le_succ le) fun q within => unrefused q (.span member within)
      simp only [Run.evaluation, delivery_evaluate, ending, stop, and_self]
    obtain ⟨text, failures, state⟩ := Expansion.ofPieces_rel (R := Eq) _ spans rfl
    have same : i.finish m (i.expansion m levels script s) =
        i.finish m (i.expansion m more script s) :=
      finish_congr i m text failures state
    simp only [ending_evaluate_succ, stop_evaluate_succ, same, and_self]

private theorem run_of_unrefused {levels : Nat} (bound : levels ≤ maxInlineDepth + 1)
    {script : String} {s : State}
    (unrefused : ∀ q : Run, q.Within (i.evaluate m .buffered levels script s) →
      q.ending ≠ .tooDeep) :
    (i.run m .buffered script s).evaluation =
        (i.evaluate m .buffered levels script s).evaluation ∧
      (i.run m .buffered script s).stop = (i.evaluate m .buffered levels script s).stop := by
  obtain ⟨ending, stop⟩ := evaluate_of_unrefused bound unrefused
  simp only [run, Run.evaluation, delivery_evaluate, ending, stop, and_self]

end Interpreter

/-- The spans of a run are those among some pieces of text, and their results are put in their
places. -/
structure Run.Splices (i : Interpreter) (m : Message) (pieces : List Span.Piece) (q : Run) :
    Prop where
  /-- Each span is evaluated once, in order. -/
  scripts : q.spans.map Run.script = (Span.inners pieces).map spanScript
  /-- Each span begins in the state that the one before it left, however that one ended. -/
  inTurn : Run.InTurn q.start q.spans q.afterSpans
  /-- A span comes to the same as its script in a run of its own. -/
  alone : ∀ r ∈ q.spans, (∀ p : Run, p.Within r → p.ending ≠ .tooDeep) →
    (i.run m .buffered r.script r.start).evaluation = r.evaluation ∧
      (i.run m .buffered r.script r.start).stop = r.stop
  /-- What is read as the statement is the text with the trimmed results in place, as it stands. -/
  spliced : (∀ r ∈ q.spans, r.evaluation.status = .success) →
    let text := Span.splice pieces (q.spans.map fun r => (Text.trim r.evaluation.result).toList)
    (q.ending, q.stop) =
      match Statement.read (String.ofList text) m with
      | .error text => (.noSeparator text, q.afterSpans)
      | .ok st => i.statement m st q.afterSpans
  /-- If spans fail, their statuses and results are reported in order. -/
  reported : (∃ r ∈ q.spans, r.evaluation.status ≠ .success) →
    let failures := (q.spans.map Run.evaluation).filter fun e => e.status != .success
    q.evaluation = { status := .malformedInput, result := issues failures } ∧
      q.stop = q.afterSpans

namespace Interpreter

variable {i : Interpreter} {m : Message}

theorem splices_evaluate_succ {levels : Nat} (bound : levels ≤ maxInlineDepth + 1) (mode : Mode)
    (script : String) (s : State) :
    (i.evaluate m mode (levels + 1) script s).Splices i m
      (Span.scan (Placeholder.fill script m).toList) where
  scripts := by
    rw [spans_evaluate_succ]
    exact Expansion.scripts_ofPieces (i.script_evaluate m .buffered levels) _ s
  inTurn := by
    rw [start_evaluate, spans_evaluate_succ, afterSpans_evaluate_succ]
    exact Expansion.inTurn_ofPieces (i.start_evaluate m .buffered levels) _ s
  alone := by
    intro r member unrefused
    rw [spans_evaluate_succ] at member
    obtain ⟨inner, t, rfl⟩ := Expansion.exists_of_mem_runs member
    rw [script_evaluate, start_evaluate]
    exact run_of_unrefused bound unrefused
  spliced := by
    rw [spans_evaluate_succ, afterSpans_evaluate_succ, ending_evaluate_succ, stop_evaluate_succ]
    intro succeeded
    have text : (i.expansion m levels script s).text =
        Span.splice (Span.scan (Placeholder.fill script m).toList)
          ((i.expansion m levels script s).runs.map fun r =>
            (Text.trim r.evaluation.result).toList) :=
      Expansion.text_of_succeeded succeeded
    generalize i.expansion m levels script s = x at succeeded text ⊢
    rw [← text]
    exact finish_of_no_failures i m (Expansion.failures_eq_nil succeeded)
  reported := by
    rw [spans_evaluate_succ, afterSpans_evaluate_succ, stop_evaluate_succ, Run.evaluation,
      delivery_evaluate_succ, ending_evaluate_succ]
    generalize i.expansion m levels script s = x
    rintro ⟨r, member, failed⟩
    rw [finish_of_failures i m (Expansion.failures_ne_nil member failed)]
    exact ⟨rfl, rfl⟩

end Interpreter

end OperatorScript
