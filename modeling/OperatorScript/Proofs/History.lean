import OperatorScript.Proofs.Evaluation

/-!
Histories: scripts that are submitted one after the other, each in the state that the one before it
left.

The main statement: what every statement keeps is kept up to every point of every run of a history,
the runs of spans included.
-/

set_option autoImplicit false
set_option relaxedAutoImplicit false

namespace OperatorScript

/-- A script as it is submitted: with the message that carries it, and the mode in which its output
is delivered. -/
structure Submission where
  message : Message
  mode : Mode
  script : String

namespace Interpreter

variable (i : Interpreter)

@[irreducible]
def submit (q : Submission) (s : State) : Run := i.run q.message q.mode q.script s

theorem submit_eq (q : Submission) (s : State) :
    i.submit q s = i.evaluate q.message q.mode (maxInlineDepth + 1) q.script s := by
  rw [submit, Interpreter.run]

/-- The runs of scripts that are submitted in turn. -/
def history : List Submission → State → List Run
  | [], _ => []
  | q :: rest, s => i.submit q s :: history rest (i.submit q s).stop

end Interpreter

namespace Expansion

private theorem exists_rel_of_mem_runs {evaluate : String → State → Run} {R : State → State → Prop}
    (refl : ∀ s, R s s) (trans : ∀ {s t u}, R s t → R t u → R s u)
    (step : ∀ script s, R s (evaluate script s).stop) {pieces : List Span.Piece} {s : State}
    {r : Run} (member : r ∈ (ofPieces evaluate pieces s).runs) :
    ∃ inner t, R s t ∧ r = evaluate (spanScript inner) t := by
  induction pieces generalizing s with
  | nil => cases member
  | cons piece rest ih =>
    cases piece with
    | char c => exact ih member
    | span inner =>
      rcases List.mem_cons.mp member with rfl | member
      · exact ⟨inner, s, refl s, rfl⟩
      · obtain ⟨later, t, led, run⟩ := ih member
        exact ⟨later, t, trans (step _ s) led, run⟩

end Expansion

theorem Run.lastStop_cons (r : Run) (runs : List Run) (s : State) :
    lastStop (r :: runs) s = lastStop runs r.stop := by
  rw [lastStop, List.getLast?_cons, lastStop]
  cases runs.getLast? <;> rfl

/-- An invariant holds where a run starts, where its statement begins and where it stops. -/
structure Run.Keeps (I : State → Prop) (r : Run) : Prop where
  start : I r.start
  afterSpans : I r.afterSpans
  stop : I r.stop

namespace Interpreter

variable {i : Interpreter} {I : State → Prop}

section Evaluation

variable {m : Message} (finish : ∀ x : Expansion, I x.state → I (i.finish m x).2)

include finish

private theorem invariant_evaluate (mode : Mode) (levels : Nat) (script : String) {s : State}
    (holds : I s) : I (i.evaluate m mode levels script s).stop :=
  rel_evaluate i m (R := fun s t => I s → I t) (fun _ => id) (fun first second => second ∘ first)
    finish mode levels script s holds

theorem keeps_evaluate (mode : Mode) (levels : Nat) (script : String) {s : State} (holds : I s) :
    (i.evaluate m mode levels script s).Keeps I where
  start := by rwa [start_evaluate]
  afterSpans := by
    cases levels with
    | zero => exact holds
    | succ levels =>
      have step (script : String) (s : State) :
          I s → I (i.evaluate m .buffered levels script s).stop :=
        invariant_evaluate finish .buffered levels script
      rw [afterSpans_evaluate_succ]
      exact Expansion.rel_ofPieces (R := fun s t => I s → I t) (fun _ => id)
        (fun first second => second ∘ first) step _ s holds
  stop := invariant_evaluate finish mode levels script holds

private theorem exists_evaluate_of_invariant {q r : Run} (within : q.Within r) {mode : Mode}
    {levels : Nat} {script : String} {s : State} (holds : I s)
    (evaluated : r = i.evaluate m mode levels script s) :
    ∃ mode levels script s, I s ∧ q = i.evaluate m mode levels script s := by
  induction within generalizing mode levels script s with
  | self => exact ⟨mode, levels, script, s, holds, evaluated⟩
  | span member _ ih =>
    subst evaluated
    cases levels with
    | zero => cases member
    | succ levels =>
      have step (script : String) (s : State) :
          I s → I (i.evaluate m .buffered levels script s).stop :=
        invariant_evaluate finish .buffered levels script
      rw [spans_evaluate_succ] at member
      obtain ⟨inner, t, led, below⟩ := Expansion.exists_rel_of_mem_runs
        (R := fun s t => I s → I t) (fun _ => id) (fun first second => second ∘ first) step member
      exact ih (led holds) below

end Evaluation

section History

variable (finish : ∀ (m : Message) (x : Expansion), I x.state → I (i.finish m x).2)

include finish

private theorem invariant_submit (q : Submission) {s : State} (holds : I s) :
    I (i.submit q s).stop := by
  rw [submit_eq]
  exact invariant_evaluate (finish q.message) _ _ _ holds

/-- An invariant of every statement holds after every history. -/
theorem invariant_history (history : List Submission) {s : State} (holds : I s) :
    I (Run.lastStop (i.history history s) s) := by
  induction history generalizing s with
  | nil => exact holds
  | cons q rest ih =>
    rw [Interpreter.history, Run.lastStop_cons]
    exact ih (invariant_submit finish q holds)

theorem exists_evaluate_of_history {history : List Submission} {s : State} (holds : I s)
    {r q : Run} (member : r ∈ i.history history s) (within : q.Within r) :
    ∃ m mode levels script s, I s ∧ q = i.evaluate m mode levels script s := by
  induction history generalizing s with
  | nil => cases member
  | cons first rest ih =>
    rcases List.mem_cons.mp member with rfl | member
    · obtain ⟨mode, levels, script, t, begun, evaluated⟩ :=
        exists_evaluate_of_invariant (finish first.message) within holds (i.submit_eq first s)
      exact ⟨first.message, mode, levels, script, t, begun, evaluated⟩
    · exact ih (invariant_submit finish first holds) member

/-- An invariant of every statement holds throughout every run within a history. -/
theorem keeps_history {history : List Submission} {s : State} (holds : I s) {r q : Run}
    (member : r ∈ i.history history s) (within : q.Within r) : q.Keeps I := by
  obtain ⟨m, mode, levels, script, t, begun, rfl⟩ :=
    exists_evaluate_of_history finish holds member within
  exact keeps_evaluate (finish m) mode levels script begun

end History

end Interpreter

end OperatorScript
