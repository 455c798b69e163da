import OperatorScript.Interpreter
import OperatorScript.Proofs.Builtin

/-!
Evaluations with those of their spans.

Every run within an evaluation is an evaluation itself, which begins its statement in the state that
its last span left. The main statement: what every statement keeps, from the state after its spans
to its end, a whole evaluation keeps.
-/

set_option autoImplicit false
set_option relaxedAutoImplicit false

namespace OperatorScript

def Span.Piece.isSpan : Span.Piece → Bool
  | .char _ => false
  | .span _ => true

/-- No span is found in a script whose placeholders have been filled. -/
def SpanFree (script : String) (m : Message) : Prop :=
  ∀ piece ∈ Span.scan (Placeholder.fill script m).toList, piece.isSpan = false

instance (script : String) (m : Message) : Decidable (SpanFree script m) :=
  List.decidableBAll ..

namespace Run

/-- A run lies within another one: it is that run, or lies within the run of one of its spans. -/
inductive Within : Run → Run → Prop
  | self (r : Run) : Within r r
  | span {q x r : Run} (span : x ∈ r.spans) (within : Within q x) : Within q r

inductive AtDepth : Nat → Run → Run → Prop
  | self (r : Run) : AtDepth 0 r r
  | span {depth : Nat} {q x r : Run} (span : x ∈ r.spans) (deeper : AtDepth depth q x) :
      AtDepth (depth + 1) q r

theorem Within.exists_atDepth {q r : Run} (within : q.Within r) : ∃ depth, q.AtDepth depth r := by
  induction within with
  | self => exact ⟨0, .self _⟩
  | span member _ ih =>
    obtain ⟨depth, deeper⟩ := ih
    exact ⟨depth + 1, .span member deeper⟩

theorem AtDepth.within {depth : Nat} {q r : Run} (deeper : q.AtDepth depth r) : q.Within r := by
  induction deeper with
  | self => exact .self _
  | span member _ ih => exact .span member ih

def lastStop (runs : List Run) (s : State) : State := (runs.getLast?.map stop).getD s

/-- The state in which the statement of a run begins: the one that its last span left. -/
def afterSpans (r : Run) : State := lastStop r.spans r.start

end Run

namespace Ending

def isEarly : Ending → Bool
  | .ran .. => false
  | _ => true

theorem exists_eq_ran {e : Ending} (ran : e.isEarly = false) :
    ∃ c chunks ending, e = .ran c chunks ending := by
  cases e with
  | ran c chunks ending => exact ⟨c, chunks, ending, rfl⟩
  | _ => cases ran

end Ending

namespace Expansion

variable {evaluate : String → State → Run}

private theorem state_ofPieces (pieces : List Span.Piece) (s : State) :
    (ofPieces evaluate pieces s).state =
      Run.lastStop (ofPieces evaluate pieces s).runs s := by
  induction pieces generalizing s with
  | nil => rfl
  | cons piece rest ih =>
    cases piece with
    | char c => exact ih s
    | span inner =>
      simp only [ofPieces, Run.lastStop, List.getLast?_cons, ih]
      cases (ofPieces evaluate rest (evaluate (spanScript inner) s).stop).runs.getLast? <;> rfl

theorem exists_of_mem_runs {pieces : List Span.Piece} {s : State} {r : Run}
    (member : r ∈ (ofPieces evaluate pieces s).runs) :
    ∃ inner t, r = evaluate (spanScript inner) t := by
  induction pieces generalizing s with
  | nil => simp [ofPieces] at member
  | cons piece rest ih =>
    cases piece with
    | char c => exact ih member
    | span inner =>
      rcases List.mem_cons.mp member with rfl | member
      · exact ⟨inner, s, rfl⟩
      · exact ih member

variable (evaluate) in
theorem exists_mem_runs_of_span {pieces : List Span.Piece} {inner : List Char}
    (member : Span.Piece.span inner ∈ pieces) (s : State) :
    ∃ t, evaluate (spanScript inner) t ∈ (ofPieces evaluate pieces s).runs := by
  induction pieces generalizing s with
  | nil => cases member
  | cons piece rest ih =>
    cases piece with
    | char c =>
      rcases List.mem_cons.mp member with eq | member
      · cases eq
      · exact ih member s
    | span other =>
      rcases List.mem_cons.mp member with eq | member
      · cases eq
        exact ⟨s, List.mem_cons_self⟩
      · obtain ⟨t, run⟩ := ih member (evaluate (spanScript other) s).stop
        exact ⟨t, List.mem_cons_of_mem _ run⟩

theorem ofPieces_of_no_span {pieces : List Span.Piece} (s : State)
    (plain : ∀ piece ∈ pieces, piece.isSpan = false) :
    ofPieces evaluate pieces s =
      { text := pieces.flatMap Span.Piece.source, runs := [], state := s } := by
  induction pieces with
  | nil => rfl
  | cons piece rest ih =>
    cases piece with
    | char c =>
      have tail := ih fun piece member => plain piece (List.mem_cons_of_mem _ member)
      simp only [ofPieces, tail]
      rfl
    | span inner => cases plain _ List.mem_cons_self

theorem ofPieces_rel {other : String → State → Run} {R : State → State → Prop}
    (pieces : List Span.Piece) {s t : State}
    (step : ∀ (inner : List Char) {u v : State},
      evaluate (spanScript inner) u ∈ (ofPieces evaluate pieces s).runs → R u v →
      (evaluate (spanScript inner) u).evaluation = (other (spanScript inner) v).evaluation ∧
        R (evaluate (spanScript inner) u).stop (other (spanScript inner) v).stop)
    (related : R s t) :
    (ofPieces evaluate pieces s).text = (ofPieces other pieces t).text ∧
      (ofPieces evaluate pieces s).failures = (ofPieces other pieces t).failures ∧
      R (ofPieces evaluate pieces s).state (ofPieces other pieces t).state := by
  induction pieces generalizing s t with
  | nil => exact ⟨rfl, rfl, related⟩
  | cons piece rest ih =>
    cases piece with
    | char c =>
      obtain ⟨text, failures, states⟩ := ih step related
      exact ⟨congrArg (c :: ·) text, failures, states⟩
    | span inner =>
      obtain ⟨evaluation, stop⟩ := step inner List.mem_cons_self related
      obtain ⟨text, failures, states⟩ :=
        ih (fun inner _ _ member => step inner (List.mem_cons_of_mem _ member)) stop
      refine ⟨?_, ?_, states⟩
      · simp only [ofPieces, evaluation, text]
      · simp only [Expansion.failures, ofPieces, List.map_cons, List.filter_cons] at failures ⊢
        rw [evaluation, failures]

theorem failures_eq_nil {x : Expansion}
    (succeeded : ∀ r ∈ x.runs, r.evaluation.status = .success) : x.failures = [] := by
  unfold failures
  simpa using succeeded

theorem failures_ne_nil {x : Expansion} {r : Run} (member : r ∈ x.runs)
    (failed : r.evaluation.status ≠ .success) : x.failures ≠ [] :=
  List.ne_nil_of_mem (List.mem_filter.mpr ⟨List.mem_map_of_mem member, by simpa using failed⟩)

theorem rel_ofPieces {R : State → State → Prop} (refl : ∀ s, R s s)
    (trans : ∀ {s t u}, R s t → R t u → R s u) (step : ∀ script s, R s (evaluate script s).stop)
    (pieces : List Span.Piece) (s : State) : R s (ofPieces evaluate pieces s).state := by
  induction pieces generalizing s with
  | nil => exact refl s
  | cons piece rest ih =>
    cases piece with
    | char c => exact ih s
    | span inner => exact trans (step _ s) (ih _)

end Expansion

namespace Interpreter

variable (i : Interpreter) (m : Message)

def expansion (levels : Nat) (script : String) (s : State) : Expansion :=
  Expansion.ofScript (i.evaluate m .buffered levels) (Placeholder.fill script m) s

theorem evaluate_succ (mode : Mode) (levels : Nat) (script : String) (s : State) :
    i.evaluate m mode (levels + 1) script s =
      .mk (levels + 1) script s (i.expansion m levels script s).runs
        (i.finish m (i.expansion m levels script s)).1
        ((i.finish m (i.expansion m levels script s)).1.deliver mode)
        (i.finish m (i.expansion m levels script s)).2 := by
  simp only [evaluate, expansion]

section Parts

variable (mode : Mode) (levels : Nat) (script : String) (s : State)

theorem spans_evaluate_succ : (i.evaluate m mode (levels + 1) script s).spans =
    (i.expansion m levels script s).runs := by
  rw [evaluate_succ, Run.spans]

theorem ending_evaluate_succ : (i.evaluate m mode (levels + 1) script s).ending =
    (i.finish m (i.expansion m levels script s)).1 := by
  rw [evaluate_succ, Run.ending]

theorem delivery_evaluate_succ : (i.evaluate m mode (levels + 1) script s).delivery =
    (i.finish m (i.expansion m levels script s)).1.deliver mode := by
  rw [evaluate_succ, Run.delivery]

theorem stop_evaluate_succ : (i.evaluate m mode (levels + 1) script s).stop =
    (i.finish m (i.expansion m levels script s)).2 := by
  rw [evaluate_succ, Run.stop]

theorem afterSpans_evaluate_succ : (i.evaluate m mode (levels + 1) script s).afterSpans =
    (i.expansion m levels script s).state := by
  simp only [evaluate_succ, Run.afterSpans, Run.spans, Run.start]
  exact (Expansion.state_ofPieces _ s).symm

theorem script_evaluate : (i.evaluate m mode levels script s).script = script := by
  cases levels with
  | zero => rfl
  | succ levels => rw [evaluate_succ, Run.script]

theorem start_evaluate : (i.evaluate m mode levels script s).start = s := by
  cases levels with
  | zero => rfl
  | succ levels => rw [evaluate_succ, Run.start]

theorem delivery_evaluate : (i.evaluate m mode levels script s).delivery =
    (i.evaluate m mode levels script s).ending.deliver mode := by
  cases levels with
  | zero => rfl
  | succ levels => rw [delivery_evaluate_succ, ending_evaluate_succ]

end Parts

theorem expansion_of_spanFree {script : String} (plain : SpanFree script m) (levels : Nat)
    (s : State) : i.expansion m levels script s =
      { text := (Placeholder.fill script m).toList, runs := [], state := s } := by
  unfold expansion Expansion.ofScript
  rw [Expansion.ofPieces_of_no_span s plain, Span.flatMap_source_scan]

theorem exists_evaluate_of_atDepth {depth : Nat} {q r : Run} (deeper : q.AtDepth depth r)
    {mode : Mode} {levels : Nat} {script : String} {s : State}
    (evaluated : r = i.evaluate m mode levels script s) :
    ∃ mode' left script' t, depth + left = levels ∧ q = i.evaluate m mode' left script' t := by
  induction deeper generalizing mode levels script s with
  | self => exact ⟨mode, levels, script, s, Nat.zero_add levels, evaluated⟩
  | span member _ ih =>
    subst evaluated
    cases levels with
    | zero => cases member
    | succ levels =>
      rw [spans_evaluate_succ] at member
      obtain ⟨inner, t, below⟩ := Expansion.exists_of_mem_runs member
      obtain ⟨mode', left, script', t', counted, evaluated⟩ := ih below
      exact ⟨mode', left, script', t', by omega, evaluated⟩

theorem exists_evaluate_of_within {q r : Run} (within : q.Within r) {mode : Mode} {levels : Nat}
    {script : String} {s : State} (evaluated : r = i.evaluate m mode levels script s) :
    ∃ mode levels script s, q = i.evaluate m mode levels script s := by
  obtain ⟨depth, deeper⟩ := within.exists_atDepth
  obtain ⟨mode', left, script', t, _, evaluated⟩ := i.exists_evaluate_of_atDepth m deeper evaluated
  exact ⟨mode', left, script', t, evaluated⟩

/-- What every statement keeps, from the state after its spans to its end, a whole evaluation
keeps. -/
theorem rel_evaluate {R : State → State → Prop} (refl : ∀ s, R s s)
    (trans : ∀ {s t u}, R s t → R t u → R s u)
    (finish : ∀ x : Expansion, R x.state (i.finish m x).2)
    (mode : Mode) (levels : Nat) (script : String) (s : State) :
    R s (i.evaluate m mode levels script s).stop := by
  -- The spans of a level are evaluations on the level below, which the induction covers.
  induction levels generalizing mode script s with
  | zero => exact refl s
  | succ levels ih =>
    have spans : R s (i.expansion m levels script s).state :=
      Expansion.rel_ofPieces refl trans (ih .buffered) _ s
    rw [stop_evaluate_succ]
    exact trans spans (finish _)

theorem finish_of_failures {x : Expansion} (failed : x.failures ≠ []) :
    i.finish m x = (.spansFailed x.failures, x.state) := by
  obtain ⟨e, rest, eq⟩ := List.exists_cons_of_ne_nil failed
  unfold finish
  rw [eq]

theorem finish_of_no_failures {x : Expansion} (succeeded : x.failures = []) :
    i.finish m x =
      match Statement.read (String.ofList x.text) m with
      | .error text => (.noSeparator text, x.state)
      | .ok st => i.statement m st x.state := by
  cases read : Statement.read (String.ofList x.text) m with
  | error text => simp only [finish, succeeded, read]
  | ok st => simp only [finish, succeeded, read]

theorem finish_congr {x y : Expansion} (text : x.text = y.text)
    (failures : x.failures = y.failures) (state : x.state = y.state) :
    i.finish m x = i.finish m y := by
  unfold finish
  rw [text, failures, state]

def context (st : Statement) (s : State) (permission : Permission) : Context :=
  { Context.ofStatement i.settings i.catalog.directory m s.world st with permission }

def ranIn (c : Context) (command : Command) (s : State) : Ending × State :=
  let outcome := (command.body c).run i.outage s
  (.ran c outcome.chunks outcome.result, outcome.state)

variable {i}

private theorem command_cases (builtin : i.catalog = .builtin) (c : Context) (s : State) :
    ((i.command c s).1.isEarly = true ∧ (i.command c s).2 = s) ∨
      ∃ command, Catalog.builtin.command? c.name = some command ∧
        i.command c s = i.ranIn c command s := by
  unfold Interpreter.command
  rw [builtin]
  cases Catalog.builtin.command? c.name with
  | none => exact .inl ⟨rfl, rfl⟩
  | some command => exact .inr ⟨command, rfl, rfl⟩

private theorem statement_cases (builtin : i.catalog = .builtin) (st : Statement) (s : State) :
    ((i.statement m st s).1.isEarly = true ∧ (i.statement m st s).2 = s) ∨
      ∃ permission, i.statement m st s = i.command (i.context m st s permission) s := by
  unfold Interpreter.statement
  dsimp only
  split
  · exact .inr ⟨.strict, rfl⟩
  · split
    · exact .inl ⟨rfl, rfl⟩
    · next modifier found =>
      rw [builtin] at found
      have rise := Catalog.eq_rise_of_modifier? found
      subst rise
      exact .inr ⟨_, rfl⟩

/-- What an evaluation with built-in commands does after its spans: it ends before a command runs
and leaves the state as it is, or it runs the command of its statement. -/
theorem finish_cases (builtin : i.catalog = .builtin) (x : Expansion) :
    ((i.finish m x).1.isEarly = true ∧ (i.finish m x).2 = x.state) ∨
      ∃ st permission command,
        Statement.read (String.ofList x.text) m = .ok st ∧
        Catalog.builtin.command? st.command = some command ∧
        i.finish m x = i.ranIn (i.context m st x.state permission) command x.state := by
  unfold finish
  split
  · exact .inl ⟨rfl, rfl⟩
  · split
    · exact .inl ⟨rfl, rfl⟩
    · next st read =>
      rcases statement_cases m builtin st x.state with early | ⟨permission, run⟩
      · exact .inl early
      · rw [run]
        rcases command_cases builtin (i.context m st x.state permission) x.state with
          early | ⟨command, found, ran⟩
        · exact .inl early
        · exact .inr ⟨st, permission, command, read, found, ran⟩

theorem run_afterSpans_of_ran (builtin : i.catalog = .builtin) {mode : Mode} {levels : Nat}
    {script : String} {s : State} {q : Run} (evaluated : q = i.evaluate m mode levels script s)
    {c : Context} {chunks : List String} {ending : Except Fault Status}
    (ran : q.ending = .ran c chunks ending) :
    ∃ command, Catalog.builtin.command? c.name = some command ∧
      (command.body c).run i.outage q.afterSpans =
        { chunks, result := ending, state := q.stop } := by
  subst evaluated
  cases levels with
  | zero => cases ran
  | succ levels =>
    rw [ending_evaluate_succ] at ran
    rw [afterSpans_evaluate_succ, stop_evaluate_succ]
    generalize i.expansion m levels script s = x at ran ⊢
    rcases finish_cases m builtin x with ⟨early, _⟩ | ⟨st, permission, command, _, found, run⟩
    · rw [ran] at early
      cases early
    · rw [run] at ran ⊢
      cases ran
      exact ⟨command, found, rfl⟩

end Interpreter

end OperatorScript
