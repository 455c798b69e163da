import OperatorScript.Proofs.PlainText
import OperatorScript.Proofs.Splice

/-!
Flat spans: evaluations whose spans have no spans inside them.

A span ends at the first closing bracket, so none stands in the script inside it. The flag behind
that script brings none, and no result of a span is read for spans again; only a field of the
message can bring one. The main statement: if no field does, the spans of the script are all that is
evaluated inside it.
-/

set_option autoImplicit false
set_option relaxedAutoImplicit false

namespace OperatorScript

open Json

namespace Run

mutual

def nested : Run → List Run
  | .mk _ _ _ spans _ _ _ => nestedAll spans

def nestedAll : List Run → List Run
  | [] => []
  | r :: rest => r :: (r.nested ++ nestedAll rest)

end

private theorem nestedAll_eq_flatMap (runs : List Run) :
    nestedAll runs = runs.flatMap fun r => r :: r.nested := by
  induction runs with
  | nil => rfl
  | cons r rest ih => rw [nestedAll, ih, List.flatMap_cons, List.cons_append]

private theorem nested_eq_flatMap (r : Run) :
    r.nested = r.spans.flatMap fun x => x :: x.nested := by
  cases r with
  | mk => rw [nested, nestedAll_eq_flatMap, spans]

private theorem Within.eq_or_mem_nested {q r : Run} (within : q.Within r) :
    q = r ∨ q ∈ r.nested := by
  induction within with
  | self => exact .inl rfl
  | @span x r member _ ih =>
    refine .inr ?_
    rw [nested_eq_flatMap]
    exact List.mem_flatMap.mpr ⟨x, member, List.mem_cons.mpr ih⟩

private theorem Inside.mem_nested {q r : Run} (inside : q.Inside r) : q ∈ r.nested := by
  obtain ⟨x, member, within⟩ := inside
  rw [nested_eq_flatMap]
  exact List.mem_flatMap.mpr ⟨x, member, List.mem_cons.mpr within.eq_or_mem_nested⟩

mutual

private theorem inside_of_mem_nested {q : Run} : ∀ r : Run, q ∈ r.nested → q.Inside r
  | .mk _ _ _ spans _ _ _, member => exists_within_of_mem_nestedAll spans member

private theorem exists_within_of_mem_nestedAll {q : Run} :
    ∀ runs : List Run, q ∈ nestedAll runs → ∃ x ∈ runs, q.Within x
  | [], member => nomatch member
  | r :: rest, member => by
    rw [nestedAll, List.mem_cons, List.mem_append] at member
    rcases member with rfl | member | member
    · exact ⟨q, List.mem_cons_self, .self q⟩
    · obtain ⟨x, span, within⟩ := inside_of_mem_nested r member
      exact ⟨r, List.mem_cons_self, .span span within⟩
    · obtain ⟨x, later, within⟩ := exists_within_of_mem_nestedAll rest member
      exact ⟨x, List.mem_cons_of_mem r later, within⟩

end

private theorem mem_nested_iff {q r : Run} : q ∈ r.nested ↔ q.Inside r :=
  ⟨inside_of_mem_nested r, Inside.mem_nested⟩

private theorem nested_of_flat {r : Run} (flat : ∀ x ∈ r.spans, x.spans = []) :
    r.nested = r.spans := by
  have alone (x : Run) (member : x ∈ r.spans) : x :: x.nested = [x] := by
    rw [nested_eq_flatMap x, flat x member, List.flatMap_nil]
  rw [nested_eq_flatMap, List.flatMap, List.map_congr_left alone]
  exact List.flatMap_singleton' r.spans

end Run

private theorem Placeholder.not_mem_fill {c : Char} {script : String} {m : Message}
    (absent : c ∉ script.toList) (fields : ∀ name, c ∉ (fieldText (m.field? name)).toList) :
    c ∉ (fill script m).toList := by
  rw [fill, String.toList_ofList, List.mem_flatMap]
  rintro ⟨piece, member, shown⟩
  cases piece with
  | char d =>
    obtain rfl : c = d := by simpa [Piece.render] using shown
    have inside : c ∈ (scan script.toList).flatMap Piece.source :=
      List.mem_flatMap.mpr ⟨.char c, member, List.mem_singleton_self c⟩
    rw [flatMap_source_scan] at inside
    exact absent inside
  | field name => exact fields _ shown

namespace Message

/-- No field of a message brings a closing bracket. -/
def Bracketless (m : Message) : Prop :=
  ∀ name value, m.field? name = some value →
    ']' ∉ (Placeholder.fieldText (some value)).toList

private theorem mem_members_of_field? {m : Message} {name : String} {value : Value}
    (found : m.field? name = some value) : (name, value) ∈ m.members := by
  unfold members
  rw [List.mem_append, List.mem_append]
  unfold field? at found
  split at found
  · next sender =>
    cases found
    exact .inl (.inl (by rw [sender]; exact List.mem_singleton_self _))
  · split at found
    · next reply =>
      obtain ⟨id, known, rfl⟩ := Option.map_eq_some_iff.mp found
      refine .inl (.inr ?_)
      rw [known, reply]
      exact List.mem_singleton_self _
    · exact .inr (Dict.mem_of_get? found)

private theorem bracketless_of_members {m : Message}
    (shown : ∀ e ∈ m.members, ']' ∉ (Placeholder.fieldText (some e.2)).toList) : m.Bracketless :=
  fun _ _ found => shown _ (mem_members_of_field? found)

variable {m : Message}

private theorem Bracketless.not_mem_fill (bracketless : m.Bracketless) {script : String}
    (plain : ']' ∉ script.toList) : ']' ∉ (Placeholder.fill script m).toList := by
  refine Placeholder.not_mem_fill plain fun name => ?_
  cases found : m.field? name with
  | none => decide
  | some value => exact bracketless name value found

end Message

namespace Span

private theorem not_bracket_mem_inner {text inner : List Char}
    (member : inner ∈ inners (scan text)) :
    ']' ∉ inner := by
  have reading : Leftmost text (scan text) := leftmost_iff.mpr rfl
  generalize scan text = pieces at reading member
  induction reading with
  | nil => cases member
  | span opens _ ih =>
    rcases List.mem_cons.mp member with rfl | member
    · exact opens.bracket
    · exact ih member
  | char _ _ ih => exact ih member

theorem isSpan_of_no_bracket {text : List Char} (plain : ']' ∉ text) :
    ∀ piece ∈ scan text, piece.isSpan = false := by
  refine forall_isSpan_scan_iff.mpr fun front back inner rest eq opens => plain ?_
  rw [eq, opens.eq_append]
  simp

end Span

private theorem Message.Bracketless.spanFree_spanScript {m : Message} (bracketless : m.Bracketless)
    {inner : List Char} (plain : ']' ∉ inner) : SpanFree (spanScript inner) m := by
  refine Span.isSpan_of_no_bracket (bracketless.not_mem_fill ?_)
  have flag : ']' ∉ " --raw".toList := by decide
  rw [spanScript, String.toList_append, String.toList_ofList, List.mem_append]
  exact not_or_intro plain flag

namespace Interpreter

variable {i : Interpreter} {m : Message}

private theorem spans_evaluate_of_spanFree {script : String} (plain : SpanFree script m)
    (mode : Mode) (levels : Nat) (s : State) : (i.evaluate m mode levels script s).spans = [] := by
  cases levels with
  | zero => rfl
  | succ levels => rw [spans_evaluate_succ, i.expansion_of_spanFree m plain]

private theorem scripts_run (mode : Mode) (script : String) (s : State) :
    (i.run m mode script s).spans.map Run.script =
      (Span.inners (Span.scan (Placeholder.fill script m).toList)).map spanScript :=
  (splices_evaluate_succ (Nat.le_succ maxInlineDepth) mode script s).scripts

private theorem spanFree_of_mem_spans (bracketless : m.Bracketless) {mode : Mode} {script : String}
    {s : State} {x : Run} (member : x ∈ (i.run m mode script s).spans) : SpanFree x.script m := by
  have written : x.script ∈ (i.run m mode script s).spans.map Run.script :=
    List.mem_map_of_mem member
  rw [scripts_run] at written
  obtain ⟨inner, found, eq⟩ := List.mem_map.mp written
  rw [← eq]
  exact bracketless.spanFree_spanScript (Span.not_bracket_mem_inner found)

private theorem spans_of_mem_spans (bracketless : m.Bracketless) {mode : Mode} {script : String}
    {s : State} {x : Run} (member : x ∈ (i.run m mode script s).spans) : x.spans = [] := by
  have plain := spanFree_of_mem_spans bracketless member
  obtain ⟨mode', levels, script', t, rfl⟩ :=
    i.exists_evaluate_of_within m (.span member (.self x)) rfl
  rw [script_evaluate] at plain
  exact spans_evaluate_of_spanFree plain mode' levels t

/-- Flat spans, whatever the commands do and whatever they print. If no field of the message brings
a closing bracket, no script inside the run has a span, nothing lies deeper than the spans of the
script, these are all that is evaluated inside the run, and none is refused. -/
theorem flat_spans (i : Interpreter) {m : Message} (bracketless : m.Bracketless) (mode : Mode)
    (script : String) (s : State) :
    let run := i.run m mode script s
    let inners := Span.inners (Span.scan (Placeholder.fill script m).toList)
    (∀ q : Run, q.Inside run → SpanFree q.script m) ∧
      (∀ (depth : Nat) (q : Run), q.AtDepth depth run → depth ≤ 1) ∧
      run.nested.map Run.script = inners.map spanScript ∧
      run.nested.length = inners.length ∧
      ∀ q : Run, q.Within run → q.ending ≠ .tooDeep := by
  intro run inners
  have flat (x : Run) (member : x ∈ run.spans) : x.spans = [] :=
    spans_of_mem_spans bracketless member
  have nested : run.nested = run.spans := Run.nested_of_flat flat
  have shallow (depth : Nat) (q : Run) (deeper : q.AtDepth depth run) : depth ≤ 1 := by
    cases deeper with
    | self => exact Nat.zero_le 1
    | span member deeper =>
      cases deeper with
      | self => exact Nat.le_refl 1
      | span deepest =>
        rw [flat _ member] at deepest
        cases deepest
  have scripts : run.nested.map Run.script = inners.map spanScript := by
    rw [nested]
    exact scripts_run mode script s
  refine ⟨?_, shallow, scripts, ?_, ?_⟩
  · intro q inside
    have member : q ∈ run.spans := nested ▸ Run.mem_nested_iff.mpr inside
    exact spanFree_of_mem_spans bracketless member
  · simpa using congrArg List.length scripts
  · intro q within
    obtain ⟨depth, deeper⟩ := within.exists_atDepth
    have limit := (refused_iff_of_atDepth deeper).2.1
    have bound := shallow depth q deeper
    rw [Ne, limit, maxInlineDepth]
    omega

theorem flat_spans_of_spans_in_output :
    let m : Message := { sender := "5", fields := [("loop", .str "neax[print::self %loop%")] }
    let s : State := { world := { users := [("5", [("n", .str "neax[num:: 1]")])] } }
    let script := "print::self %loop%] neax[uget::self n]"
    let run := ({} : Interpreter).run m .streaming script s
    m.Bracketless ∧
      run.nested.map Run.script = ["print::self %loop% --raw", "uget::self n --raw"] ∧
      run.nested.map (fun q => q.evaluation.result) =
        ["neax[print::self %loop%", "neax[num:: 1]"] ∧
      run.evaluation.result = "neax[print::self %loop% neax[num:: 1]" ∧
      run.nested.length = 2 ∧ (∀ q : Run, q.Inside run → SpanFree q.script m) ∧
      ∀ q : Run, q.Within run → q.ending ≠ .tooDeep := by
  intro m s script run
  have bracketless : m.Bracketless := Message.bracketless_of_members (by decide +kernel)
  obtain ⟨spanFree, _, scripts, count, reached⟩ :=
    flat_spans {} bracketless .streaming script s
  have inners : Span.inners (Span.scan (Placeholder.fill script m).toList) =
      ["print::self %loop%".toList, "uget::self n".toList] := by
    decide +kernel
  rw [inners] at scripts count
  obtain ⟨results, printed⟩ :
      run.nested.map (fun q => q.evaluation.result) =
          ["neax[print::self %loop%", "neax[num:: 1]"] ∧
        run.evaluation.result = "neax[print::self %loop% neax[num:: 1]" := by
    decide +kernel
  exact ⟨bracketless, scripts, results, printed, count, spanFree, reached⟩

end Interpreter

end OperatorScript
