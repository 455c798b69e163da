import OperatorScript.Proofs.Scan
import OperatorScript.Proofs.Stages

/-!
Plain scripts: scripts in which nothing is put in and nothing is evaluated.

A space ends every hope of a placeholder and every opening of a span. The main statements: a plain
script stays plain if what stands around a part of it is exchanged, and its command runs in the
state in which it is evaluated.
-/

set_option autoImplicit false
set_option relaxedAutoImplicit false

namespace OperatorScript

namespace Placeholder

def Piece.isField : Piece → Bool
  | .char _ => false
  | .field _ => true

theorem scanFrom_append_of_no_percent {cs : List Char} (plain : '%' ∉ cs) (rest : List Char) :
    scanFrom none (cs ++ rest) = cs.map Piece.char ++ scanFrom none rest := by
  induction cs with
  | nil => rfl
  | cons c cs ih =>
    obtain ⟨ne, later⟩ := List.ne_and_not_mem_of_not_mem_cons plain
    simp [scanFrom, Ne.symm ne, ih later]

private theorem isField_of_mem_map_char {cs : List Char} {piece : Piece}
    (member : piece ∈ cs.map Piece.char) : piece.isField = false := by
  obtain ⟨c, _, rfl⟩ := List.mem_map.mp member
  rfl

theorem scanFrom_of_no_percent {cs : List Char} (plain : '%' ∉ cs) :
    scanFrom none cs = cs.map Piece.char := by
  have scanned := scanFrom_append_of_no_percent plain []
  rwa [List.append_nil, scanFrom, unread, List.append_nil] at scanned

theorem isField_of_no_percent {cs : List Char} (plain : '%' ∉ cs) {piece : Piece}
    (member : piece ∈ scanFrom none cs) : piece.isField = false := by
  rw [scanFrom_of_no_percent plain] at member
  exact isField_of_mem_map_char member

theorem scanFrom_append_space (opened : Opened) (front back : List Char) :
    scanFrom opened (front ++ ' ' :: back) =
      scanFrom opened front ++ .char ' ' :: scanFrom none back := by
  fun_induction scanFrom opened front with
  | case1 opened =>
    cases opened with
    | none => rfl
    | some name =>
      have unnamed : ¬ (if name.isEmpty then isNameStart ' ' else isNameRest ' ') = true := by
        split <;> decide
      rw [List.nil_append, scanFrom, if_neg (by decide), if_neg unnamed]
  | case7 name c cs percent unnamed ih =>
    rw [List.cons_append, scanFrom, if_neg percent, if_neg unnamed, ih, List.append_assoc,
      List.cons_append]
  | _ => simp_all [scanFrom]

theorem flatMap_render {pieces : List Piece} (m : Message)
    (plain : ∀ piece ∈ pieces, piece.isField = false) :
    pieces.flatMap (Piece.render m) = pieces.flatMap Piece.source := by
  have same (piece : Piece) (member : piece ∈ pieces) : piece.render m = piece.source := by
    cases piece with
    | char c => rfl
    | field name => cases plain _ member
  rw [List.flatMap, List.map_congr_left same, List.flatMap]

theorem flatMap_render_map_char (m : Message) (cs : List Char) :
    (cs.map Piece.char).flatMap (Piece.render m) = cs := by
  rw [flatMap_render m fun _ => isField_of_mem_map_char, flatMap_source_map_char]

end Placeholder

namespace Span

theorem forall_isSpan_scan_iff {text : List Char} :
    (∀ piece ∈ scan text, piece.isSpan = false) ↔
      ∀ front back inner rest, text = front ++ back → ¬ Opens back inner rest := by
  have reading : Leftmost text (scan text) := leftmost_iff.mpr rfl
  generalize scan text = pieces at reading
  induction reading with
  | nil =>
    refine ⟨fun _ front back inner rest eq opens => ?_, fun _ piece member => nomatch member⟩
    rw [(List.append_eq_nil_iff.mp eq.symm).2] at opens
    simpa [opening] using opens.eq_append
  | @span text inner rest pieces opens tail ih =>
    constructor
    · intro plain
      cases plain _ List.mem_cons_self
    · intro closed
      exact (closed [] text inner rest rfl opens).elim
  | @char c rest pieces closed tail ih =>
    constructor
    · intro plain front back inner after eq
      cases front with
      | nil =>
        rw [List.nil_append] at eq
        rw [← eq]
        exact closed inner after
      | cons d front =>
        have later := ih.mp fun piece member => plain piece (List.mem_cons_of_mem _ member)
        exact later front back inner after (List.cons.inj eq).2
    · intro none piece member
      rcases List.mem_cons.mp member with rfl | member
      · rfl
      · refine ih.mpr (fun front back inner after eq => ?_) piece member
        exact none (c :: front) back inner after (congrArg (c :: ·) eq)

theorem exists_opens_of_append {front back inner rest text after : List Char}
    (eq : text ++ ' ' :: after = front ++ back) (opens : Opens back inner rest)
    (bracket : ']' ∉ after) :
    ∃ kept left, text = front ++ kept ∧ Opens kept inner left := by
  rw [opens.eq_append, ← List.append_assoc, ← List.append_assoc] at eq
  rcases List.append_eq_append_iff.mp eq with ⟨between, _, later⟩ | ⟨between, earlier, later⟩
  · have inside : ']' ∈ ' ' :: after := by simp [later]
    exact (bracket (by simpa using inside)).elim
  · cases between with
    | nil => simp at later
    | cons c between =>
      obtain ⟨rfl, -⟩ := List.cons.inj later
      refine ⟨opening ++ inner ++ ']' :: between, between, ?_, rfl, opens.bracket, opens.lineEnd⟩
      rw [earlier]
      simp only [List.append_assoc]

private theorem exists_front_of_append {front back inner rest before body : List Char}
    (eq : before ++ body = front ++ back) (opens : Opens back inner rest) (letter : 'n' ∉ before) :
    ∃ kept, body = kept ++ back := by
  rcases List.append_eq_append_iff.mp eq with ⟨between, _, later⟩ | ⟨between, earlier, later⟩
  · exact ⟨between, later⟩
  · cases between with
    | nil => exact ⟨[], later.symm⟩
    | cons c between =>
      rw [opens.eq_append] at later
      obtain ⟨rfl, -⟩ := List.cons.inj later
      exact (letter (by simp [earlier])).elim

end Span

structure PlainScript (script : String) : Prop where
  placeholders : ∀ piece ∈ Placeholder.scan script.toList, piece.isField = false
  spans : ∀ piece ∈ Span.scan script.toList, piece.isSpan = false

instance (script : String) : Decidable (PlainScript script) :=
  decidable_of_iff
    ((∀ piece ∈ Placeholder.scan script.toList, piece.isField = false) ∧
      ∀ piece ∈ Span.scan script.toList, piece.isSpan = false)
    ⟨fun both => ⟨both.1, both.2⟩, fun plain => ⟨plain.placeholders, plain.spans⟩⟩

namespace PlainScript

variable {script other : String}

private theorem fill_eq (plain : PlainScript script) (m : Message) :
    Placeholder.fill script m = script := by
  rw [Placeholder.fill, Placeholder.flatMap_render m plain.placeholders,
    Placeholder.flatMap_source_scan, String.ofList_toList]

private theorem spanFree (plain : PlainScript script) (m : Message) : SpanFree script m := by
  rw [SpanFree, plain.fill_eq m]
  exact plain.spans

theorem exchange {before before' body after after' : List Char} (plain : PlainScript script)
    (text : script.toList = before ++ body ++ ' ' :: after)
    (text' : other.toList = before' ++ body ++ ' ' :: after')
    (percent : '%' ∉ before) (percent' : '%' ∉ before') (letter : 'n' ∉ before')
    (percentAfter : '%' ∉ after') (bracket : ']' ∉ after') : PlainScript other where
  placeholders := by
    have known := plain.placeholders
    rw [Placeholder.scan, text, List.append_assoc,
      Placeholder.scanFrom_append_of_no_percent percent,
      Placeholder.scanFrom_append_space] at known
    rw [Placeholder.scan, text', List.append_assoc,
      Placeholder.scanFrom_append_of_no_percent percent',
      Placeholder.scanFrom_append_space]
    intro piece member
    rcases List.mem_append.mp member with member | member
    · exact Placeholder.isField_of_mem_map_char member
    rcases List.mem_append.mp member with member | member
    · exact known piece (List.mem_append_right _ (List.mem_append_left _ member))
    rcases List.mem_cons.mp member with rfl | member
    · rfl
    · exact Placeholder.isField_of_no_percent percentAfter member
  spans := by
    have closed := Span.forall_isSpan_scan_iff.mp plain.spans
    refine Span.forall_isSpan_scan_iff.mpr fun front back inner rest eq opens => ?_
    rw [text'] at eq
    obtain ⟨kept, left, eq, opens⟩ := Span.exists_opens_of_append eq opens bracket
    obtain ⟨skipped, eq⟩ := Span.exists_front_of_append eq opens letter
    refine closed (before ++ skipped) (kept ++ ' ' :: after) inner (left ++ ' ' :: after) ?_ ?_
    · rw [text, eq]
      simp only [List.append_assoc]
    · refine ⟨?_, opens.bracket, opens.lineEnd⟩
      rw [opens.eq_append]
      simp only [List.append_assoc, List.cons_append]

end PlainScript

namespace Interpreter

variable {i : Interpreter} {m : Message}

theorem conclusion_of_plain {script : String} (plain : PlainScript script) {st : Statement}
    (read : Statement.read script m = .ok st) (unmodified : st.modifier = none) {command : Command}
    (found : i.catalog.command? st.command = some command) (mode : Mode) (s : State) :
    (i.run m mode script s).conclusion =
      .ofCommand mode (i.context m st s .strict)
        ((command.body (i.context m st s .strict)).run i.outage s) := by
  have begun := i.expansion_of_spanFree m (plain.spanFree m) maxInlineDepth s
  rw [plain.fill_eq m] at begun
  rw [Interpreter.run, conclusion_evaluate_succ, begun]
  have spans : (Expansion.mk script.toList [] s).failures = [] := rfl
  have whole : Statement.read (String.ofList script.toList) m = .ok st := by
    rw [String.ofList_toList]
    exact read
  rw [finish_of_read spans whole, statement_of_no_modifier unmodified, command_of_found found,
    conclude_ranIn]

end Interpreter

end OperatorScript
