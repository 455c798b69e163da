import Mathlib.Data.List.Infix
import OperatorScript.Proofs.Lexing
import OperatorScript.Proofs.PlainText
import OperatorScript.Proofs.Splice

/-!
The flag that is appended to the script of a span.

The script of a span is evaluated with `--raw` behind it. A space stands before the flag, and none
of its characters can close a placeholder or a span or separate a command from its target; so it
stays where it is at every stage. The main statement: a command in a span runs as it is written,
with one flag more.
-/

set_option autoImplicit false
set_option relaxedAutoImplicit false

namespace OperatorScript

private theorem append_raw (script : String) : script ++ " --raw" = script ++ " " ++ "--raw" := by
  rw [String.append_assoc]
  rfl

private theorem toList_append_raw (script : String) :
    (script ++ " --raw").toList = script.toList ++ ' ' :: "--raw".toList := by
  rw [String.toList_append]
  rfl

private theorem Placeholder.fill_append_space {plain : String} (percent : '%' ∉ plain.toList)
    (script : String) (m : Message) :
    fill (script ++ " " ++ plain) m = fill script m ++ " " ++ plain := by
  have text : (script ++ " " ++ plain).toList = script.toList ++ ' ' :: plain.toList := by simp
  have read : scan (script.toList ++ ' ' :: plain.toList) =
      scan script.toList ++ (' ' :: plain.toList).map Piece.char := by
    rw [scan, scanFrom_append_space, scanFrom_of_no_percent percent]
    rfl
  rw [← String.toList_inj, fill, text, read, List.flatMap_append, flatMap_render_map_char, fill]
  simp

namespace Span

private theorem Leftmost.append_space {text after : List Char} {pieces : List Piece}
    (reading : Leftmost text pieces) (bracket : ']' ∉ after) :
    Leftmost (text ++ ' ' :: after) (pieces ++ (' ' :: after).map Piece.char) := by
  induction reading with
  | nil =>
    have stretch : ']' ∉ ' ' :: after := by simpa using bracket
    simpa using Leftmost.of_endsLine stretch (.inl rfl) .nil
  | span opens _ ih =>
    refine .span ⟨?_, opens.bracket, opens.lineEnd⟩ ih
    rw [opens.eq_append, List.append_assoc, List.cons_append]
  | @char c rest _ closed _ ih =>
    refine .char (fun inner behind opens => ?_) ih
    have whole : c :: rest ++ ' ' :: after = [] ++ (c :: (rest ++ ' ' :: after)) := rfl
    obtain ⟨kept, left, eq, opens⟩ := exists_opens_of_append whole opens bracket
    rw [List.nil_append] at eq
    exact closed inner left (eq ▸ opens)

private theorem scan_append_space {after : List Char} (bracket : ']' ∉ after) (text : List Char) :
    scan (text ++ ' ' :: after) = scan text ++ (' ' :: after).map Piece.char :=
  (leftmost_iff.mp ((leftmost_iff.mpr rfl).append_space bracket)).symm

end Span

namespace Text

private theorem not_infix_append {sep front back : List Char} (filled : sep ≠ [])
    (apart : ∀ c ∈ sep, c ∉ back) (absent : ¬ sep <:+: front) : ¬ sep <:+: front ++ back := by
  have shared {part : List Char} (filled : part ≠ []) (ofSep : part ⊆ sep) :
      ¬ part <:+: back := by
    intro inside
    obtain ⟨c, rest, rfl⟩ := List.exists_cons_of_ne_nil filled
    exact apart c (ofSep List.mem_cons_self) (inside.mem List.mem_cons_self)
  rw [List.infix_append_iff_ne_nil]
  rintro (inside | inside | ⟨first, last, -, lastFilled, rfl, -, inside⟩)
  · exact absent inside
  · exact shared filled (List.Subset.refl sep) inside
  · exact shared lastFilled (List.subset_append_right first last) inside.isInfix

end Text

def ArgList.withFlag (a : ArgList) (name : String) : ArgList :=
  { args := a.args, flags := a.flags ++ ["--" ++ name], values := a.values.insert name none }

private theorem ArgList.hasFlag_withFlag (a : ArgList) (name : String) :
    (a.withFlag name).hasFlag name = true := by
  simp [withFlag, hasFlag, Dict.contains]

private theorem ArgList.ofTokens_append_flag (ws : List String) (name : String) :
    ofTokens (tokens (ws ++ ["--" ++ name])) = (ofTokens (tokens ws)).withFlag name := by
  have last : tokens ["--" ++ name] = [.flag ("--" ++ name) none] := by
    simp [tokens, isFlag_append]
  rw [tokens_append_of_flag (isFlag_append name), last]
  simp [ofTokens, withFlag, Token.argument?, Token.flag?, Token.entry?, Dict.ofEntries, Dict.merge]

private theorem ArgList.read_append_raw (tail : String) :
    read (tail ++ " --raw") = (read tail).withFlag "raw" := by
  have flag : Text.words "--raw" = ["--" ++ "raw"] := by decide
  rw [append_raw, read, Text.words_append_space, flag, ofTokens_append_flag, read]

private theorem ArgList.read_raw : read "--raw" = (read "").withFlag "raw" := by
  have flag : Text.words "--raw" = [] ++ ["--" ++ "raw"] := by decide
  have none : Text.words "" = [] := by decide
  rw [read, flag, ofTokens_append_flag, read, none]

private theorem Statement.read_append_raw {text : String} {m : Message} {st : Statement}
    (written : Statement.read text m = .ok st) :
    ∃ tail, Statement.read (text ++ " --raw") m = .ok { st with tail } ∧
      ArgList.read tail = (ArgList.read st.tail).withFlag "raw" := by
  unfold Statement.read at written ⊢
  cases cut : Text.cut? "::" text with
  | none =>
    rw [cut] at written
    cases written
  | some parts =>
    obtain ⟨head, rest⟩ := parts
    rw [cut] at written
    simp only [Text.cut?_append_right cut]
    cases parted : Text.cut? " " rest with
    | none =>
      have spaceless : ' ' ∉ rest.toList := by
        rw [← List.singleton_infix_iff]
        exact Text.cut?_eq_none_iff.mp parted
      have longer : Text.cut? " " (rest ++ " --raw") = some (rest, "--raw") := by
        rw [append_raw]
        exact Text.cut?_append rfl spaceless "--raw"
      simp only [parted, longer] at written ⊢
      cases written
      exact ⟨"--raw", rfl, ArgList.read_raw⟩
    | some parts =>
      obtain ⟨target, tail⟩ := parts
      simp only [parted, Text.cut?_append_right parted] at written ⊢
      cases written
      exact ⟨tail ++ " --raw", rfl, ArgList.read_append_raw tail⟩

private theorem Statement.separator_of_append_raw {text : String} {m : Message} {st : Statement}
    (written : Statement.read (text ++ " --raw") m = .ok st) : [':', ':'] <:+: text.toList := by
  refine Decidable.byContradiction fun missing => ?_
  have colon : ':' ∉ ' ' :: "--raw".toList := by decide
  have apart (c : Char) (member : c ∈ [':', ':']) : c ∉ ' ' :: "--raw".toList := by
    obtain rfl : c = ':' := by simpa using member
    exact colon
  have absent : ¬ [':', ':'] <:+: (text ++ " --raw").toList := by
    rw [toList_append_raw]
    exact Text.not_infix_append (by decide) apart missing
  cases written.symm.trans (Statement.read_eq_error_iff.mpr ⟨absent, rfl⟩)

private theorem Statement.exists_read_of_separator {text : String}
    (separator : [':', ':'] <:+: text.toList) (m : Message) :
    ∃ st, Statement.read text m = .ok st := by
  cases written : Statement.read text m with
  | error report => exact ((Statement.read_eq_error_iff.mp written).1 separator).elim
  | ok st => exact ⟨st, rfl⟩

private theorem Expansion.ofPieces_append_map_char (evaluate : String → State → Run)
    (pieces : List Span.Piece) (cs : List Char) (s : State) :
    ofPieces evaluate (pieces ++ cs.map .char) s =
      { ofPieces evaluate pieces s with text := (ofPieces evaluate pieces s).text ++ cs } := by
  induction pieces generalizing s with
  | nil =>
    have plain (piece : Span.Piece) (member : piece ∈ cs.map Span.Piece.char) :
        piece.isSpan = false := by
      obtain ⟨c, _, rfl⟩ := List.mem_map.mp member
      rfl
    rw [List.nil_append, ofPieces_of_no_span s plain, Span.flatMap_source_map_char]
    rfl
  | cons piece rest ih =>
    cases piece with
    | char c => simp only [List.cons_append, ofPieces, ih]
    | span inner => simp only [List.cons_append, ofPieces, ih, List.append_assoc]

namespace Interpreter

variable {i : Interpreter} {m : Message}

private theorem scan_fill_append_raw (script : String) (m : Message) :
    Span.scan (Placeholder.fill (script ++ " --raw") m).toList =
      Span.scan (Placeholder.fill script m).toList ++ " --raw".toList.map .char := by
  have percent : '%' ∉ "--raw".toList := by decide
  have bracket : ']' ∉ "--raw".toList := by decide
  rw [append_raw, Placeholder.fill_append_space percent, ← append_raw, toList_append_raw,
    Span.scan_append_space bracket]
  rfl

private theorem expansion_spanScript (levels : Nat) (inner : List Char) (s : State) :
    i.expansion m levels (spanScript inner) s =
      { i.expansion m levels (String.ofList inner) s with
        text := (i.expansion m levels (String.ofList inner) s).text ++ " --raw".toList } := by
  unfold expansion Expansion.ofScript spanScript
  rw [scan_fill_append_raw, Expansion.ofPieces_append_map_char]

/-- A command in a span runs as it is written, in the state after the spans inside it, with one flag
more. -/
private theorem context_of_spanScript {levels : Nat} {inner : List Char} {s : State} {c : Context}
    (ran : (i.evaluate m .buffered levels (spanScript inner) s).ending.context? = some c) :
    let q := i.evaluate m .buffered levels (spanScript inner) s
    let text := Span.splice (Span.scan (Placeholder.fill (String.ofList inner) m).toList)
      (q.spans.map fun r => (Text.trim r.evaluation.result).toList)
    ∃ st, Statement.read (String.ofList text) m = .ok st ∧
      c = { i.context m st q.afterSpans c.permission with
        args := (ArgList.read st.tail).withFlag "raw" } := by
  cases levels with
  | zero => cases ran
  | succ levels =>
    dsimp only
    rw [ending_evaluate_succ, expansion_spanScript] at ran
    rw [spans_evaluate_succ, afterSpans_evaluate_succ, expansion_spanScript]
    have spliced (succeeded : ∀ r ∈ (i.expansion m levels (String.ofList inner) s).runs,
          r.evaluation.status = .success) :
        (i.expansion m levels (String.ofList inner) s).text =
          Span.splice (Span.scan (Placeholder.fill (String.ofList inner) m).toList)
            ((i.expansion m levels (String.ofList inner) s).runs.map fun r =>
              (Text.trim r.evaluation.result).toList) :=
      Expansion.text_of_succeeded succeeded
    generalize i.expansion m levels (String.ofList inner) s = x at ran spliced ⊢
    obtain ⟨longer, succeeded, written, context⟩ := exists_statement_of_context? ran
    dsimp only at succeeded written context ⊢
    rw [← spliced succeeded]
    rw [String.ofList_append, String.ofList_toList] at written
    obtain ⟨st, short⟩ :=
      Statement.exists_read_of_separator (Statement.separator_of_append_raw written) m
    obtain ⟨tail, long, flagged⟩ := Statement.read_append_raw short
    obtain rfl : longer = { st with tail } := Except.ok.inj (written.symm.trans long)
    refine ⟨st, short, ?_⟩
    rw [context, ← flagged]
    rfl

/-- The flag behind the script of a span is only a flag. Filling and scanning leave it where it is, at
the end. Where a separator stands in a text, the flag changes nothing of the statement but its tail,
and the tail has the same arguments and flags with the flag `raw` behind them. So every command that
runs inside an evaluation, however deep, runs with what is written in its span and with this flag. -/
theorem appended_raw_is_only_a_flag (i : Interpreter) (m : Message) :
    (∀ script : String,
      Placeholder.fill (script ++ " --raw") m = Placeholder.fill script m ++ " --raw" ∧
      Span.scan (Placeholder.fill (script ++ " --raw") m).toList =
        Span.scan (Placeholder.fill script m).toList ++ " --raw".toList.map .char) ∧
    (∀ text : String, [':', ':'] <:+: text.toList → ∃ st tail,
      Statement.read text m = .ok st ∧
      Statement.read (text ++ " --raw") m = .ok { st with tail } ∧
      ArgList.read tail = (ArgList.read st.tail).withFlag "raw") ∧
    ∀ (mode : Mode) (script : String) (s : State) (q : Run) (c : Context),
      q.Inside (i.run m mode script s) → q.ending.context? = some c →
      ∃ inner st, q.script = spanScript inner ∧
        Statement.read
          (String.ofList
            (Span.splice (Span.scan (Placeholder.fill (String.ofList inner) m).toList)
              (q.spans.map fun r => (Text.trim r.evaluation.result).toList))) m = .ok st ∧
        c = { i.context m st q.afterSpans c.permission with
          args := (ArgList.read st.tail).withFlag "raw" } ∧
        c.args.hasFlag "raw" = true := by
  refine ⟨fun script => ⟨?_, scan_fill_append_raw script m⟩, ?_, ?_⟩
  · have percent : '%' ∉ "--raw".toList := by decide
    rw [append_raw, Placeholder.fill_append_space percent, ← append_raw]
  · intro text separator
    obtain ⟨st, written⟩ := Statement.exists_read_of_separator separator m
    obtain ⟨tail, longer, flagged⟩ := Statement.read_append_raw written
    exact ⟨st, tail, written, longer, flagged⟩
  · intro mode script s q c inside ran
    obtain ⟨levels, inner, t, rfl⟩ := exists_evaluate_of_inside inside rfl
    obtain ⟨st, written, context⟩ := context_of_spanScript ran
    refine ⟨inner, st, script_evaluate .., written, context, ?_⟩
    rw [context]
    exact ArgList.hasFlag_withFlag _ "raw"

theorem appended_raw_is_only_a_flag_behind_flags :
    let m : Message := { sender := "5", fields := [("open", .str "neax[")] }
    let outer := ({} : Interpreter).run m .streaming
      "print::self neax[print::self a %open% --raw b --]" { world := {} }
    [':', ':'] <:+: "arg::".toList ∧
      (∃ st tail, Statement.read "arg::" m = .ok st ∧
        Statement.read "arg:: --raw" m = .ok { st with tail } ∧
        ArgList.read tail = (ArgList.read st.tail).withFlag "raw") ∧
      ∃ (q : Run) (c : Context) (inner : List Char) (st : Statement),
        q.Inside outer ∧ q.ending.context? = some c ∧ q.script = spanScript inner ∧
        c.args = (ArgList.read st.tail).withFlag "raw" ∧
        c.args.args = ["a", "neax["] ∧ c.args.flags = ["--raw", "--", "--raw"] ∧
        c.args.flagValue? "raw" = none ∧ c.args.hasFlag "raw" = true := by
  intro m outer
  obtain ⟨_, readings, contexts⟩ := appended_raw_is_only_a_flag {} m
  have separator : [':', ':'] <:+: "arg::".toList := by decide
  refine ⟨separator, readings "arg::" separator, ?_⟩
  have args : outer.spans.map (fun q => q.ending.context?.map Context.args) =
      [some { args := ["a", "neax["], flags := ["--raw", "--", "--raw"]
              values := [("", none), ("raw", none)] }] := by
    decide +kernel
  obtain ⟨q, spans, args⟩ := List.map_eq_singleton_iff.mp args
  obtain ⟨c, ran, args⟩ := Option.map_eq_some_iff.mp args
  have inside : q.Inside outer := ⟨q, by rw [spans]; exact List.mem_singleton_self q, .self q⟩
  obtain ⟨inner, st, script, _, context, raw⟩ := contexts .streaming _ _ q c inside ran
  refine ⟨q, c, inner, st, inside, ran, script, ?_, ?_, ?_, ?_, raw⟩
  · rw [context]
  · rw [args]
  · rw [args]
  · rw [args]
    rfl

end Interpreter

end OperatorScript
