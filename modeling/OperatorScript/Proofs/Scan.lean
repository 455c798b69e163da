import OperatorScript.Script.Span

/-!
The reading of spans: a text is read from left to right, and at each place a span is taken if one
begins there.

The main statement: this reading of a text is unique, and it is the one that `Span.scan` finds. The
scan does not look ahead, so it has to be shown that no span begins in a stretch that it gives up at
the end of a line.
-/

set_option autoImplicit false
set_option relaxedAutoImplicit false

namespace OperatorScript.Span

/-- A span stands at the front of a text: an opening, a script without a closing bracket or the end
of a line in it, the first closing bracket, and the rest. -/
structure Opens (text inner rest : List Char) : Prop where
  eq_append : text = opening ++ inner ++ ']' :: rest
  bracket : ']' ∉ inner
  lineEnd : '\n' ∉ inner

/-- The pieces of a text in the reading from left to right: a span wherever one begins, and a
character wherever none does. -/
inductive Leftmost : List Char → List Piece → Prop
  | nil : Leftmost [] []
  | span {text inner rest : List Char} {pieces : List Piece} (opens : Opens text inner rest)
      (tail : Leftmost rest pieces) : Leftmost text (.span inner :: pieces)
  | char {c : Char} {rest : List Char} {pieces : List Piece}
      (closed : ∀ inner after, ¬ Opens (c :: rest) inner after) (tail : Leftmost rest pieces) :
      Leftmost (c :: rest) (.char c :: pieces)

theorem eq_of_append_cons_eq {sep : Char} {front other back left : List Char}
    (absent : sep ∉ front) (absent' : sep ∉ other)
    (eq : front ++ sep :: back = other ++ sep :: left) : front = other ∧ back = left := by
  induction front generalizing other with
  | nil =>
    cases other with
    | nil => exact ⟨rfl, (List.cons.inj eq).2⟩
    | cons c other => exact (absent' (by simp [(List.cons.inj eq).1])).elim
  | cons c front ih =>
    cases other with
    | nil => exact (absent (by simp [(List.cons.inj eq).1])).elim
    | cons d other =>
      obtain ⟨rfl, same⟩ := List.cons.inj eq
      obtain ⟨rfl, rfl⟩ := ih (fun member => absent (List.mem_cons_of_mem c member))
        (fun member => absent' (List.mem_cons_of_mem c member)) same
      exact ⟨rfl, rfl⟩

private theorem Opens.unique {text inner other rest left : List Char}
    (first : Opens text inner rest)
    (second : Opens text other left) : inner = other ∧ rest = left := by
  have same := first.eq_append.symm.trans second.eq_append
  rw [List.append_assoc, List.append_assoc, List.append_cancel_left_eq] at same
  exact eq_of_append_cons_eq first.bracket second.bracket same

private theorem Leftmost.unique {text : List Char} {pieces others : List Piece}
    (first : Leftmost text pieces) (second : Leftmost text others) : pieces = others := by
  induction first generalizing others with
  | nil =>
    cases second with
    | nil => rfl
    | span opens => simpa [opening] using opens.eq_append
  | span opens _ ih =>
    cases second with
    | nil => simpa [opening] using opens.eq_append
    | span opens' tail =>
      obtain ⟨rfl, rfl⟩ := opens.unique opens'
      rw [ih tail]
    | char closed => exact (closed _ _ opens).elim
  | char closed _ ih =>
    cases second with
    | span opens => exact (closed _ _ opens).elim
    | char _ tail => rw [ih tail]

def EndsLine (cs : List Char) : Prop := cs = [] ∨ ∃ rest, cs = '\n' :: rest

private theorem not_opens_of_endsLine {stretch cs inner rest : List Char} (bracket : ']' ∉ stretch)
    (ends : EndsLine cs) : ¬ Opens (stretch ++ cs) inner rest := by
  intro opens
  have eq := opens.eq_append
  have lineEnd : '\n' ∉ opening ++ inner := by
    have := opens.lineEnd
    simp [opening, this]
  rcases ends with rfl | ⟨after, rfl⟩
  · rw [List.append_nil] at eq
    exact bracket (by simp [eq])
  · -- The first bracket lies behind the end of the line, which would then lie in the script.
    rcases List.append_eq_append_iff.mp eq with ⟨between, front, back⟩ | ⟨between, front, back⟩
    · cases between with
      | nil => simp at back
      | cons c between =>
        obtain ⟨rfl, -⟩ := List.cons.inj back
        exact lineEnd (by simp [front])
    · cases between with
      | nil => simp at back
      | cons c between =>
        obtain ⟨rfl, -⟩ := List.cons.inj back
        exact bracket (by simp [front])

theorem Leftmost.of_endsLine {stretch cs : List Char} {pieces : List Piece}
    (bracket : ']' ∉ stretch) (ends : EndsLine cs) (tail : Leftmost cs pieces) :
    Leftmost (stretch ++ cs) (stretch.map Piece.char ++ pieces) := by
  induction stretch with
  | nil => exact tail
  | cons c stretch ih =>
    have later : ']' ∉ stretch := fun member => bracket (List.mem_cons_of_mem c member)
    exact .char (fun _ _ => not_opens_of_endsLine bracket ends) (ih later)

def Opened.Clean : Opened → Prop
  | none => True
  | some inner => ']' ∉ inner ∧ '\n' ∉ inner

private theorem Opened.Clean.bracket {inner : List Char} (clean : Opened.Clean (some inner)) :
    ']' ∉ opening ++ inner.reverse := by
  simp [opening, clean.1]

private theorem leftmost_scanFrom {opened : Opened} (cs : List Char) (clean : opened.Clean) :
    Leftmost (opened.source ++ cs) (scanFrom opened cs) := by
  fun_induction scanFrom opened cs with
  | case1 opened =>
    cases opened with
    | none => exact .nil
    | some inner =>
      have stretch := Leftmost.of_endsLine clean.bracket (.inl rfl) .nil
      simpa only [Opened.source, unread, List.append_nil] using stretch
  | case2 cs ih => exact ih ⟨List.not_mem_nil, List.not_mem_nil⟩
  | case3 c cs other ih =>
    have closed (inner rest : List Char) : ¬ Opens (c :: cs) inner rest := by
      intro opens
      obtain ⟨rfl, eq⟩ := List.cons.inj opens.eq_append
      exact other _ rfl eq
    exact .char closed (ih trivial)
  | case4 inner cs ih =>
    have opens : Opens (Opened.source (some inner) ++ ']' :: cs) inner.reverse cs :=
      ⟨rfl, by simp [clean.1], by simp [clean.2]⟩
    exact .span opens (ih trivial)
  | case5 inner cs _ ih =>
    have ends : EndsLine ('\n' :: cs) := .inr ⟨cs, rfl⟩
    have closed (inner rest : List Char) : ¬ Opens ([] ++ '\n' :: cs) inner rest :=
      not_opens_of_endsLine List.not_mem_nil ends
    exact .of_endsLine clean.bracket ends (.char closed (ih trivial))
  | case6 inner c cs bracket lineEnd ih =>
    have longer := ih ⟨by simp [clean.1, eq_comm, bracket], by simp [clean.2, eq_comm, lineEnd]⟩
    simpa [Opened.source] using longer

/-- The scan finds the one leftmost reading of a text. -/
theorem leftmost_iff {text : List Char} {pieces : List Piece} :
    Leftmost text pieces ↔ pieces = scan text := by
  have found : Leftmost (Opened.source none ++ text) (scan text) := leftmost_scanFrom text trivial
  constructor
  · intro reading
    exact reading.unique found
  · rintro rfl
    exact found

end OperatorScript.Span
