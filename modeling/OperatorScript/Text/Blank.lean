/-!
Blank characters and what is read with them: trimming, words, and pieces between separators.

A blank is a character with the Unicode property White_Space. Every function works on lists of
characters first and is lifted to strings at the end. The main statements: stretches keep every
character but those at which the text is cut, and a cut gives back the text.
-/

set_option autoImplicit false
set_option relaxedAutoImplicit false

namespace OperatorScript.Text

def blanks : List Char :=
  ['\t', '\n', '\x0b', '\x0c', '\r', ' ', '\x85', '\u00a0', '\u1680', '\u2000', '\u2001',
    '\u2002', '\u2003', '\u2004', '\u2005', '\u2006', '\u2007', '\u2008', '\u2009', '\u200a',
    '\u2028', '\u2029', '\u202f', '\u205f', '\u3000']

def isBlank (c : Char) : Bool := blanks.contains c

example : blanks.length = 25 := rfl
example : isBlank ' ' = true ∧ isBlank '\u200b' = false := by decide

def trimChars (cs : List Char) : List Char :=
  ((cs.dropWhile isBlank).reverse.dropWhile isBlank).reverse

/-- The maximal stretches between the characters that satisfy `p`, empty stretches included:
always one more than there are such characters. -/
def stretches (p : Char → Bool) : List Char → List (List Char)
  | [] => [[]]
  | c :: cs =>
    if p c then [] :: stretches p cs
    else
      match stretches p cs with
      | [] => [[c]]
      | w :: ws => (c :: w) :: ws

theorem stretches_ne_nil (p : Char → Bool) (cs : List Char) : stretches p cs ≠ [] := by
  cases cs with
  | nil => simp [stretches]
  | cons c cs =>
    simp only [stretches]
    split
    · simp
    · split <;> simp

private theorem flatten_stretches (p : Char → Bool) (cs : List Char) :
    (stretches p cs).flatten = cs.filter (!p ·) := by
  induction cs with
  | nil => rfl
  | cons c cs ih =>
    simp only [stretches]
    cases cut : p c with
    | true => simpa [cut] using ih
    | false =>
      cases rest : stretches p cs with
      | nil => exact absurd rest (stretches_ne_nil p cs)
      | cons w ws => simp [cut, ← ih, rest]

theorem eq_false_of_mem_stretches {p : Char → Bool} {cs w : List Char} {c : Char}
    (hw : w ∈ stretches p cs) (hc : c ∈ w) : p c = false := by
  have member : c ∈ (stretches p cs).flatten := List.mem_flatten.mpr ⟨w, hw, hc⟩
  rw [flatten_stretches] at member
  simpa using (List.mem_filter.mp member).2

theorem stretches_of_uncut {p : Char → Bool} {w : List Char} (uncut : ∀ c ∈ w, p c = false) :
    stretches p w = [w] := by
  induction w with
  | nil => rfl
  | cons c w ih =>
    obtain ⟨first, rest⟩ := List.forall_mem_cons.mp uncut
    simp [stretches, first, ih rest]

theorem stretches_append {p : Char → Bool} {c : Char} (front back : List Char) (cut : p c = true) :
    stretches p (front ++ c :: back) = stretches p front ++ stretches p back := by
  induction front with
  | nil => simp [stretches, cut]
  | cons d front ih =>
    simp only [List.cons_append, stretches, ih]
    split
    · rfl
    · obtain ⟨w, ws, eq⟩ := List.exists_cons_of_ne_nil (stretches_ne_nil p front)
      simp [eq]

def pieces (p : Char → Bool) (cs : List Char) : List (List Char) :=
  (stretches p cs).filter fun w => !w.isEmpty

theorem mem_pieces {p : Char → Bool} {cs w : List Char} (member : w ∈ pieces p cs) :
    w ≠ [] ∧ ∀ c ∈ w, p c = false := by
  obtain ⟨stretch, filled⟩ := List.mem_filter.mp member
  exact ⟨by simpa using filled, fun c inside => eq_false_of_mem_stretches stretch inside⟩

theorem pieces_of_uncut {p : Char → Bool} {w : List Char} (filled : w ≠ [])
    (uncut : ∀ c ∈ w, p c = false) : pieces p w = [w] := by
  simp [pieces, stretches_of_uncut uncut, filled]

private theorem pieces_append {p : Char → Bool} {c : Char} (front back : List Char)
    (cut : p c = true) :
    pieces p (front ++ c :: back) = pieces p front ++ pieces p back := by
  rw [pieces, stretches_append front back cut, List.filter_append, pieces, pieces]

theorem pieces_append_cons {p : Char → Bool} {w : List Char} {c : Char} (cs : List Char)
    (filled : w ≠ []) (uncut : ∀ c ∈ w, p c = false) (cut : p c = true) :
    pieces p (w ++ c :: cs) = w :: pieces p cs := by
  rw [pieces_append w cs cut, pieces_of_uncut filled uncut, List.singleton_append]

def trim (s : String) : String := String.ofList (trimChars s.toList)

def words (s : String) : List String := (pieces isBlank s.toList).map String.ofList

structure IsWord (s : String) : Prop where
  filled : s ≠ ""
  unbroken : ∀ c ∈ s.toList, isBlank c = false

instance (s : String) : Decidable (IsWord s) :=
  decidable_of_iff (s ≠ "" ∧ (s.toList.all fun c => !isBlank c) = true)
    ⟨fun both => ⟨both.1, by simpa using both.2⟩,
      fun word => ⟨word.filled, by simpa using word.unbroken⟩⟩

theorem IsWord.words_eq {s : String} (word : IsWord s) : words s = [s] := by
  have filled : s.toList ≠ [] := fun empty => word.filled (String.toList_eq_nil_iff.mp empty)
  rw [words, pieces_of_uncut filled word.unbroken, List.map_singleton, String.ofList_toList]

theorem words_append_space (s rest : String) :
    words (s ++ " " ++ rest) = words s ++ words rest := by
  have text : (s ++ " " ++ rest).toList = s.toList ++ ' ' :: rest.toList := by simp
  rw [words, text, pieces_append _ _ (by decide), List.map_append, words, words]

theorem IsWord.words_append {s : String} (word : IsWord s) (rest : String) :
    words (s ++ " " ++ rest) = s :: words rest := by
  rw [words_append_space, word.words_eq, List.singleton_append]

/-- The lower-case text: letters of ASCII are lowered, every other character stays. -/
def lower (s : String) : String := String.ofList (s.toList.map Char.toLower)

def cutChars? (sep : List Char) : List Char → Option (List Char × List Char)
  | [] => if sep.isEmpty then some ([], []) else none
  | c :: cs =>
    if sep.isPrefixOf (c :: cs) then some ([], (c :: cs).drop sep.length)
    else (cutChars? sep cs).map fun (before, after) => (c :: before, after)

private theorem eq_append_of_cutChars? {sep cs before after : List Char}
    (cut : cutChars? sep cs = some (before, after)) : cs = before ++ sep ++ after := by
  induction cs generalizing before after with
  | nil =>
    unfold cutChars? at cut
    split at cut
    · simp_all
    · simp at cut
  | cons c cs ih =>
    unfold cutChars? at cut
    split at cut
    next starts =>
      obtain ⟨rest, eq⟩ := List.isPrefixOf_iff_prefix.mp starts
      simp only [Option.some.injEq, Prod.mk.injEq] at cut
      rw [← cut.1, ← cut.2, ← eq]
      simp
    next =>
      obtain ⟨⟨b, a⟩, found, eq⟩ := Option.map_eq_some_iff.mp cut
      simp only [Prod.mk.injEq] at eq
      rw [← eq.1, ← eq.2, ih found]
      simp

private theorem cutChars?_append {c : Char} {sep before : List Char} (absent : c ∉ before)
    (after : List Char) :
    cutChars? (c :: sep) (before ++ c :: sep ++ after) = some (before, after) := by
  induction before with
  | nil => simp [cutChars?, List.isPrefixOf_iff_prefix]
  | cons d before ih =>
    obtain ⟨ne, later⟩ := List.ne_and_not_mem_of_not_mem_cons absent
    have unread : (c :: sep).isPrefixOf (d :: (before ++ c :: sep ++ after)) = false := by
      simp [List.isPrefixOf, ne]
    simp only [List.cons_append, cutChars?, unread]
    rw [ih later]
    rfl

private theorem cutChars?_eq_none_iff {sep cs : List Char} :
    cutChars? sep cs = none ↔ ¬ sep <:+: cs := by
  induction cs with
  | nil => cases sep <;> simp [cutChars?]
  | cons c cs ih =>
    rw [List.infix_cons_iff]
    unfold cutChars?
    split
    next starts => simp [List.isPrefixOf_iff_prefix.mp starts]
    next starts =>
      have : ¬ sep <+: c :: cs := fun h => starts (List.isPrefixOf_iff_prefix.mpr h)
      simp [ih, this]

private theorem cutChars?_append_right {sep cs front back : List Char}
    (cut : cutChars? sep cs = some (front, back)) (more : List Char) :
    cutChars? sep (cs ++ more) = some (front, back ++ more) := by
  induction cs generalizing front back with
  | nil =>
    unfold cutChars? at cut
    split at cut
    · next empty =>
      obtain rfl : sep = [] := List.isEmpty_iff.mp empty
      cases cut
      cases more <;> rfl
    · cases cut
  | cons c cs ih =>
    unfold cutChars? at cut
    split at cut
    · next starts =>
      have starts := List.isPrefixOf_iff_prefix.mp starts
      have starts' : sep.isPrefixOf (c :: (cs ++ more)) = true :=
        List.isPrefixOf_iff_prefix.mpr (starts.trans (List.prefix_append (c :: cs) more))
      have dropped : (c :: (cs ++ more)).drop sep.length = (c :: cs).drop sep.length ++ more :=
        List.drop_append_of_le_length starts.length_le
      cases cut
      rw [List.cons_append, cutChars?, if_pos starts', dropped]
    · next starts =>
      obtain ⟨⟨front, back⟩, found, eq⟩ := Option.map_eq_some_iff.mp cut
      cases eq
      have fits : sep.length ≤ (c :: cs).length := by
        rw [eq_append_of_cutChars? found]
        simp only [List.length_cons, List.length_append]
        omega
      have starts' : ¬ sep.isPrefixOf (c :: (cs ++ more)) = true := by
        intro longer
        have longer := List.isPrefixOf_iff_prefix.mp longer
        exact starts (List.isPrefixOf_iff_prefix.mpr
          (List.prefix_of_prefix_length_le longer (List.prefix_append (c :: cs) more) fits))
      rw [List.cons_append, cutChars?, if_neg starts', ih found]
      rfl

def cut? (sep : String) (s : String) : Option (String × String) :=
  (cutChars? sep.toList s.toList).map fun (before, after) =>
    (String.ofList before, String.ofList after)

theorem cut?_append {sep before : String} {c : Char} {cs : List Char}
    (starts : sep.toList = c :: cs) (absent : c ∉ before.toList) (after : String) :
    cut? sep (before ++ sep ++ after) = some (before, after) := by
  have text : (before ++ sep ++ after).toList = before.toList ++ c :: cs ++ after.toList := by
    rw [String.toList_append, String.toList_append, starts]
  rw [cut?, text, starts, cutChars?_append absent]
  simp only [Option.map_some, String.ofList_toList]

theorem cut?_eq_none_iff {sep text : String} :
    cut? sep text = none ↔ ¬ sep.toList <:+: text.toList := by
  rw [cut?, Option.map_eq_none_iff, cutChars?_eq_none_iff]

theorem cut?_append_right {sep text front back : String} (cut : cut? sep text = some (front, back))
    (more : String) : cut? sep (text ++ more) = some (front, back ++ more) := by
  obtain ⟨⟨first, last⟩, found, parts⟩ := Option.map_eq_some_iff.mp cut
  obtain ⟨rfl, rfl⟩ := Prod.mk.inj parts
  rw [cut?, String.toList_append, cutChars?_append_right found]
  simp only [Option.map_some, String.ofList_append, String.ofList_toList]

def dropEnding? (ending : String) (s : String) : Option String :=
  let cs := s.toList
  if ending.toList.isSuffixOf cs then
    some (String.ofList (cs.take (cs.length - ending.length)))
  else none

def join (sep : String) : List String → String
  | [] => ""
  | [s] => s
  | s :: rest => s ++ sep ++ join sep rest

theorem isWord_of_mem_words {s word : String} (member : word ∈ words s) : IsWord word := by
  obtain ⟨cs, piece, rfl⟩ := List.mem_map.mp member
  obtain ⟨filled, unbroken⟩ := mem_pieces piece
  refine ⟨fun empty => filled ?_, ?_⟩
  · rw [← String.toList_ofList (l := cs), empty]
    rfl
  · rwa [String.toList_ofList]

theorem words_join {ws : List String} (all : ∀ word ∈ ws, IsWord word) :
    words (join " " ws) = ws := by
  induction ws with
  | nil => rfl
  | cons word rest ih =>
    obtain ⟨first, others⟩ := List.forall_mem_cons.mp all
    cases rest with
    | nil => exact first.words_eq
    | cons next rest => rw [join, first.words_append, ih others]; simp

end OperatorScript.Text
