import Mathlib.Data.List.DropRight
import OperatorScript.Text.Blank

/-!
Parts of a text: its segments between separators, and what is left of it without the blanks around
it.

Both are told by what the text is made of. The main statements: every text has one list of segments,
which are its stretches; and one core, which is what trimming leaves.
-/

set_option autoImplicit false
set_option relaxedAutoImplicit false

namespace OperatorScript.Text

/-- The segments of a text: joined by the separator they are the text, and it stands in none of
them. -/
structure Segments (sep : Char) (text : String) (segments : List String) : Prop where
  filled : segments ≠ []
  joined : text = join (String.singleton sep) segments
  uncut : ∀ segment ∈ segments, sep ∉ segment.toList

/-- What is left of a text without the blanks around it. -/
structure Trims (text core : String) : Prop where
  around : ∃ front back, text.toList = front ++ core.toList ++ back ∧
    (∀ c ∈ front, isBlank c = true) ∧ ∀ c ∈ back, isBlank c = true
  first : ∀ c ∈ core.toList.head?, isBlank c = false
  last : ∀ c ∈ core.toList.getLast?, isBlank c = false

variable {sep : Char} {text : String} {segments : List String}

private theorem join_cons (separator segment : String) (filled : segments ≠ []) :
    join separator (segment :: segments) = segment ++ separator ++ join separator segments := by
  cases segments with
  | nil => exact absurd rfl filled
  | cons => rfl

private theorem join_stretches (sep : Char) (cs : List Char) :
    (join (String.singleton sep) ((stretches (· == sep) cs).map String.ofList)).toList = cs := by
  induction cs with
  | nil => rfl
  | cons c cs ih =>
    obtain ⟨w, ws, eq⟩ := List.exists_cons_of_ne_nil (stretches_ne_nil (· == sep) cs)
    by_cases cut : c = sep
    · subst cut
      have filled : (stretches (· == c) cs).map String.ofList ≠ [] := by simp [eq]
      simp [stretches, join_cons _ _ filled, ih]
    · have uncut : (c == sep) = false := by simpa using cut
      simp only [stretches, uncut, eq, Bool.false_eq_true, if_false, List.map_cons]
      rw [eq, List.map_cons] at ih
      cases ws with
      | nil => simpa [join] using ih
      | cons next ws => simpa [join] using ih

theorem segments_iff :
    Segments sep text segments ↔
      segments = (stretches (· == sep) text.toList).map String.ofList := by
  constructor
  · rintro ⟨filled, rfl, uncut⟩
    induction segments with
    | nil => exact absurd rfl filled
    | cons segment rest ih =>
      obtain ⟨first, others⟩ := List.forall_mem_cons.mp uncut
      have whole : stretches (· == sep) segment.toList = [segment.toList] :=
        stretches_of_uncut fun c inside => by
          simpa using fun eq : c = sep => first (eq ▸ inside)
      by_cases alone : rest = []
      · simp [alone, join, whole]
      · have parted : (join (String.singleton sep) (segment :: rest)).toList =
            segment.toList ++ sep :: (join (String.singleton sep) rest).toList := by
          simp [join_cons _ _ alone]
        rw [parted, stretches_append _ _ (by simp), whole, List.map_append, ← ih alone others]
        simp
  · rintro rfl
    refine ⟨by simp [stretches_ne_nil], ?_, ?_⟩
    · rw [← String.toList_inj, join_stretches]
    · intro segment member inside
      obtain ⟨w, stretch, rfl⟩ := List.mem_map.mp member
      rw [String.toList_ofList] at inside
      have plain := eq_false_of_mem_stretches stretch inside
      simp at plain

private theorem dropWhile_append_of_head? {p : Char → Bool} {front cs : List Char}
    (dropped : ∀ c ∈ front, p c = true) (kept : ∀ c ∈ cs.head?, p c = false) :
    (front ++ cs).dropWhile p = cs := by
  induction front with
  | nil =>
    cases cs with
    | nil => rfl
    | cons c cs => simp [kept c rfl]
  | cons c front ih =>
    obtain ⟨first, others⟩ := List.forall_mem_cons.mp dropped
    simpa [first] using ih others

private theorem trimChars_append {front core back : List Char}
    (before : ∀ c ∈ front, isBlank c = true)
    (after : ∀ c ∈ back, isBlank c = true) (first : ∀ c ∈ core.head?, isBlank c = false)
    (last : ∀ c ∈ core.getLast?, isBlank c = false) :
    trimChars (front ++ core ++ back) = core := by
  by_cases empty : core = []
  · subst empty
    have blank : ∀ c ∈ front ++ back, isBlank c = true :=
      List.forall_mem_append.mpr ⟨before, after⟩
    have nothing : (front ++ back ++ []).dropWhile isBlank = [] :=
      dropWhile_append_of_head? blank (by simp)
    rw [List.append_nil] at nothing
    simp [trimChars, nothing]
  · have head : ∀ c ∈ (core ++ back).head?, isBlank c = false := by
      rwa [List.head?_append_of_ne_nil _ empty]
    have ending : (core ++ back).reverse = back.reverse ++ core.reverse := List.reverse_append
    rw [trimChars, List.append_assoc, dropWhile_append_of_head? before head, ending,
      dropWhile_append_of_head? (by simpa using after) (by simpa using last),
      List.reverse_reverse]

theorem trims_iff {core : String} : Trims text core ↔ core = trim text := by
  constructor
  · rintro ⟨⟨front, back, eq, before, after⟩, first, last⟩
    rw [trim, eq, trimChars_append before after first last, String.ofList_toList]
  · rintro rfl
    let rest := text.toList.dropWhile isBlank
    have core : (trim text).toList = rest.rdropWhile isBlank := String.toList_ofList
    refine ⟨⟨text.toList.takeWhile isBlank, rest.rtakeWhile isBlank, ?_, ?_, ?_⟩, ?_, ?_⟩
    · rw [core, List.append_assoc, List.rdropWhile_append_rtakeWhile,
        List.takeWhile_append_dropWhile]
    · exact fun c => List.mem_takeWhile_imp
    · exact fun c => List.mem_rtakeWhile_imp
    · intro c head
      rw [core] at head
      obtain ⟨cs, starts⟩ := List.head?_eq_some_iff.mp head
      obtain ⟨more, whole⟩ := rest.rdropWhile_prefix isBlank
      have stops := List.head?_dropWhile_not isBlank text.toList
      have front : text.toList.dropWhile isBlank = c :: (cs ++ more) := by
        rw [← List.cons_append, ← starts, whole]
      rwa [front] at stops
    · intro c ends
      rw [core] at ends
      obtain ⟨filled, rfl⟩ := List.mem_getLast?_eq_getLast ends
      simpa using rest.rdropWhile_last_not isBlank filled

end OperatorScript.Text
