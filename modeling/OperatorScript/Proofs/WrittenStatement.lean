import OperatorScript.Script.Statement

/-!
Statements that are written and read back.

A script is cut at the first separator that stands in it. Its two colons are alike, so a head that
ends in a colon would give way one character too early. The main statement: if no separator begins
in the head, a written statement is read back part for part, whatever stands in its target and its
tail; and a script is refused only for want of a separator.
-/

set_option autoImplicit false
set_option relaxedAutoImplicit false

namespace OperatorScript

namespace Text

private theorem cutChars?_pair_append {c : Char} {before : List Char}
    (unpaired : ¬ [c, c] <:+: before) (last : before.getLast? ≠ some c) (after : List Char) :
    cutChars? [c, c] (before ++ [c, c] ++ after) = some (before, after) := by
  induction before with
  | nil => simp [cutChars?]
  | cons d before ih =>
    have unread : [c, c].isPrefixOf (d :: (before ++ [c, c] ++ after)) = false := by
      rw [Bool.eq_false_iff, ne_eq, List.isPrefixOf_iff_prefix, List.cons_prefix_cons]
      rintro ⟨rfl, second⟩
      cases before with
      | nil => exact last rfl
      | cons e before =>
        obtain ⟨rfl, -⟩ := List.cons_prefix_cons.mp second
        exact unpaired ⟨[], before, rfl⟩
    have later : ¬ [c, c] <:+: before := fun inside => unpaired (List.infix_cons inside)
    have last' : before.getLast? ≠ some c := by
      intro ends
      rw [List.getLast?_cons, ends] at last
      exact last rfl
    rw [List.cons_append, List.cons_append, cutChars?, unread, ih later last']
    rfl

private theorem cut?_separator_append {head : String} (unseparated : ¬ [':', ':'] <:+: head.toList)
    (last : head.toList.getLast? ≠ some ':') (rest : String) :
    cut? "::" (head ++ "::" ++ rest) = some (head, rest) := by
  have parted := cutChars?_pair_append unseparated last rest.toList
  rw [cut?, String.toList_append, String.toList_append]
  rw [show "::".toList = [':', ':'] from rfl, parted]
  simp only [Option.map_some, String.ofList_toList]

end Text

namespace Statement

def headText (modifier : Option String) (command : String) : String :=
  (match modifier with
    | some m => m ++ " "
    | none => "") ++ command

/-- The parts of a statement that can be told apart once it is written. -/
structure Legible (modifier : Option String) (command target : String) : Prop where
  modifierWord : ∀ word ∈ modifier, Text.IsWord word
  commandWord : Text.IsWord command
  unseparated : ¬ [':', ':'] <:+: (headText modifier command).toList
  last : (headText modifier command).toList.getLast? ≠ some ':'
  spaceless : ' ' ∉ target.toList

/-- The identity that a target as it is written denotes for a message. -/
inductive Denotes (m : Message) : String → String → Prop
  | sender : Denotes m "self" m.sender
  | replied {id : String} (replied : m.repliedTo = some id) : Denotes m "replied" id
  | nobody (alone : m.repliedTo = none) : Denotes m "replied" ""
  | itself {target : String} (self : target ≠ "self") (replied : target ≠ "replied") :
      Denotes m target target

private theorem denotes_iff {m : Message} {target id : String} :
    Denotes m target id ↔ id = resolve m target := by
  constructor
  · intro denotes
    cases denotes with
    | sender => rfl
    | replied replied => rw [resolve, if_neg (by decide), if_pos rfl, replied, Option.getD_some]
    | nobody alone => rw [resolve, if_neg (by decide), if_pos rfl, alone, Option.getD_none]
    | itself self replied => rw [resolve, if_neg self, if_neg replied]
  · rintro rfl
    unfold resolve
    split
    · next self =>
      subst self
      exact .sender
    · next self =>
      split
      · next replied =>
        subst replied
        cases found : m.repliedTo with
        | none => exact .nobody found
        | some id => exact .replied found
      · next replied => exact .itself self replied

private theorem headOfWords_headText {modifier : Option String} {command : String}
    (words : ∀ word ∈ modifier, Text.IsWord word) (isWord : Text.IsWord command) :
    headOfWords (Text.words (headText modifier command)) = (modifier, command) := by
  cases modifier with
  | none =>
    have text : headText none command = command := String.empty_append
    rw [text, isWord.words_eq, headOfWords]
  | some word =>
    have text : headText (some word) command = word ++ " " ++ command := rfl
    rw [text, (words word rfl).words_append, isWord.words_eq, headOfWords]

private theorem cut?_target {target : String} (spaceless : ' ' ∉ target.toList) (tail : String) :
    let rest := target ++ (if tail = "" then "" else " " ++ tail)
    (Text.cut? " " rest).getD (rest, "") = (target, tail) := by
  intro rest
  by_cases empty : tail = ""
  · have text : rest = target := by simp [rest, empty]
    have uncut : Text.cut? " " target = none := by
      rw [Text.cut?_eq_none_iff]
      exact fun inside => spaceless (inside.subset List.mem_cons_self)
    rw [text, uncut, Option.getD_none, empty]
  · have text : rest = target ++ " " ++ tail := by simp [rest, empty, String.append_assoc]
    rw [text, Text.cut?_append rfl spaceless, Option.getD_some]

theorem read_write_of_legible {modifier : Option String} {command target : String}
    (legible : Legible modifier command target) (tail : String) (m : Message) :
    read (write modifier command target tail) m =
      .ok { modifier, command, target := resolve m target, tail } := by
  have text : write modifier command target tail = headText modifier command ++ "::" ++
      (target ++ (if tail = "" then "" else " " ++ tail)) := by
    cases modifier <;> simp only [write, headText, String.append_assoc]
  have separated := Text.cut?_separator_append legible.unseparated legible.last
    (target ++ (if tail = "" then "" else " " ++ tail))
  have head := headOfWords_headText legible.modifierWord legible.commandWord
  have parted := cut?_target legible.spaceless tail
  rw [text]
  simp only [read, separated, head, parted]

/-- Reading undoes writing: a written statement is read back with its modifier, its command, its
tail, and the identity that its target denotes. A script is refused exactly if no separator stands
in it, and is then given back trimmed. -/
theorem read_back_of_written (m : Message) :
    (∀ modifier command target tail, Legible modifier command target →
      ∃ st, read (write modifier command target tail) m = .ok st ∧
        st.modifier = modifier ∧ st.command = command ∧ st.tail = tail ∧
        Denotes m target st.target) ∧
    (∀ script text, read script m = .error text ↔
      ¬ [':', ':'] <:+: script.toList ∧ text = Text.trim script) := by
  constructor
  · intro modifier command target tail legible
    have parts := read_write_of_legible legible tail m
    exact ⟨_, parts, rfl, rfl, rfl, denotes_iff.mpr rfl⟩
  · intro script text
    exact read_eq_error_iff

theorem read_back_of_written_with_colons :
    let m : Message := { sender := "5" }
    let target := ":x::y\tself"
    Legible (some "rise") "a:b" target ∧ Legible none "print" "replied" ∧
      write (some "rise") "a:b" target " p :: q" = "rise a:b:::x::y\tself  p :: q" ∧
      (∃ st, read (write (some "rise") "a:b" target " p :: q") m = .ok st ∧
        st.modifier = some "rise" ∧ st.command = "a:b" ∧ st.tail = " p :: q" ∧
        Denotes m target st.target) ∧
      (∃ st, read (write none "print" "replied" "") m = .ok st ∧
        st.modifier = none ∧ st.command = "print" ∧ st.tail = "" ∧
        Denotes m "replied" st.target) ∧
      read " help : : me " m = .error "help : : me" := by
  intro m target
  have first : Legible (some "rise") "a:b" target :=
    ⟨by rintro word ⟨rfl⟩; decide, by decide, by decide +kernel, by decide +kernel, by decide⟩
  have second : Legible none "print" "replied" :=
    ⟨by rintro word ⟨⟩, by decide, by decide +kernel, by decide +kernel, by decide⟩
  obtain ⟨written, refused⟩ := read_back_of_written m
  exact ⟨first, second, by decide +kernel, written (some "rise") "a:b" target " p :: q" first,
    written none "print" "replied" "" second,
    (refused " help : : me " "help : : me").mpr (by decide +kernel)⟩

end Statement

end OperatorScript
