import OperatorScript.Proofs.Exactness
import OperatorScript.Proofs.PlainText

/-!
The reading of placeholders, and what is put in for them.

A text is read from left to right, and at each place a placeholder is taken if one begins there. The
percent sign that closes a placeholder is passed with it. The main statement: this reading of a text
is unique, and filling a script puts the text of a field in for each placeholder of the reading and
copies all other characters.
-/

set_option autoImplicit false
set_option relaxedAutoImplicit false

namespace OperatorScript

open Json

def Json.Number.IsZero : Number → Prop
  | .integer value _ => value = 0
  | .real value _ => value = .zero false ∨ value = .zero true

private theorem Binary64.isZero_iff {x : Binary64} :
    x.isZero = true ↔ x = .zero false ∨ x = .zero true := by
  constructor
  · intro zero
    cases x with
    | finite negative mantissa exponent canonical =>
      obtain rfl : mantissa = 0 := by simpa [isZero] using zero
      obtain rfl : exponent = 0 := canonical.2.2.resolve_right (by decide)
      cases negative with
      | false => exact .inl rfl
      | true => exact .inr rfl
    | nan | infinite => cases zero
  · rintro (rfl | rfl) <;> rfl

private theorem Json.Number.isZero_toBinary64_iff (n : Number) :
    n.toBinary64.isZero = true ↔ n.IsZero := by
  cases n with
  | integer value inRange => exact Binary64.isZero_ofInt_iff
  | real value isFinite => exact Binary64.isZero_iff

namespace Placeholder

def NameFront : List Char → Prop
  | [] => True
  | c :: cs => isNameStart c = true ∧ ∀ d ∈ cs, isNameRest d = true

instance : (name : List Char) → Decidable (NameFront name)
  | [] => isTrue trivial
  | c :: cs =>
    decidable_of_iff (isNameStart c = true ∧ cs.all isNameRest = true)
      (and_congr_right' List.all_eq_true)

/-- A placeholder stands at the front of a text: a name that is not empty between two percent signs,
and the rest. -/
structure Opens (text name rest : List Char) : Prop where
  eq_append : text = '%' :: name ++ '%' :: rest
  filled : name ≠ []
  front : NameFront name

/-- The pieces of a text in the reading from left to right: a placeholder wherever one begins, and a
character wherever none does. -/
inductive Leftmost : List Char → List Piece → Prop
  | nil : Leftmost [] []
  | field {text name rest : List Char} {pieces : List Piece} (opens : Opens text name rest)
      (tail : Leftmost rest pieces) : Leftmost text (.field name :: pieces)
  | char {c : Char} {rest : List Char} {pieces : List Piece}
      (closed : ∀ name after, ¬ Opens (c :: rest) name after) (tail : Leftmost rest pieces) :
      Leftmost (c :: rest) (.char c :: pieces)

private theorem NameFront.percent {name : List Char} (front : NameFront name) : '%' ∉ name := by
  cases name with
  | nil => exact List.not_mem_nil
  | cons c cs =>
    intro member
    rcases List.mem_cons.mp member with rfl | member
    · exact absurd front.1 (by decide)
    · exact absurd (front.2 '%' member) (by decide)

def continues (name : List Char) (c : Char) : Bool :=
  if name.isEmpty then isNameStart c else isNameRest c

private theorem nameFront_append_cons {name cs : List Char} {c : Char} :
    NameFront (name ++ c :: cs) ↔
      NameFront name ∧ continues name c = true ∧ ∀ d ∈ cs, isNameRest d = true := by
  cases name with
  | nil => simp [NameFront, continues]
  | cons d name =>
    simp only [List.cons_append, NameFront, continues, List.forall_mem_append,
      List.forall_mem_cons, List.isEmpty_cons, Bool.false_eq_true, if_false]
    tauto

private theorem Opens.unique {text name other rest left : List Char} (first : Opens text name rest)
    (second : Opens text other left) : name = other ∧ rest = left := by
  have same := (List.cons.inj (first.eq_append.symm.trans second.eq_append)).2
  exact Span.eq_of_append_cons_eq first.front.percent second.front.percent same

private theorem Leftmost.unique {text : List Char} {pieces others : List Piece}
    (first : Leftmost text pieces) (second : Leftmost text others) : pieces = others := by
  induction first generalizing others with
  | nil =>
    cases second with
    | nil => rfl
    | field opens => cases opens.eq_append
  | field opens _ ih =>
    cases second with
    | nil => cases opens.eq_append
    | field opens' tail =>
      obtain ⟨rfl, rfl⟩ := opens.unique opens'
      rw [ih tail]
    | char closed => exact (closed _ _ opens).elim
  | char closed _ ih =>
    cases second with
    | field opens => exact (closed _ _ opens).elim
    | char _ tail => rw [ih tail]

private theorem not_opens_of_ne {c : Char} (ne : c ≠ '%') {cs name rest : List Char} :
    ¬ Opens (c :: cs) name rest :=
  fun opens => ne (List.cons.inj opens.eq_append).1

private theorem Leftmost.of_no_percent {stretch cs : List Char} {pieces : List Piece}
    (plain : '%' ∉ stretch) (tail : Leftmost cs pieces) :
    Leftmost (stretch ++ cs) (stretch.map Piece.char ++ pieces) := by
  induction stretch with
  | nil => exact tail
  | cons c stretch ih =>
    obtain ⟨ne, later⟩ := List.ne_and_not_mem_of_not_mem_cons plain
    exact .char (fun _ _ => not_opens_of_ne (Ne.symm ne)) (ih later)

def Breaks (name cs : List Char) : Prop :=
  ∀ c ∈ cs.head?, continues name c = false ∧ (c = '%' → name = [])

private theorem not_opens_of_breaks {name cs other rest : List Char} (breaks : Breaks name cs)
    (front : NameFront name) : ¬ Opens ('%' :: name ++ cs) other rest := by
  intro opens
  have eq : name ++ cs = other ++ '%' :: rest := (List.cons.inj opens.eq_append).2
  obtain ⟨between, rfl, back⟩ :
      ∃ between, other = name ++ between ∧ cs = between ++ '%' :: rest := by
    rcases List.append_eq_append_iff.mp eq with longer | ⟨between, shorter, back⟩
    · exact longer
    · cases between with
      | nil => exact ⟨[], by simp [shorter], by simpa using back.symm⟩
      | cons c between =>
        obtain ⟨rfl, -⟩ := List.cons.inj back
        exact (front.percent (by simp [shorter])).elim
  subst back
  cases between with
  | nil => exact opens.filled (by simp [(breaks '%' rfl).2 rfl])
  | cons c between =>
    have goesOn := (nameFront_append_cons.mp opens.front).2.1
    rw [(breaks c rfl).1] at goesOn
    cases goesOn

private theorem Leftmost.of_breaks {name cs : List Char} {pieces : List Piece}
    (breaks : Breaks name cs) (front : NameFront name) (tail : Leftmost cs pieces) :
    Leftmost ('%' :: name ++ cs) (.char '%' :: name.map Piece.char ++ pieces) :=
  .char (fun _ _ => not_opens_of_breaks breaks front) (.of_no_percent front.percent tail)

def Opened.Clean : Opened → Prop
  | none => True
  | some name => NameFront name.reverse

private theorem leftmost_scanFrom {opened : Opened} (cs : List Char) (clean : opened.Clean) :
    Leftmost (opened.source ++ cs) (scanFrom opened cs) := by
  fun_induction scanFrom opened cs with
  | case1 opened =>
    cases opened with
    | none => exact .nil
    | some name =>
      have broken : Breaks name.reverse [] := by
        intro c member
        cases member
      simpa [Opened.source, unread] using Leftmost.of_breaks broken clean .nil
  | case2 cs ih => exact ih trivial
  | case3 c cs percent ih => exact .char (fun _ _ => not_opens_of_ne percent) (ih trivial)
  | case4 name cs empty ih =>
    obtain rfl : name = [] := List.isEmpty_iff.mp empty
    have broken : Breaks [] ('%' :: cs) := by
      rintro c ⟨rfl⟩
      exact ⟨by decide, fun _ => rfl⟩
    exact .char (fun _ _ => not_opens_of_breaks broken trivial) (ih trivial)
  | case5 name cs filled ih =>
    have opens : Opens (Opened.source (some name) ++ '%' :: cs) name.reverse cs :=
      ⟨rfl, by simpa using filled, clean⟩
    exact .field opens (ih trivial)
  | case6 name c cs percent named ih =>
    have longer : NameFront (c :: name).reverse := by
      rw [List.reverse_cons, nameFront_append_cons]
      exact ⟨clean, by simpa [continues] using named, List.forall_mem_nil _⟩
    simpa [Opened.source] using ih longer
  | case7 name c cs percent unnamed ih =>
    have broken : Breaks name.reverse (c :: cs) := by
      rintro d ⟨rfl⟩
      exact ⟨by simpa [continues] using unnamed, fun eq => absurd eq percent⟩
    have tail : Leftmost (c :: cs) (.char c :: scanFrom none cs) :=
      .char (fun _ _ => not_opens_of_ne percent) (ih trivial)
    exact .of_breaks broken clean tail

/-- The scan finds the one leftmost reading of a text. -/
theorem leftmost_iff {text : List Char} {pieces : List Piece} :
    Leftmost text pieces ↔ pieces = scan text := by
  have found : Leftmost (Opened.source none ++ text) (scan text) := leftmost_scanFrom text trivial
  constructor
  · intro reading
    exact reading.unique found
  · rintro rfl
    exact found

private theorem forall_isField_scan_iff {text : List Char} :
    (∀ piece ∈ scan text, piece.isField = false) ↔
      ∀ back name rest, back <:+ text → ¬ Opens back name rest := by
  have reading : Leftmost text (scan text) := leftmost_iff.mpr rfl
  generalize scan text = pieces at reading
  induction reading with
  | nil =>
    refine ⟨fun _ back name rest inside opens => ?_, fun _ piece member => nomatch member⟩
    rw [List.suffix_nil.mp inside] at opens
    cases opens.eq_append
  | @field text name rest pieces opens tail ih =>
    constructor
    · intro plain
      cases plain _ List.mem_cons_self
    · intro closed
      exact (closed text name rest List.suffix_rfl opens).elim
  | @char c rest pieces closed tail ih =>
    rw [List.forall_mem_cons]
    constructor
    · rintro ⟨-, later⟩ back name after inside
      rcases List.suffix_cons_iff.mp inside with rfl | inside
      · exact closed name after
      · exact ih.mp later back name after inside
    · intro none
      refine ⟨rfl, ih.mpr fun back name after inside => ?_⟩
      exact none back name after (inside.trans (List.suffix_cons c rest))

/-- What is put in for a field: a text that is not empty as it is; `true`, numbers other than zero,
arrays and objects as JSON; and a word for everything else. -/
inductive StandsFor : Option Value → String → Prop
  | absent : StandsFor none "undefined"
  | null : StandsFor (some .null) "undefined"
  | no : StandsFor (some (.bool false)) "undefined"
  | yes : StandsFor (some (.bool true)) (Value.bool true).compact
  | zero {n : Number} (zero : n.IsZero) : StandsFor (some (.num n)) "undefined"
  | number {n : Number} (filled : ¬ n.IsZero) : StandsFor (some (.num n)) (Value.num n).compact
  | empty : StandsFor (some (.str "")) "undefined"
  | text {s : String} (filled : s ≠ "") : StandsFor (some (.str s)) s
  | array (items : List Value) : StandsFor (some (.arr items)) (Value.arr items).compact
  | object (members : Record) : StandsFor (some (.obj members)) (Value.obj members).compact

private theorem isShown_num_iff {n : Number} : isShown (.num n) = true ↔ ¬ n.IsZero := by
  rw [← n.isZero_toBinary64_iff]
  simp [isShown]

theorem standsFor_fieldText (value : Option Value) : StandsFor value (fieldText value) := by
  cases value with
  | none => exact .absent
  | some value =>
    cases value with
    | null => exact .null
    | bool b =>
      cases b with
      | false => exact .no
      | true => exact .yes
    | num n =>
      by_cases shown : isShown (.num n) = true
      · have text : fieldText (some (.num n)) = (Value.num n).compact := by simp [fieldText, shown]
        rw [text]
        exact .number (isShown_num_iff.mp shown)
      · have text : fieldText (some (.num n)) = "undefined" := by simp [fieldText, shown]
        rw [text]
        exact .zero (not_not.mp (mt isShown_num_iff.mpr shown))
    | str s =>
      by_cases empty : s = ""
      · subst empty
        exact .empty
      · have text : fieldText (some (.str s)) = s := by simp [fieldText, isShown, empty]
        rw [text]
        exact .text empty
    | arr items => exact .array items
    | obj members => exact .object members

private theorem StandsFor.eq_fieldText {value : Option Value} {text : String}
    (standsFor : StandsFor value text) : text = fieldText value := by
  cases standsFor with
  | zero zero => simp [fieldText, isShown_num_iff, zero]
  | number filled => simp [fieldText, isShown_num_iff, filled]
  | text filled => simp [fieldText, isShown, filled]
  | _ => rfl

/-- The text that pieces become: characters are copied, and each placeholder gives way to what
stands for its field. -/
inductive Becomes (m : Message) : List Piece → List Char → Prop
  | nil : Becomes m [] []
  | char {c : Char} {rest : List Piece} {out : List Char} (tail : Becomes m rest out) :
      Becomes m (.char c :: rest) (c :: out)
  | field {name : List Char} {text : String} {rest : List Piece} {out : List Char}
      (standsFor : StandsFor (m.field? (String.ofList name)) text) (tail : Becomes m rest out) :
      Becomes m (.field name :: rest) (text.toList ++ out)

private theorem becomes_iff {m : Message} {pieces : List Piece} {out : List Char} :
    Becomes m pieces out ↔ out = pieces.flatMap (Piece.render m) := by
  constructor
  · intro becomes
    induction becomes with
    | nil => rfl
    | char _ ih => rw [ih]; rfl
    | field standsFor _ ih => rw [ih, standsFor.eq_fieldText]; rfl
  · rintro rfl
    induction pieces with
    | nil => exact .nil
    | cons piece rest ih =>
      cases piece with
      | char c => exact .char ih
      | field name => exact .field (standsFor_fieldText _) ih

/-- Filling a script is one substitution along the one reading of it from left to right: characters
outside placeholders are copied, each placeholder gives way to what stands for its field, and
nothing that was put in is read. -/
theorem one_pass (script : String) (m : Message) :
    ∃ pieces,
      (∀ reading, Leftmost script.toList reading ↔ reading = pieces) ∧
      (∀ out : String, Becomes m pieces out.toList ↔ out = fill script m) ∧
      ((∀ back name rest, back <:+ script.toList → ¬ Opens back name rest) →
        fill script m = script) := by
  refine ⟨scan script.toList, fun _ => leftmost_iff, fun out => ?_, fun none => ?_⟩
  · rw [becomes_iff, fill, ← String.ofList_inj, String.ofList_toList]
  · rw [fill, flatMap_render m (forall_isField_scan_iff.mpr none), flatMap_source_scan,
      String.ofList_toList]

theorem one_pass_of_adjacent_percent_signs :
    let m : Message :=
      { sender := "5",
        fields := [("a", .str "%b"), ("list", .arr []), ("zero", .num (.real (.zero true) rfl))] }
    let script := "100%a%b%%a%%zero%%senderID%list%"
    (∃ pieces,
      (∀ reading, Leftmost script.toList reading ↔ reading = pieces) ∧
      (∀ out : String, Becomes m pieces out.toList ↔ out = fill script m) ∧
      pieces = "100".toList.map .char ++
        [.field ['a'], .char 'b', .char '%', .field ['a'], .field "zero".toList,
          .field "senderID".toList] ++ "list%".toList.map .char ∧
      fill script m = "100%bb%%bundefined5list%") ∧
    (∀ back name rest, back <:+ "100% and 50%".toList → ¬ Opens back name rest) ∧
      fill "100% and 50%" m = "100% and 50%" := by
  intro m script
  obtain ⟨pieces, reading, becomes, -⟩ := one_pass script m
  obtain ⟨_, _, _, unchanged⟩ := one_pass "100% and 50%" m
  have scanned : scan script.toList = pieces := (reading _).mp (leftmost_iff.mpr rfl)
  have none : ∀ back name rest, back <:+ "100% and 50%".toList → ¬ Opens back name rest :=
    forall_isField_scan_iff.mp (by decide +kernel)
  refine ⟨⟨pieces, reading, becomes, ?_, by decide +kernel⟩, none, unchanged none⟩
  rw [← scanned]
  decide +kernel

end Placeholder

end OperatorScript
