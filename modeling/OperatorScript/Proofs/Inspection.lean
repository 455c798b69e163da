import Mathlib.Data.List.TakeWhile
import OperatorScript.Json.Inspect
import OperatorScript.Proofs.Digits

/-!
Inspection tells values apart.

A value whose numbers are integers is found again in front of anything that can follow it: the first
character tells what kind of value it is, and the second how a container is laid out. The main
statement: at depths at which nothing is cut off, two such values are shown alike only if they are
equal, and line ends stand in the layout alone.
-/

set_option autoImplicit false
set_option relaxedAutoImplicit false

namespace OperatorScript

namespace Text

private theorem toList_join_cons (sep p : String) (ps : List String) :
    (join sep (p :: ps)).toList = p.toList ++ ps.flatMap fun q => sep.toList ++ q.toList := by
  induction ps generalizing p with
  | nil => simp [join]
  | cons q ps ih => simp [join, ih]

end Text

namespace Json

@[elab_as_elim]
private theorem Value.parts_induction {P : Value → Prop} (null : P .null) (bool : ∀ b, P (.bool b))
    (num : ∀ n, P (.num n)) (str : ∀ s, P (.str s))
    (arr : ∀ items, (∀ v ∈ items, P v) → P (.arr items))
    (obj : ∀ members, (∀ e ∈ members, P e.2) → P (.obj members)) (v : Value) : P v := by
  match v with
  | .null => exact null
  | .bool b => exact bool b
  | .num n => exact num n
  | .str s => exact str s
  | .arr items => exact arr items fun w _ => parts_induction null bool num str arr obj w
  | .obj members => exact obj members fun e _ => parts_induction null bool num str arr obj e.2
termination_by sizeOf v
decreasing_by
  · have := List.sizeOf_lt_of_mem ‹_›
    simp
    omega
  · have := List.sizeOf_lt_of_mem ‹_›
    obtain ⟨k, w⟩ := e
    simp at this ⊢
    omega

mutual

/-- How many containers with something in them stand one inside the other. -/
def Value.height : Value → Nat
  | .arr items => if items.isEmpty then 0 else heightOfItems items + 1
  | .obj members => if members.isEmpty then 0 else heightOfMembers members + 1
  | _ => 0

def Value.heightOfItems : List Value → Nat
  | [] => 0
  | v :: rest => max v.height (heightOfItems rest)

def Value.heightOfMembers : List (String × Value) → Nat
  | [] => 0
  | (_, v) :: rest => max v.height (heightOfMembers rest)

end

/-- How deep below the outermost container the innermost one with something in it stands. -/
def Value.nesting (v : Value) : Nat := v.height - 1

private theorem Value.height_le_heightOfItems {items : List Value} {v : Value}
    (member : v ∈ items) :
    v.height ≤ heightOfItems items := by
  induction items with
  | nil => cases member
  | cons w rest ih =>
    rw [heightOfItems]
    rcases List.mem_cons.mp member with rfl | later
    · exact Nat.le_max_left _ _
    · exact (ih later).trans (Nat.le_max_right _ _)

private theorem Value.height_le_heightOfMembers {members : List (String × Value)}
    {e : String × Value} (member : e ∈ members) : e.2.height ≤ heightOfMembers members := by
  induction members with
  | nil => cases member
  | cons first rest ih =>
    rw [heightOfMembers]
    rcases List.mem_cons.mp member with rfl | later
    · exact Nat.le_max_left _ _
    · exact (ih later).trans (Nat.le_max_right _ _)

/-- Nothing in a value at this level is cut off at the depth. -/
def Value.Uncut (depth level : Nat) (v : Value) : Prop := level + v.height ≤ depth + 1

private theorem Value.Uncut.item {depth level : Nat} {items : List Value}
    (uncut : Uncut depth level (.arr items)) {v : Value} (member : v ∈ items) :
    v.Uncut depth (level + 1) := by
  have filled : items.isEmpty = false := by
    cases items with
    | nil => cases member
    | cons => rfl
  have inside := height_le_heightOfItems member
  simp only [Uncut, height, filled, Bool.false_eq_true, if_false] at uncut ⊢
  omega

private theorem Value.Uncut.member {depth level : Nat} {members : List (String × Value)}
    (uncut : Uncut depth level (.obj members)) {e : String × Value} (member : e ∈ members) :
    e.2.Uncut depth (level + 1) := by
  have filled : members.isEmpty = false := by
    cases members with
    | nil => cases member
    | cons => rfl
  have inside := height_le_heightOfMembers member
  simp only [Uncut, height, filled, Bool.false_eq_true, if_false] at uncut ⊢
  omega

private theorem Value.inspectItems_eq_map (depth level : Nat) (items : List Value) :
    inspectItems depth level items = items.map (inspectAt depth level) := by
  induction items with
  | nil => rfl
  | cons v rest ih => rw [inspectItems, ih, List.map_cons]

def inspectMember (depth level : Nat) (e : String × Value) : String :=
  inspectName e.1 ++ ": " ++ e.2.inspectAt depth level

private theorem Value.inspectMembers_eq_map (depth level : Nat) (members : List (String × Value)) :
    inspectMembers depth level members = members.map (inspectMember depth level) := by
  induction members with
  | nil => rfl
  | cons e rest ih => rw [inspectMembers, ih, List.map_cons, inspectMember]

def bracketed (left right : String) (level : Nat) (parts : List String) : String :=
  if parts.isEmpty then left ++ right else inspectGroup left right level parts

private theorem Value.inspectAt_arr {depth level : Nat} {items : List Value}
    (uncut : Uncut depth level (.arr items)) :
    inspectAt depth level (.arr items) =
      bracketed "[" "]" level (items.map (inspectAt depth (level + 1))) := by
  cases items with
  | nil => rfl
  | cons v rest =>
    have shown : ¬ depth < level := by
      simp only [Uncut, height, List.isEmpty_cons, Bool.false_eq_true, if_false] at uncut
      omega
    rw [inspectAt, if_neg shown, inspectItems_eq_map]
    rfl

private theorem Value.inspectAt_obj {depth level : Nat} {members : List (String × Value)}
    (uncut : Uncut depth level (.obj members)) :
    inspectAt depth level (.obj members) =
      bracketed "\x7b" "\x7d" level (members.map (inspectMember depth (level + 1))) := by
  cases members with
  | nil => rfl
  | cons e rest =>
    have shown : ¬ depth < level := by
      simp only [Uncut, height, List.isEmpty_cons, Bool.false_eq_true, if_false] at uncut
      omega
    rw [inspectAt, if_neg shown, inspectMembers_eq_map]
    rfl

private theorem Value.inspectAt_congr {depth depth' : Nat} (v : Value) {level : Nat}
    (uncut : v.Uncut depth level) (uncut' : v.Uncut depth' level) :
    v.inspectAt depth level = v.inspectAt depth' level := by
  induction v using Value.parts_induction generalizing level with
  | null | bool | num | str => rfl
  | arr items ih =>
    rw [inspectAt_arr uncut, inspectAt_arr uncut']
    congr 1
    exact List.map_congr_left fun v member => ih v member (uncut.item member) (uncut'.item member)
  | obj members ih =>
    rw [inspectAt_obj uncut, inspectAt_obj uncut']
    congr 1
    refine List.map_congr_left fun e member => ?_
    rw [inspectMember, inspectMember, ih e member (uncut.member member) (uncut'.member member)]

def gap (level : Nat) (broken : Bool) : List Char :=
  if broken then '\n' :: (indent (level + 1)).toList else [' ']

def lastGap (level : Nat) (broken : Bool) : List Char :=
  if broken then '\n' :: (indent level).toList else [' ']

def following (between fin : List Char) (parts : List String) : List Char :=
  parts.flatMap (fun p => ',' :: between ++ p.toList) ++ fin

private theorem exists_toList_bracketed (left right : String) (level : Nat) (p : String)
    (ps : List String) :
    ∃ broken, (bracketed left right level (p :: ps)).toList =
      left.toList ++ gap level broken ++ p.toList ++
        following (gap level broken) (lastGap level broken ++ right.toList) ps := by
  unfold bracketed inspectGroup
  simp only [List.isEmpty_cons, Bool.false_eq_true, if_false]
  split
  · refine ⟨false, ?_⟩
    have blank : " ".toList = [' '] := rfl
    have comma : ", ".toList = [',', ' '] := rfl
    simp [Text.toList_join_cons, gap, lastGap, following, blank, comma]
  · refine ⟨true, ?_⟩
    have lineEnd : "\n".toList = ['\n'] := rfl
    have comma : ",\n".toList = [',', '\n'] := rfl
    simp [block, Text.toList_join_cons, gap, lastGap, following, lineEnd, comma, List.flatMap_map]

/-- What can follow the text of a value: nothing, a comma, a blank or a line end. -/
def Ends (rest : List Char) : Prop := ∀ c ∈ rest.head?, c = ',' ∨ c = ' ' ∨ c = '\n'

private theorem ends_following {c : Char} (blank : c = ' ' ∨ c = '\n') (between fin : List Char)
    (parts : List String) (rest : List Char) :
    Ends (following between (c :: fin) parts ++ rest) := by
  cases parts with
  | nil =>
    rintro d ⟨rfl⟩
    exact .inr blank
  | cons p ps =>
    rintro d ⟨rfl⟩
    exact .inl rfl

/-- The text of a thing shows which one it is, whatever follows it. -/
def Recovered {α : Type} (P : α → Prop) (code : α → String) (a : α) : Prop :=
  ∀ b rest rest', P b → Ends rest → Ends rest' →
    (code a).toList ++ rest = (code b).toList ++ rest' → a = b ∧ rest = rest'

section Recovered

variable {α : Type} {P : α → Prop} {code : α → String}

private theorem recovered_following {between fin : List Char} {c : Char}
    (blank : c = ' ' ∨ c = '\n')
    {as bs : List α} (all : ∀ a ∈ as, Recovered P code a) (others : ∀ b ∈ bs, P b)
    {rest rest' : List Char}
    (same : following between (c :: fin) (as.map code) ++ rest =
      following between (c :: fin) (bs.map code) ++ rest') : as = bs ∧ rest = rest' := by
  have ne : c ≠ ',' := by rcases blank with rfl | rfl <;> decide
  induction as generalizing bs with
  | nil =>
    cases bs with
    | nil => exact ⟨rfl, List.append_cancel_left same⟩
    | cons b bs => exact (ne (List.cons.inj same).1).elim
  | cons a as ih =>
    cases bs with
    | nil => exact (ne (List.cons.inj same).1.symm).elim
    | cons b bs =>
      obtain ⟨first, later⟩ := List.forall_mem_cons.mp all
      obtain ⟨first', later'⟩ := List.forall_mem_cons.mp others
      have texts : (code a).toList ++ (following between (c :: fin) (as.map code) ++ rest) =
          (code b).toList ++ (following between (c :: fin) (bs.map code) ++ rest') := by
        simpa [following] using same
      obtain ⟨rfl, tails⟩ := first b _ _ first' (ends_following blank _ _ _ _)
        (ends_following blank _ _ _ _) texts
      obtain ⟨rfl, rests⟩ := ih later later' tails
      exact ⟨rfl, rests⟩

private theorem exists_gap_eq (level : Nat) (broken : Bool) :
    ∃ c between, gap level broken = c :: between ∧ (c = ' ' ∨ c = '\n') := by
  cases broken with
  | false => exact ⟨' ', [], rfl, .inl rfl⟩
  | true => exact ⟨'\n', _, rfl, .inr rfl⟩

private theorem exists_lastGap_eq (level : Nat) (broken : Bool) :
    ∃ c between, lastGap level broken = c :: between ∧ (c = ' ' ∨ c = '\n') := by
  cases broken with
  | false => exact ⟨' ', [], rfl, .inl rfl⟩
  | true => exact ⟨'\n', _, rfl, .inr rfl⟩

private theorem gap_inj {level : Nat} {broken broken' : Bool} {rest rest' : List Char}
    (same : gap level broken ++ rest = gap level broken' ++ rest') :
    broken = broken' ∧ rest = rest' := by
  cases broken with
  | false =>
    cases broken' with
    | false => exact ⟨rfl, List.append_cancel_left same⟩
    | true => exact absurd (List.cons.inj same).1 (by decide)
  | true =>
    cases broken' with
    | false => exact absurd (List.cons.inj same).1 (by decide)
    | true => exact ⟨rfl, List.append_cancel_left same⟩

private theorem bracketed_nil_ne {left right : String} {d : Char} (close : right.toList = [d])
    (bracket : d ≠ ' ' ∧ d ≠ '\n') (level : Nat) (p : String) (ps : List String)
    (rest rest' : List Char) :
    (bracketed left right level []).toList ++ rest ≠
      (bracketed left right level (p :: ps)).toList ++ rest' := by
  intro same
  obtain ⟨broken, text⟩ := exists_toList_bracketed left right level p ps
  obtain ⟨c, between, gapped, blank⟩ := exists_gap_eq level broken
  have empty : (bracketed left right level []).toList = left.toList ++ [d] := by
    rw [← close, ← String.toList_append]
    rfl
  rw [text, empty, gapped] at same
  simp only [List.append_assoc, List.append_cancel_left_eq, List.cons_append, List.nil_append,
    List.cons.injEq] at same
  rcases blank with rfl | rfl
  · exact bracket.1 same.1
  · exact bracket.2 same.1

private theorem recovered_bracketed {left right : String} {d : Char} (close : right.toList = [d])
    (bracket : d ≠ ' ' ∧ d ≠ '\n') {level : Nat} {as bs : List α}
    (all : ∀ a ∈ as, Recovered P code a) (others : ∀ b ∈ bs, P b) {rest rest' : List Char}
    (same : (bracketed left right level (as.map code)).toList ++ rest =
      (bracketed left right level (bs.map code)).toList ++ rest') : as = bs ∧ rest = rest' := by
  cases as with
  | nil =>
    cases bs with
    | nil => exact ⟨rfl, List.append_cancel_left same⟩
    | cons b bs => exact (bracketed_nil_ne close bracket _ _ _ _ _ same).elim
  | cons a as =>
    cases bs with
    | nil => exact (bracketed_nil_ne close bracket _ _ _ _ _ same.symm).elim
    | cons b bs =>
      obtain ⟨broken, text⟩ := exists_toList_bracketed left right level (code a) (as.map code)
      obtain ⟨broken', text'⟩ := exists_toList_bracketed left right level (code b) (bs.map code)
      rw [List.map_cons, List.map_cons, text, text'] at same
      simp only [List.append_assoc, List.append_cancel_left_eq] at same
      obtain ⟨rfl, same⟩ := gap_inj same
      obtain ⟨c, between, last, blank⟩ := exists_lastGap_eq level broken
      rw [last, List.cons_append] at same
      obtain ⟨first, later⟩ := List.forall_mem_cons.mp all
      obtain ⟨first', later'⟩ := List.forall_mem_cons.mp others
      obtain ⟨rfl, tails⟩ := first b _ _ first' (ends_following blank _ _ _ _)
        (ends_following blank _ _ _ _) same
      obtain ⟨rfl, rests⟩ := recovered_following blank later later' tails
      exact ⟨rfl, rests⟩

end Recovered

private theorem append_inj_of_class {p : Char → Bool} {w w' rest rest' : List Char}
    (inside : ∀ c ∈ w, p c = true) (inside' : ∀ c ∈ w', p c = true)
    (outside : ∀ c ∈ rest.head?, p c = false) (outside' : ∀ c ∈ rest'.head?, p c = false)
    (same : w ++ rest = w' ++ rest') : w = w' ∧ rest = rest' := by
  have taken {w rest : List Char} (inside : ∀ c ∈ w, p c = true)
      (outside : ∀ c ∈ rest.head?, p c = false) : (w ++ rest).takeWhile p = w := by
    have none : rest.takeWhile p = [] := by
      cases rest with
      | nil => rfl
      | cons c rest => rw [List.takeWhile_cons, outside c rfl, if_neg (by decide)]
    rw [List.takeWhile_append_of_pos inside, none, List.append_nil]
  have stretches : w = w' := by
    rw [← taken inside outside, same, taken inside' outside']
  subst stretches
  exact ⟨rfl, List.append_cancel_left same⟩

private theorem exists_inspectChar_eq (c : Char) : ∃ x xs, inspectChar c = x :: xs ∧ x ≠ '\'' := by
  unfold inspectChar
  split
  · exact ⟨_, _, rfl, by decide⟩
  split
  · exact ⟨_, _, rfl, by decide⟩
  split
  · exact ⟨_, _, rfl, by decide⟩
  · next differs _ => exact ⟨_, _, rfl, differs⟩

private theorem inspectChar_inj {c d : Char} {rest rest' : List Char}
    (same : inspectChar c ++ rest = inspectChar d ++ rest') : c = d ∧ rest = rest' := by
  unfold inspectChar at same
  grind

private theorem inspectChars_inj {cs ds rest rest' : List Char}
    (same : cs.flatMap inspectChar ++ '\'' :: rest = ds.flatMap inspectChar ++ '\'' :: rest') :
    cs = ds ∧ rest = rest' := by
  induction cs generalizing ds with
  | nil =>
    cases ds with
    | nil => exact ⟨rfl, (List.cons.inj same).2⟩
    | cons d ds =>
      obtain ⟨x, xs, text, ne⟩ := exists_inspectChar_eq d
      rw [List.flatMap_cons, text] at same
      exact (ne (List.cons.inj same).1.symm).elim
  | cons c cs ih =>
    cases ds with
    | nil =>
      obtain ⟨x, xs, text, ne⟩ := exists_inspectChar_eq c
      rw [List.flatMap_cons, text] at same
      exact (ne (List.cons.inj same).1).elim
    | cons d ds =>
      rw [List.flatMap_cons, List.flatMap_cons, List.append_assoc, List.append_assoc] at same
      obtain ⟨rfl, later⟩ := inspectChar_inj same
      obtain ⟨rfl, rests⟩ := ih later
      exact ⟨rfl, rests⟩

private theorem toList_inspectString (s : String) :
    (inspectString s).toList = '\'' :: (s.toList.flatMap inspectChar ++ ['\'']) := by
  rw [inspectString, String.toList_ofList, List.cons_append]

private theorem inspectString_inj {s t : String} {rest rest' : List Char}
    (same : (inspectString s).toList ++ rest = (inspectString t).toList ++ rest') :
    s = t ∧ rest = rest' := by
  rw [toList_inspectString, toList_inspectString] at same
  simp only [List.cons_append, List.append_assoc, List.nil_append, List.cons.injEq] at same
  obtain ⟨texts, rests⟩ := inspectChars_inj same.2
  exact ⟨String.toList_inj.mp texts, rests⟩

private theorem inspectName_cases (name : String) :
    (inspectName name = name ∧ name.toList ≠ [] ∧ ∀ c ∈ name.toList, isIdentRest c = true) ∨
      inspectName name = inspectString name := by
  unfold inspectName
  split
  · next c rest text =>
    split
    · next bare =>
      obtain ⟨first, later⟩ := Bool.and_eq_true_iff.mp bare
      refine .inl ⟨rfl, by simp [text], ?_⟩
      rw [text]
      exact List.forall_mem_cons.mpr ⟨by simp [isIdentRest, first], List.all_eq_true.mp later⟩
    · exact .inr rfl
  · exact .inr rfl

private theorem inspectName_inj {s t : String} {rest rest' : List Char}
    (same : (inspectName s).toList ++ ':' :: rest = (inspectName t).toList ++ ':' :: rest') :
    s = t ∧ rest = rest' := by
  have apart {bare other : String} {rest rest' : List Char} (filled : bare.toList ≠ [])
      (ident : ∀ c ∈ bare.toList, isIdentRest c = true) :
      bare.toList ++ rest ≠ (inspectString other).toList ++ rest' := by
    intro same
    obtain ⟨c, cs, text⟩ := List.exists_cons_of_ne_nil filled
    rw [text, toList_inspectString] at same
    have quote : isIdentRest '\'' = true := by
      rw [← (List.cons.inj same).1]
      exact ident c (by simp [text])
    exact absurd quote (by decide)
  have outside (rest : List Char) : ∀ c ∈ (':' :: rest).head?, isIdentRest c = false := by
    rintro c ⟨rfl⟩
    decide
  rcases inspectName_cases s with ⟨bare, filled, ident⟩ | quoted
  · rcases inspectName_cases t with ⟨bare', filled', ident'⟩ | quoted'
    · rw [bare, bare'] at same
      obtain ⟨texts, rests⟩ :=
        append_inj_of_class ident ident' (outside rest) (outside rest') same
      exact ⟨String.toList_inj.mp texts, (List.cons.inj rests).2⟩
    · rw [bare, quoted'] at same
      exact (apart filled ident same).elim
  · rcases inspectName_cases t with ⟨bare', filled', ident'⟩ | quoted'
    · rw [quoted, bare'] at same
      exact (apart filled' ident' same.symm).elim
    · rw [quoted, quoted'] at same
      obtain ⟨names, rests⟩ := inspectString_inj same
      exact ⟨names, (List.cons.inj rests).2⟩

def isIntegerChar (c : Char) : Bool := c.isDigit || c == '-'

private theorem isIntegerChar_of_mem_toString {i : Int} {c : Char}
    (inside : c ∈ (toString i).toList) :
    isIntegerChar c = true := by
  rw [Text.toList_toString_int] at inside
  rcases List.mem_append.mp inside with sign | digit
  · split at sign
    · cases sign
    · rw [List.mem_singleton.mp sign]
      decide
  · simp [isIntegerChar, Text.isDigit_of_mem_toDigits digit]

private theorem toString_int_inj {i j : Int} {rest rest' : List Char} (ends : Ends rest)
    (ends' : Ends rest') (same : (toString i).toList ++ rest = (toString j).toList ++ rest') :
    i = j ∧ rest = rest' := by
  have outside {rest : List Char} (ends : Ends rest) :
      ∀ c ∈ rest.head?, isIntegerChar c = false := by
    intro c first
    rcases ends c first with rfl | rfl | rfl <;> decide
  obtain ⟨texts, rests⟩ := append_inj_of_class (fun _ => isIntegerChar_of_mem_toString)
    (fun _ => isIntegerChar_of_mem_toString) (outside ends) (outside ends') same
  exact ⟨Text.eq_of_toString_int_eq (String.toList_inj.mp texts), rests⟩

mutual

def Value.Integral : Value → Prop
  | .num (.integer ..) => True
  | .num (.real ..) => False
  | .arr items => integralItems items
  | .obj members => integralMembers members
  | _ => True

def Value.integralItems : List Value → Prop
  | [] => True
  | v :: rest => v.Integral ∧ integralItems rest

def Value.integralMembers : List (String × Value) → Prop
  | [] => True
  | (_, v) :: rest => v.Integral ∧ integralMembers rest

end

private theorem Value.integralItems_iff {items : List Value} :
    integralItems items ↔ ∀ v ∈ items, v.Integral := by
  induction items with
  | nil => exact iff_of_true trivial fun _ member => nomatch member
  | cons v rest ih => rw [integralItems, ih, List.forall_mem_cons]

private theorem Value.integralMembers_iff {members : List (String × Value)} :
    integralMembers members ↔ ∀ e ∈ members, e.2.Integral := by
  induction members with
  | nil => exact iff_of_true trivial fun _ member => nomatch member
  | cons e rest ih => rw [integralMembers, ih, List.forall_mem_cons]

inductive Kind where
  | null
  | truth
  | number
  | text
  | array
  | object

def Value.kind : Value → Kind
  | .null => .null
  | .bool _ => .truth
  | .num _ => .number
  | .str _ => .text
  | .arr _ => .array
  | .obj _ => .object

def Kind.ofChar (c : Char) : Kind :=
  if c = 'n' then .null
  else if c = 't' ∨ c = 'f' then .truth
  else if c = '\'' then .text
  else if c = '[' then .array
  else if c = '\x7b' then .object
  else .number

private theorem exists_toString_int_eq (i : Int) :
    ∃ c cs, (toString i).toList = c :: cs ∧ Kind.ofChar c = .number := by
  cases text : (toString i).toList with
  | nil =>
    rw [Text.toList_toString_int] at text
    exact absurd (List.append_eq_nil_iff.mp text).2 Nat.toDigits_ne_nil
  | cons c cs =>
    have inside : c ∈ (toString i).toList := text ▸ List.mem_cons_self
    have integer := isIntegerChar_of_mem_toString inside
    have other (d : Char) (outside : isIntegerChar d = false) : c ≠ d := by
      rintro rfl
      rw [integer] at outside
      cases outside
    refine ⟨c, cs, rfl, ?_⟩
    simp [Kind.ofChar, other 'n' rfl, other 't' rfl, other 'f' rfl, other '\'' rfl, other '[' rfl,
      other '\x7b' rfl]

private theorem exists_bracketed_eq {c : Char} (left : String) (opens : left.toList = [c])
    (right : String) (level : Nat) (parts : List String) :
    ∃ cs, (bracketed left right level parts).toList = c :: cs := by
  cases parts with
  | nil => exact ⟨right.toList, by simp [bracketed, opens]⟩
  | cons p ps =>
    obtain ⟨broken, text⟩ := exists_toList_bracketed left right level p ps
    rw [text, opens]
    exact ⟨_, rfl⟩

private theorem Value.kind_of_head {depth level : Nat} {v : Value} (integral : v.Integral)
    (uncut : v.Uncut depth level) :
    ∃ c cs, (v.inspectAt depth level).toList = c :: cs ∧ Kind.ofChar c = v.kind := by
  cases v with
  | null =>
    rw [inspectAt]
    exact ⟨'n', "ull".toList, rfl, rfl⟩
  | bool b =>
    rw [inspectAt]
    cases b with
    | false => exact ⟨'f', "alse".toList, rfl, rfl⟩
    | true => exact ⟨'t', "rue".toList, rfl, rfl⟩
  | num n =>
    cases n with
    | integer i inRange => exact exists_toString_int_eq i
    | real => exact integral.elim
  | str s => exact ⟨'\'', _, toList_inspectString s, rfl⟩
  | arr items =>
    rw [inspectAt_arr uncut]
    obtain ⟨cs, text⟩ := exists_bracketed_eq "[" rfl "]" level
      (items.map (inspectAt depth (level + 1)))
    exact ⟨'[', cs, text, rfl⟩
  | obj members =>
    rw [inspectAt_obj uncut]
    obtain ⟨cs, text⟩ := exists_bracketed_eq "\x7b" rfl "\x7d" level
      (members.map (inspectMember depth (level + 1)))
    exact ⟨'\x7b', cs, text, rfl⟩

private theorem Value.kind_eq_of_append_eq {depth level : Nat} {v w : Value}
    {rest rest' : List Char}
    (integral : v.Integral) (integral' : w.Integral) (uncut : v.Uncut depth level)
    (uncut' : w.Uncut depth level)
    (same : (v.inspectAt depth level).toList ++ rest = (w.inspectAt depth level).toList ++ rest') :
    v.kind = w.kind := by
  obtain ⟨c, cs, text, kind⟩ := kind_of_head integral uncut
  obtain ⟨d, ds, text', kind'⟩ := kind_of_head integral' uncut'
  rw [text, text'] at same
  rw [← kind, ← kind', (List.cons.inj same).1]

private theorem recovered_inspectMember {P : Value → Prop} {depth level : Nat} {e : String × Value}
    (value : Recovered P (Value.inspectAt depth level) e.2) :
    Recovered (fun e => P e.2) (inspectMember depth level) e := by
  obtain ⟨k, v⟩ := e
  rintro ⟨k', v'⟩ rest rest' known ends ends' same
  have colon : ": ".toList = [':', ' '] := rfl
  simp only [inspectMember, String.toList_append, colon, List.append_assoc, List.cons_append,
    List.nil_append] at same
  obtain ⟨rfl, values⟩ := inspectName_inj same
  obtain ⟨rfl, rests⟩ := value v' _ _ known ends ends' (List.cons.inj values).2
  exact ⟨rfl, rests⟩

/-- A value whose numbers are integers is found again in front of anything that can follow it. -/
private theorem Value.recovered_inspectAt (depth : Nat) (v : Value) (integral : v.Integral)
    (level : Nat) (uncut : v.Uncut depth level) :
    Recovered (fun w => w.Integral ∧ w.Uncut depth level) (inspectAt depth level) v := by
  induction v using Value.parts_induction generalizing level with
  | null =>
    rintro w rest rest' ⟨integral', uncut'⟩ ends ends' same
    have kinds := kind_eq_of_append_eq integral integral' uncut uncut' same
    cases w with
    | null => exact ⟨rfl, List.append_cancel_left same⟩
    | _ => cases kinds
  | bool b =>
    rintro w rest rest' ⟨integral', uncut'⟩ ends ends' same
    have kinds := kind_eq_of_append_eq integral integral' uncut uncut' same
    cases w with
    | bool b' =>
      have no : "false".toList = 'f' :: "alse".toList := rfl
      have yes : "true".toList = 't' :: "rue".toList := rfl
      cases b <;> cases b'
      · exact ⟨rfl, List.append_cancel_left same⟩
      · exact absurd (List.cons.inj (no ▸ yes ▸ same)).1 (by decide)
      · exact absurd (List.cons.inj (no ▸ yes ▸ same)).1 (by decide)
      · exact ⟨rfl, List.append_cancel_left same⟩
    | _ => cases kinds
  | num n =>
    rintro w rest rest' ⟨integral', uncut'⟩ ends ends' same
    have kinds := kind_eq_of_append_eq integral integral' uncut uncut' same
    cases w with
    | num n' =>
      cases n with
      | real => exact integral.elim
      | integer i inRange =>
        cases n' with
        | real => exact integral'.elim
        | integer j inRange' =>
          obtain ⟨rfl, rests⟩ := toString_int_inj ends ends' same
          exact ⟨rfl, rests⟩
    | _ => cases kinds
  | str s =>
    rintro w rest rest' ⟨integral', uncut'⟩ ends ends' same
    have kinds := kind_eq_of_append_eq integral integral' uncut uncut' same
    cases w with
    | str t =>
      obtain ⟨rfl, rests⟩ := inspectString_inj same
      exact ⟨rfl, rests⟩
    | _ => cases kinds
  | arr items ih =>
    rintro w rest rest' ⟨integral', uncut'⟩ ends ends' same
    have kinds := kind_eq_of_append_eq integral integral' uncut uncut' same
    cases w with
    | arr items' =>
      rw [inspectAt_arr uncut, inspectAt_arr uncut'] at same
      have all := integralItems_iff.mp integral
      have all' := integralItems_iff.mp integral'
      obtain ⟨rfl, rests⟩ := recovered_bracketed (d := ']') rfl (by decide)
        (fun v member => ih v member (all v member) (level + 1) (uncut.item member))
        (fun w member => ⟨all' w member, uncut'.item member⟩) same
      exact ⟨rfl, rests⟩
    | _ => cases kinds
  | obj members ih =>
    rintro w rest rest' ⟨integral', uncut'⟩ ends ends' same
    have kinds := kind_eq_of_append_eq integral integral' uncut uncut' same
    cases w with
    | obj members' =>
      rw [inspectAt_obj uncut, inspectAt_obj uncut'] at same
      have all := integralMembers_iff.mp integral
      have all' := integralMembers_iff.mp integral'
      obtain ⟨rfl, rests⟩ := recovered_bracketed (d := '\x7d') rfl (by decide)
        (fun e member => recovered_inspectMember
          (ih e member (all e member) (level + 1) (uncut.member member)))
        (fun e member => ⟨all' e member, uncut'.member member⟩) same
      exact ⟨rfl, rests⟩
    | _ => cases kinds

def isLayout (c : Char) : Bool :=
  ['[', ']', '\x7b', '\x7d', ',', ':', ' ', '\n'].contains c

/-- A text consists of contents, in order and none of them broken, with layout around them. -/
inductive Laid : List String → List Char → Prop
  | nil : Laid [] []
  | layout {c : Char} {contents : List String} {text : List Char} (layout : isLayout c = true)
      (tail : Laid contents text) : Laid contents (c :: text)
  | content {s : String} {contents : List String} {text : List Char}
      (unbroken : '\n' ∉ s.toList) (tail : Laid contents text) :
      Laid (s :: contents) (s.toList ++ text)

private theorem Laid.append {contents contents' : List String} {text text' : List Char}
    (front : Laid contents text) (back : Laid contents' text') :
    Laid (contents ++ contents') (text ++ text') := by
  induction front with
  | nil => exact back
  | layout layout _ ih => exact .layout layout ih
  | content unbroken _ ih =>
    rw [List.append_assoc]
    exact .content unbroken ih

private theorem laid_of_layout {text : List Char} (all : ∀ c ∈ text, isLayout c = true) :
    Laid [] text := by
  induction text with
  | nil => exact .nil
  | cons c text ih =>
    obtain ⟨first, later⟩ := List.forall_mem_cons.mp all
    exact .layout first (ih later)

private theorem laid_of_unbroken {s : String} (unbroken : '\n' ∉ s.toList) : Laid [s] s.toList := by
  have alone := Laid.content unbroken .nil
  rwa [List.append_nil] at alone

private theorem isLayout_of_mem_indent {level : Nat} {c : Char}
    (inside : c ∈ (indent level).toList) :
    isLayout c = true := by
  rw [indent, String.toList_ofList] at inside
  rw [(List.mem_replicate.mp inside).2]
  decide

private theorem isLayout_of_mem_gap {level : Nat} {broken : Bool} {c : Char}
    (inside : c ∈ gap level broken) : isLayout c = true := by
  cases broken with
  | false =>
    rw [List.mem_singleton.mp inside]
    decide
  | true =>
    rcases List.mem_cons.mp inside with rfl | blank
    · decide
    · exact isLayout_of_mem_indent blank

private theorem isLayout_of_mem_lastGap {level : Nat} {broken : Bool} {c : Char}
    (inside : c ∈ lastGap level broken) : isLayout c = true := by
  cases broken with
  | false =>
    rw [List.mem_singleton.mp inside]
    decide
  | true =>
    rcases List.mem_cons.mp inside with rfl | blank
    · decide
    · exact isLayout_of_mem_indent blank

private theorem laid_bracketed {α : Type} {code : α → String} {contents : α → List String}
    {left right : String} (opens : ∀ c ∈ left.toList, isLayout c = true)
    (closes : ∀ c ∈ right.toList, isLayout c = true) {level : Nat} {as : List α}
    (all : ∀ a ∈ as, Laid (contents a) (code a).toList) :
    Laid (as.flatMap contents) (bracketed left right level (as.map code)).toList := by
  cases as with
  | nil =>
    have text : (bracketed left right level []).toList = left.toList ++ right.toList :=
      String.toList_append
    rw [List.map_nil, text]
    exact laid_of_layout fun c inside =>
      (List.mem_append.mp inside).elim (opens c) (closes c)
  | cons a as =>
    obtain ⟨broken, text⟩ := exists_toList_bracketed left right level (code a) (as.map code)
    obtain ⟨first, later⟩ := List.forall_mem_cons.mp all
    have front : Laid [] (left.toList ++ gap level broken) :=
      laid_of_layout fun c inside =>
        (List.mem_append.mp inside).elim (opens c) isLayout_of_mem_gap
    have fin : Laid [] (lastGap level broken ++ right.toList) :=
      laid_of_layout fun c inside =>
        (List.mem_append.mp inside).elim isLayout_of_mem_lastGap (closes c)
    have between : Laid [] (',' :: gap level broken) :=
      .layout (by decide) (laid_of_layout fun _ => isLayout_of_mem_gap)
    have others : Laid (as.flatMap contents)
        (following (gap level broken) (lastGap level broken ++ right.toList) (as.map code)) := by
      clear text first all
      induction as with
      | nil => exact fin
      | cons b as ih =>
        obtain ⟨next, later⟩ := List.forall_mem_cons.mp later
        have step := (between.append next).append (ih later)
        simpa [following] using step
    rw [List.map_cons, text]
    exact (front.append first).append others

mutual

/-- The names and the values other than containers in a value, in order, as they are shown. -/
def Value.contents : Value → List String
  | .null => ["null"]
  | .bool b => [toString b]
  | .num n => [n.inspect]
  | .str s => [inspectString s]
  | .arr items => contentsOfItems items
  | .obj members => contentsOfMembers members

def Value.contentsOfItems : List Value → List String
  | [] => []
  | v :: rest => v.contents ++ contentsOfItems rest

def Value.contentsOfMembers : List (String × Value) → List String
  | [] => []
  | (k, v) :: rest => inspectName k :: v.contents ++ contentsOfMembers rest

end

private theorem Value.contentsOfItems_eq (items : List Value) :
    contentsOfItems items = items.flatMap contents := by
  induction items with
  | nil => rfl
  | cons v rest ih => rw [contentsOfItems, ih, List.flatMap_cons]

private theorem Value.contentsOfMembers_eq (members : List (String × Value)) :
    contentsOfMembers members = members.flatMap fun e => inspectName e.1 :: e.2.contents := by
  induction members with
  | nil => rfl
  | cons e rest ih => rw [contentsOfMembers, ih, List.flatMap_cons]

private theorem not_mem_inspectString (s : String) : '\n' ∉ (inspectString s).toList := by
  have plain (c : Char) : '\n' ∉ inspectChar c := by
    unfold inspectChar
    grind
  rw [toList_inspectString]
  simp [plain]

private theorem not_mem_inspectName (name : String) : '\n' ∉ (inspectName name).toList := by
  rcases inspectName_cases name with ⟨bare, -, ident⟩ | quoted
  · rw [bare]
    intro inside
    exact absurd (ident _ inside) (by decide)
  · rw [quoted]
    exact not_mem_inspectString name

private theorem Value.laid_inspectAt (depth : Nat) (v : Value) (integral : v.Integral) (level : Nat)
    (uncut : v.Uncut depth level) : Laid v.contents (v.inspectAt depth level).toList := by
  have plain {text : List Char} (all : text.all isLayout = true) : ∀ c ∈ text, isLayout c = true :=
    List.all_eq_true.mp all
  induction v using Value.parts_induction generalizing level with
  | null => exact laid_of_unbroken (by decide)
  | bool b =>
    cases b with
    | false => exact laid_of_unbroken (by decide)
    | true => exact laid_of_unbroken (by decide)
  | num n =>
    cases n with
    | real => exact integral.elim
    | integer i inRange =>
      refine laid_of_unbroken fun inside => ?_
      exact absurd (isIntegerChar_of_mem_toString inside) (by decide)
  | str s => exact laid_of_unbroken (not_mem_inspectString s)
  | arr items ih =>
    have all := integralItems_iff.mp integral
    rw [inspectAt_arr uncut, contents, contentsOfItems_eq]
    exact laid_bracketed (plain (by decide)) (plain (by decide)) fun v member =>
      ih v member (all v member) (level + 1) (uncut.item member)
  | obj members ih =>
    have all := integralMembers_iff.mp integral
    rw [inspectAt_obj uncut, contents, contentsOfMembers_eq]
    refine laid_bracketed (plain (by decide)) (plain (by decide)) fun e member => ?_
    have value := ih e member (all e member) (level + 1) (uncut.member member)
    have colon : Laid [] ": ".toList := laid_of_layout (plain (by decide))
    rw [inspectMember, String.toList_append, String.toList_append]
    exact ((laid_of_unbroken (not_mem_inspectName e.1)).append colon).append value

private theorem Value.uncut_of_nesting_le {v : Value} {depth : Nat} (deep : v.nesting ≤ depth) :
    v.Uncut depth 0 := by
  unfold nesting at deep
  unfold Uncut
  omega

/-- Two values whose numbers are integers, shown at depths at which nothing in them is cut off, are
shown alike exactly if they are equal; so showing more levels changes nothing. Line ends stand only
in the layout, never in a name, a text or any other content. -/
theorem Value.inspect_unambiguous {v w : Value} {depth depth' : Nat} (integral : v.Integral)
    (integral' : w.Integral) (deep : v.nesting ≤ depth) (deep' : w.nesting ≤ depth') :
    (v.inspect depth = w.inspect depth' ↔ v = w) ∧
      (∀ more, v.inspect (depth + more) = v.inspect depth) ∧
      Laid v.contents (v.inspect depth).toList := by
  have uncut := uncut_of_nesting_le deep
  refine ⟨⟨?_, ?_⟩, ?_, laid_inspectAt depth v integral 0 uncut⟩
  · intro same
    let most := max depth depth'
    have reached : v.Uncut most 0 := uncut_of_nesting_le (deep.trans (Nat.le_max_left _ _))
    have reached' : w.Uncut most 0 := uncut_of_nesting_le (deep'.trans (Nat.le_max_right _ _))
    have texts : v.inspectAt most 0 = w.inspectAt most 0 := by
      rw [inspectAt_congr v reached uncut, inspectAt_congr w reached' (uncut_of_nesting_le deep')]
      exact same
    have ends : Ends [] := fun c first => nomatch first
    have recovered := recovered_inspectAt most v integral 0 reached w [] [] ⟨integral', reached'⟩
      ends ends
    exact (recovered (by rw [texts])).1
  · rintro rfl
    exact inspectAt_congr v uncut (uncut_of_nesting_le deep')
  · intro more
    exact inspectAt_congr v (uncut_of_nesting_le (deep.trans (Nat.le_add_right _ _))) uncut

theorem Value.inspect_unambiguous_of_escaped_line_end :
    let seven : Value := .num (.integer (-7) (by decide))
    let v : Value := .obj [("it's", .arr [.str "a\nb", seven, .obj []]), ("x", .arr [.arr [seven]])]
    let w : Value :=
      .obj [("it's", .arr [.str "a\\nb", seven, .obj []]), ("x", .arr [.arr [seven]])]
    (v.Integral ∧ w.Integral ∧ v.nesting ≤ 2 ∧ w.nesting ≤ 7) ∧
      v.inspect 2 = "\x7b 'it\\'s': [ 'a\\nb', -7, \x7b\x7d ], x: [ [ -7 ] ] \x7d" ∧
      (v.inspect 2 = w.inspect 7 ↔ v = w) ∧ (∀ more, v.inspect (2 + more) = v.inspect 2) ∧
      Laid v.contents (v.inspect 2).toList ∧
      v.contents = ["'it\\'s'", "'a\\nb'", "-7", "x", "-7"] := by
  intro seven v w
  have integral : v.Integral := by simp [v, seven, Integral, integralItems, integralMembers]
  have integral' : w.Integral := by simp [w, seven, Integral, integralItems, integralMembers]
  have deep : v.nesting ≤ 2 := by decide
  have deep' : w.nesting ≤ 7 := by decide
  obtain ⟨apart, deeper, laid⟩ := inspect_unambiguous integral integral' deep deep'
  exact ⟨⟨integral, integral', deep, deep'⟩, by decide +kernel, apart, deeper, laid,
    by decide +kernel⟩

end Json

end OperatorScript
