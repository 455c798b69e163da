import OperatorScript.Json.Equality
import OperatorScript.Json.Path

/-!
Reading and writing at paths.

Two keys lead to the same place of an array if they are read as the same position, and to the same
place of any other value if they are equal. Paths are compared in this way, key by key, along the
values to which they lead. The main statements: writing and reading at one path obey the laws of a
lens, and a write keeps everything that its path does not lead to, through or out of place.
-/

set_option autoImplicit false
set_option relaxedAutoImplicit false

namespace OperatorScript.Json.Value

variable {v : Value} {key other : String}

private theorem updateChild_updateChild (first second : Value → Value) (v : Value) (key : String) :
    updateChild second (updateChild first v key) key =
      updateChild (fun child => second (first child)) v key := by
  have alone : updateChild second (single key (first (.obj []))) key =
      single key (second (first (.obj []))) := by
    simp [single, updateChild, Dict.get?, Dict.insert]
  cases v with
  | obj members => simp [updateChild]
  | arr items =>
    cases index : readIndex? key with
    | none => simpa [updateChild, index] using alone
    | some i =>
      cases found : items[i]? with
      | some item =>
        obtain ⟨inside, value⟩ := List.getElem?_eq_some_iff.mp found
        simp [updateChild, index, inside, value]
      | none =>
        by_cases atEnd : i = items.length
        · simp [updateChild, index, atEnd]
        · simpa [updateChild, index, found, atEnd] using alone
  | null | bool _ | num _ | str _ => simpa [updateChild] using alone

private theorem updateChild_eq_self {update : Value → Value} {child : Value}
    (found : v.child? key = some child) (same : update child = child) :
    updateChild update v key = v := by
  cases v with
  | obj members =>
    have present : Dict.get? key members = some child := found
    simp [updateChild, present, same, Dict.insert_eq_self present]
  | arr items =>
    obtain ⟨i, index, item⟩ := Option.bind_eq_some_iff.mp found
    obtain ⟨inside, value⟩ := List.getElem?_eq_some_iff.mp item
    subst value
    simp [updateChild, index, item, same]
  | null | bool _ | num _ | str _ => cases found

private theorem set_set (first second : Value) (keys : List String) (v : Value) :
    set second keys (set first keys v) = set second keys v := by
  induction keys generalizing v with
  | nil => rfl
  | cons key rest ih =>
    have both : (fun child => set second rest (set first rest child)) = set second rest :=
      funext ih
    rw [set, set, updateChild_updateChild, both, set]

theorem set_eq_self {keys : List String} {x : Value} (found : v.get? keys = some x) :
    set x keys v = v := by
  induction keys generalizing v with
  | nil => exact (Option.some.inj found).symm
  | cons key rest ih =>
    obtain ⟨child, step, deeper⟩ := Option.bind_eq_some_iff.mp found
    exact updateChild_eq_self step (ih deeper)

/-- The laws of a lens. At any path of any value, what was written is what is read; of two writes
the later one counts; and writing what was read changes nothing. -/
theorem lens_laws (v : Value) (keys : List String) (a b : Value) :
    (set a keys v).get? keys = some a ∧
    set b keys (set a keys v) = set b keys v ∧
    ∀ x, v.get? keys = some x → set x keys v = v :=
  ⟨get?_set_self a keys v, set_set a b keys v, fun _ found => set_eq_self found⟩

theorem lens_laws_of_item_of_array :
    let v : Value := .obj [("list", .arr [.ofInt 1, .obj [("x", .null)]])]
    let keys := ["list", "+01", "x"]
    v.get? keys = some .null ∧ set .null keys v = v := by
  intro v keys
  have found : v.get? keys = some .null := by decide +kernel
  exact ⟨found, (lens_laws v keys .null .null).2.2 _ found⟩

def childOrEmpty (v : Value) (key : String) : Value := (v.child? key).getD (.obj [])

/-- Two keys lead to the same place of a value: on an array if they are read as the same position,
anywhere else if they are equal. -/
def SameKey (v : Value) (key other : String) : Prop :=
  match v with
  | .arr _ => readIndex? key = readIndex? other
  | _ => key = other

/-- A path goes to the place of another one or through it: key by key it leads to the same places,
as far as the other one goes. -/
def Along : Value → List String → List String → Prop
  | _, [], _ => True
  | _, _ :: _, [] => False
  | v, key :: rest, other :: more => v.SameKey key other ∧ (v.childOrEmpty key).Along rest more

instance (v : Value) (key other : String) : Decidable (v.SameKey key other) :=
  match v with
  | .arr _ => inferInstanceAs (Decidable (readIndex? key = readIndex? other))
  | .obj _ | .null | .bool _ | .num _ | .str _ => inferInstanceAs (Decidable (key = other))

instance decidableAlong : (v : Value) → (keys path : List String) → Decidable (v.Along keys path)
  | _, [], _ => isTrue trivial
  | _, _ :: _, [] => isFalse id
  | v, key :: rest, other :: more =>
    have := decidableAlong (v.childOrEmpty key) rest more
    inferInstanceAs (Decidable (v.SameKey key other ∧ _))

/-- Two paths lead to the same places for some keys, and then to different ones. -/
inductive Diverge : Value → List String → List String → Prop
  | here {v : Value} {key other : String} (differ : ¬ v.SameKey key other)
      (rest more : List String) : Diverge v (key :: rest) (other :: more)
  | later {v : Value} {key other : String} {rest more : List String}
      (same : v.SameKey key other) (deeper : (v.childOrEmpty key).Diverge rest more) :
      Diverge v (key :: rest) (other :: more)

/-- Whether a value has a place for a key, so that it stays what it is when it is written there. An
array has one for each of its positions and for the one at its end. -/
def hasPlace (v : Value) (key : String) : Bool :=
  match v with
  | .arr items => (readIndex? key).any (· ≤ items.length)
  | _ => true

def Fits (v : Value) (keys : List String) : Prop :=
  ∀ front key back, keys = front ++ key :: back →
    ∀ w, v.get? front = some w → w.hasPlace key = true

/-- A path goes to or through an array that another one addresses by a key without a place. -/
def Misfit (v : Value) (keys path : List String) : Prop :=
  ∃ front key back w, keys = front ++ key :: back ∧ v.get? front = some w ∧
    w.hasPlace key = false ∧ v.Along front path

def isScalar : Value → Bool
  | .arr _ | .obj _ => false
  | _ => true

/-- What becomes of an object or an array through which something is written: it keeps its keys or
its positions, and may gain some. -/
inductive Grows : Value → Value → Prop
  | members {old new : List (String × Value)}
      (kept : ∀ key ∈ Dict.keys old, key ∈ Dict.keys new) : Grows (.obj old) (.obj new)
  | items {old new : List Value} (kept : old.length ≤ new.length) : Grows (.arr old) (.arr new)

private theorem hasPlace_of_child? {child : Value} (found : v.child? key = some child) :
    v.hasPlace key = true := by
  cases v with
  | arr items =>
    obtain ⟨i, index, item⟩ := Option.bind_eq_some_iff.mp found
    have inside : i < items.length := (List.getElem?_eq_some_iff.mp item).1
    simp [hasPlace, index, Nat.le_of_lt inside]
  | obj _ | null | bool _ | num _ | str _ => rfl

theorem SameKey.symm (same : v.SameKey key other) : v.SameKey other key := by
  cases v <;> exact Eq.symm same

private theorem SameKey.child?_eq (same : v.SameKey key other) : v.child? key = v.child? other := by
  cases v with
  | arr items =>
    have positions : readIndex? key = readIndex? other := same
    rw [child?, child?, positions]
  | obj members =>
    have names : key = other := same
    rw [names]
  | null | bool _ | num _ | str _ => rfl

private theorem SameKey.childOrEmpty_eq (same : v.SameKey key other) :
    v.childOrEmpty key = v.childOrEmpty other := by
  rw [childOrEmpty, same.child?_eq, childOrEmpty]

private theorem updateChild_arr (update : Value → Value) {items : List Value}
    (fits : (Value.arr items).hasPlace key = true) :
    ∃ i changed, readIndex? key = some i ∧ updateChild update (.arr items) key = .arr changed ∧
      changed.length = max items.length (i + 1) ∧ ∀ j, j ≠ i → changed[j]? = items[j]? := by
  cases index : readIndex? key with
  | none => simp [hasPlace, index] at fits
  | some i =>
    have inside : i ≤ items.length := by simpa [hasPlace, index] using fits
    cases found : items[i]? with
    | some item =>
      have before : i < items.length := (List.getElem?_eq_some_iff.mp found).1
      refine ⟨i, items.set i (update item), rfl, by simp [updateChild, index, found], ?_, ?_⟩
      · rw [List.length_set]
        omega
      · intro j ne
        exact List.getElem?_set_ne (Ne.symm ne)
    | none =>
      have atEnd : i = items.length := by
        have past : items.length ≤ i := List.getElem?_eq_none_iff.mp found
        omega
      refine ⟨i, items ++ [update (.obj [])], rfl, by simp [updateChild, index, atEnd], ?_, ?_⟩
      · simp [atEnd]
      · intro j ne
        by_cases before : j < items.length
        · exact List.getElem?_append_left before
        · have past : items.length + 1 ≤ j := by omega
          rw [List.getElem?_eq_none (by simpa using past), List.getElem?_eq_none (by omega)]

private theorem sameKey_updateChild (update : Value → Value) (fits : v.hasPlace key = true)
    (one two : String) : (updateChild update v key).SameKey one two ↔ v.SameKey one two := by
  cases v with
  | arr items =>
    obtain ⟨i, changed, _, eq, _⟩ := updateChild_arr update fits
    rw [eq]
    rfl
  | obj _ | null | bool _ | num _ | str _ => rfl

private theorem child?_updateChild_of_same (update : Value → Value) (fits : v.hasPlace key = true)
    (same : v.SameKey key other) :
    (updateChild update v key).child? other = some (update (v.childOrEmpty key)) := by
  rw [← ((sameKey_updateChild update fits key other).mpr same).child?_eq]
  exact child?_updateChild_self update v key

private theorem child?_updateChild_of_not_same (update : Value → Value)
    (fits : v.hasPlace key = true) (differ : ¬ v.SameKey key other) :
    (updateChild update v key).child? other = v.child? other := by
  cases v with
  | obj members => exact Dict.get?_insert_of_ne (Ne.symm differ) _ members
  | arr items =>
    obtain ⟨i, changed, index, eq, _, others⟩ := updateChild_arr update fits
    rw [eq, child?, child?]
    cases position : readIndex? other with
    | none => rfl
    | some j =>
      have ne : j ≠ i := by
        rintro rfl
        exact differ (index.trans position.symm)
      exact others j ne
  | null | bool _ | num _ | str _ =>
    exact Dict.get?_insert_of_ne (Ne.symm differ) _ ([] : Dict Value)

theorem diverge_iff {keys path : List String} :
    v.Diverge keys path ↔ ¬ v.Along keys path ∧ ¬ v.Along path keys := by
  constructor
  · intro diverge
    induction diverge with
    | here differ => exact ⟨fun along => differ along.1, fun along => differ along.1.symm⟩
    | later same _ ih =>
      refine ⟨fun along => ih.1 along.2, fun along => ih.2 ?_⟩
      rw [same.childOrEmpty_eq]
      exact along.2
  · intro apart
    induction keys generalizing v path with
    | nil => exact (apart.1 trivial).elim
    | cons key rest ih =>
      cases path with
      | nil => exact (apart.2 trivial).elim
      | cons other more =>
        by_cases same : v.SameKey key other
        · refine .later same (ih ⟨fun along => apart.1 ⟨same, along⟩, fun along => apart.2 ?_⟩)
          rw [same.childOrEmpty_eq] at along
          exact ⟨same.symm, along⟩
        · exact .here same rest more

instance (v : Value) (keys path : List String) : Decidable (v.Diverge keys path) :=
  decidable_of_iff (¬ v.Along keys path ∧ ¬ v.Along path keys) diverge_iff.symm

private theorem Fits.hasPlace {rest : List String} (fits : v.Fits (key :: rest)) :
    v.hasPlace key = true :=
  fits [] key rest rfl v rfl

private theorem Fits.childOrEmpty {rest : List String} (fits : v.Fits (key :: rest)) :
    (v.childOrEmpty key).Fits rest := by
  intro front next back eq w found
  cases child : v.child? key with
  | some x =>
    rw [Value.childOrEmpty, child, Option.getD_some] at found
    refine fits (key :: front) next back (by rw [eq, List.cons_append]) w ?_
    rw [get?, child]
    exact found
  | none =>
    rw [Value.childOrEmpty, child, Option.getD_none] at found
    cases front with
    | nil =>
      obtain rfl : Value.obj [] = w := Option.some.inj found
      rfl
    | cons _ _ => cases found

private theorem fits_cons {rest : List String} (place : v.hasPlace key = true)
    (fits : ∀ child, v.child? key = some child → child.Fits rest) : v.Fits (key :: rest) := by
  intro front next back eq w found
  cases front with
  | nil =>
    obtain ⟨rfl, -⟩ := List.cons.inj eq
    obtain rfl : v = w := Option.some.inj found
    exact place
  | cons first front =>
    obtain ⟨rfl, tail⟩ := List.cons.inj eq
    obtain ⟨child, step, deeper⟩ := Option.bind_eq_some_iff.mp found
    exact fits child step front next back tail w deeper

theorem fits_of_get? {keys : List String} {x : Value} (found : v.get? keys = some x) :
    v.Fits keys := by
  induction keys generalizing v with
  | nil =>
    intro front key back eq
    simp at eq
  | cons key rest ih =>
    obtain ⟨child, step, deeper⟩ := Option.bind_eq_some_iff.mp found
    refine fits_cons (hasPlace_of_child? step) fun other step' => ?_
    obtain rfl : child = other := Option.some.inj (step.symm.trans step')
    exact ih deeper

instance decidableFits : (v : Value) → (keys : List String) → Decidable (v.Fits keys)
  | _, [] => isTrue fun _ _ _ eq => by simp at eq
  | v, key :: rest =>
    have := decidableFits (v.childOrEmpty key) rest
    decidable_of_iff (v.hasPlace key = true ∧ (v.childOrEmpty key).Fits rest)
      ⟨fun both => fits_cons both.1 fun child found => by
        simpa [Value.childOrEmpty, found] using both.2,
        fun fits => ⟨fits.hasPlace, fits.childOrEmpty⟩⟩

theorem get?_set_of_diverge (a : Value) {keys path : List String} (fits : v.Fits keys)
    (diverge : v.Diverge keys path) : (set a keys v).get? path = v.get? path := by
  induction diverge with
  | here differ rest more =>
    rw [set, get?, get?, child?_updateChild_of_not_same _ fits.hasPlace differ]
  | @later v key other rest more same deeper ih =>
    have kept : (set a rest (v.childOrEmpty key)).get? more = (v.childOrEmpty key).get? more :=
      ih fits.childOrEmpty
    rw [set, get?, get?, child?_updateChild_of_same _ fits.hasPlace same, Option.bind_some, kept,
      Value.childOrEmpty, same.child?_eq]
    cases v.child? other with
    | some child => rfl
    | none =>
      cases deeper <;> rfl

private theorem grows_updateChild (update : Value → Value) (fits : v.hasPlace key = true)
    (container : v.isScalar = false) : v.Grows (updateChild update v key) := by
  cases v with
  | obj members => exact .members fun name member => Dict.mem_keys_insert.mpr (.inr member)
  | arr items =>
    obtain ⟨i, changed, _, eq, length, _⟩ := updateChild_arr update fits
    rw [eq]
    exact .items (by omega)
  | null | bool _ | num _ | str _ => cases container

private theorem Misfit.cons {child : Value} {keys path : List String}
    (misfit : child.Misfit keys path)
    (found : v.child? key = some child) (same : v.SameKey key other) :
    v.Misfit (key :: keys) (other :: path) := by
  obtain ⟨front, next, back, w, eq, led, unfit, along⟩ := misfit
  refine ⟨key :: front, next, back, w, by rw [eq, List.cons_append], ?_, unfit, same, ?_⟩
  · rw [get?, found]
    exact led
  · rwa [childOrEmpty, found]

/-- What becomes of a value that is found somewhere when something is written at a path. -/
private theorem get?_set_cases (a : Value) {keys path : List String} {x : Value}
    (found : v.get? path = some x) :
    (set a keys v).get? path = some x ∨ v.Along keys path ∨
      (v.Along path keys ∧
        (x.isScalar = true ∨ ∃ y, (set a keys v).get? path = some y ∧ x.Grows y)) ∨
      v.Misfit keys path := by
  -- Both paths are walked together, until one of them ends or they part.
  induction path generalizing v keys with
  | nil =>
    obtain rfl : v = x := Option.some.inj found
    cases keys with
    | nil => exact .inr (.inl trivial)
    | cons key rest =>
      cases fits : v.hasPlace key with
      | false => exact .inr (.inr (.inr ⟨[], key, rest, v, rfl, rfl, fits, trivial⟩))
      | true =>
        cases scalar : v.isScalar with
        | true => exact .inr (.inr (.inl ⟨trivial, .inl rfl⟩))
        | false =>
          exact .inr (.inr (.inl ⟨trivial, .inr ⟨_, rfl, grows_updateChild _ fits scalar⟩⟩))
  | cons other more ih =>
    cases keys with
    | nil => exact .inr (.inl trivial)
    | cons key rest =>
      cases fits : v.hasPlace key with
      | false => exact .inr (.inr (.inr ⟨[], key, rest, v, rfl, rfl, fits, trivial⟩))
      | true =>
        by_cases same : v.SameKey key other
        · obtain ⟨child, step, deeper⟩ := Option.bind_eq_some_iff.mp found
          rw [← same.child?_eq] at step
          have led : v.childOrEmpty key = child := by rw [childOrEmpty, step, Option.getD_some]
          have led' : v.childOrEmpty other = child := by rw [← same.childOrEmpty_eq, led]
          have after : (set a (key :: rest) v).get? (other :: more) =
              (set a rest child).get? more := by
            rw [set, get?, child?_updateChild_of_same _ fits same, led, Option.bind_some]
          rw [after]
          rcases ih deeper with kept | through | ⟨onWay, changed⟩ | misfit
          · exact .inl kept
          · exact .inr (.inl ⟨same, by rwa [led]⟩)
          · exact .inr (.inr (.inl ⟨⟨same.symm, by rwa [led']⟩, changed⟩))
          · exact .inr (.inr (.inr (misfit.cons step same)))
        · refine .inl ?_
          rw [set, get?, child?_updateChild_of_not_same _ fits same]
          exact found

/-- A write keeps every sibling. If each key of its path has a place in the value in which it is
looked up, all paths that diverge from it lead where they led before. Whatever the keys are, what is
found in the old value is found there afterwards, unless it was found at the path of the write or
below, or on its way, where objects and arrays grow and scalars are replaced, or at or below an
array that is addressed by a key without a place in it. -/
theorem siblings_kept (v : Value) (keys : List String) (a : Value) :
    (v.Fits keys → ∀ path, v.Diverge keys path → (set a keys v).get? path = v.get? path) ∧
    ∀ path x, v.get? path = some x →
      (set a keys v).get? path = some x ∨ v.Along keys path ∨
        (v.Along path keys ∧
          (x.isScalar = true ∨ ∃ y, (set a keys v).get? path = some y ∧ x.Grows y)) ∨
        v.Misfit keys path :=
  ⟨fun fits _ diverge => get?_set_of_diverge a fits diverge,
    fun _ _ found => get?_set_cases a found⟩

theorem siblings_kept_of_longer_array :
    let v : Value := .obj [("list", .arr [.ofInt 1, .obj [("x", .null)]])]
    let keys := ["list", "+2", "y", "0"]
    let path := ["list", "01", "x"]
    v.Fits keys ∧ v.Diverge keys path ∧ v.get? path = some .null ∧
      (set (.bool true) keys v).get? path = v.get? path := by
  intro v keys path
  have fits : v.Fits keys := by decide +kernel
  have diverge : v.Diverge keys path := by decide +kernel
  have found : v.get? path = some .null := by decide +kernel
  exact ⟨fits, diverge, found, (siblings_kept v keys (.bool true)).1 fits path diverge⟩

/-- What can be seen of a value without looking into it or at its content: the keys of an object,
the length of an array, or that it is a scalar. -/
inductive Outline where
  | scalar
  | items (count : Nat)
  | members (names : List String)
deriving DecidableEq

def outline : Value → Outline
  | .arr items => .items items.length
  | .obj members => .members (Dict.keys members)
  | _ => .scalar

private theorem outline_of_isScalar (scalar : v.isScalar = true) : v.outline = .scalar := by
  cases v with
  | arr _ | obj _ => cases scalar
  | null | bool _ | num _ | str _ => rfl

private theorem outline_updateChild (update : Value → Value) {child : Value}
    (found : v.child? key = some child) : (updateChild update v key).outline = v.outline := by
  cases v with
  | arr items =>
    obtain ⟨i, index, item⟩ := Option.bind_eq_some_iff.mp found
    simp [updateChild, index, item, outline]
  | obj members =>
    have present : Dict.get? key members = some child := found
    simp only [updateChild, outline, Dict.keys_insert_of_get? present]
  | null | bool _ | num _ | str _ => cases found

theorem outline_get?_set {a old : Value} {keys : List String} (found : v.get? keys = some old)
    (before : old.isScalar = true) (after : a.isScalar = true) (path : List String) :
    ((set a keys v).get? path).map outline = (v.get? path).map outline := by
  induction path generalizing v keys with
  | nil =>
    cases keys with
    | nil =>
      obtain rfl : v = old := Option.some.inj found
      simp [set, get?, outline_of_isScalar before, outline_of_isScalar after]
    | cons key rest =>
      obtain ⟨child, step, _⟩ := Option.bind_eq_some_iff.mp found
      simp [set, get?, outline_updateChild _ step]
  | cons other more ih =>
    cases keys with
    | nil =>
      obtain rfl : v = old := Option.some.inj found
      have leaf {w : Value} (scalar : w.isScalar = true) : w.get? (other :: more) = none := by
        cases w with
        | arr _ | obj _ => cases scalar
        | null | bool _ | num _ | str _ => rfl
      rw [set, leaf before, leaf after]
    | cons key rest =>
      obtain ⟨child, step, deeper⟩ := Option.bind_eq_some_iff.mp found
      have fits := hasPlace_of_child? step
      by_cases same : v.SameKey key other
      · rw [set, get?, get?, child?_updateChild_of_same _ fits same, ← same.child?_eq, childOrEmpty,
          step]
        exact ih deeper
      · rw [set, get?, get?, child?_updateChild_of_not_same _ fits same]

end OperatorScript.Json.Value
