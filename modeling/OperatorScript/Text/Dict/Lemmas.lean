import OperatorScript.Text.Dict

/-!
Laws of dictionaries.

Reading after writing needs no order. On dictionaries in order, erasing and merging are those of
finite maps, every operation keeps the order, and what is read determines the dictionary.
-/

set_option autoImplicit false
set_option relaxedAutoImplicit false

namespace OperatorScript.Dict

variable {α : Type}

@[simp] theorem get?_nil (key : String) : get? key ([] : Dict α) = none := rfl

@[simp] theorem get?_insert_self (key : String) (value : α) (d : Dict α) :
    (d.insert key value).get? key = some value := by
  induction d with
  | nil => simp [insert, get?]
  | cons e rest ih =>
    obtain ⟨k, v⟩ := e
    by_cases same : k = key
    · simp [insert, get?, same]
    · by_cases below : k < key
      · simp [insert, get?, same, below, ih]
      · simp [insert, get?, same, below]

theorem get?_insert_of_ne {key other : String} (ne : other ≠ key) (value : α) (d : Dict α) :
    (d.insert key value).get? other = d.get? other := by
  induction d with
  | nil => simp [insert, get?, Ne.symm ne]
  | cons e rest ih =>
    obtain ⟨k, v⟩ := e
    by_cases same : k = key
    · subst same
      simp [insert, get?, Ne.symm ne]
    · by_cases below : k < key
      · simp [insert, get?, same, below, ih]
      · simp only [insert, get?, same, below, if_false, Ne.symm ne]
        have above : key < k := Std.lt_of_le_of_ne (Std.not_lt.mp below) (Ne.symm same)
        by_cases past : key < other
        · simp [past]
        · have h : ¬ k < other := fun h => past (String.lt_trans above h)
          have ne' : k ≠ other := fun h => past (h ▸ above)
          simp [past, h, ne']

theorem get?_insert (key other : String) (value : α) (d : Dict α) :
    (d.insert key value).get? other = if other = key then some value else d.get? other := by
  by_cases same : other = key
  · simp [same]
  · simp [same, get?_insert_of_ne same]

@[simp] theorem insert_insert_self (key : String) (value later : α) (d : Dict α) :
    (d.insert key value).insert key later = d.insert key later := by
  induction d with
  | nil => simp [insert]
  | cons e rest ih =>
    obtain ⟨k, v⟩ := e
    by_cases same : k = key
    · simp [insert, same]
    · by_cases below : k < key
      · simp [insert, same, below, ih]
      · simp [insert, same, below]

theorem insert_comm {key other : String} (ne : other ≠ key) (value value' : α) (d : Dict α) :
    (d.insert key value).insert other value' = (d.insert other value').insert key value := by
  have sorted {k l : String} (lt : k < l) (x y : α) :
      (d.insert k x).insert l y = (d.insert l y).insert k x := by
    have ne : k ≠ l := fun same => String.lt_irrefl l (same ▸ lt)
    induction d with
    | nil => simp [insert, ne, lt, Ne.symm ne, Std.not_lt.mpr (Std.le_of_lt lt)]
    | cons e rest ih =>
      obtain ⟨j, z⟩ := e
      by_cases same : j = k
      · subst same
        simp [insert, ne, lt]
      · by_cases below : j < k
        · have past : j < l := String.lt_trans below lt
          have ne' : j ≠ l := fun same => String.lt_irrefl l (same ▸ past)
          simp [insert, same, below, past, ne', ih]
        · have above : k < j := Std.lt_of_le_of_ne (Std.not_lt.mp below) (Ne.symm same)
          by_cases same' : j = l
          · subst same'
            simp [insert, same, below, ne, lt]
          · by_cases past : j < l
            · simp [insert, same, below, ne, lt, past, same']
            · simp [insert, same, below, ne, lt, past, same', Ne.symm ne,
                Std.not_lt.mpr (Std.le_of_lt lt)]
  by_cases lt : key < other
  · exact sorted lt value value'
  · have gt : other < key := Std.lt_of_le_of_ne (Std.not_lt.mp lt) ne
    exact (sorted gt value' value).symm

theorem mem_of_get? {key : String} {value : α} {d : Dict α} (found : d.get? key = some value) :
    (key, value) ∈ d := by
  induction d with
  | nil => cases found
  | cons e rest ih =>
    obtain ⟨k, v⟩ := e
    unfold get? at found
    split at found
    · next same =>
      cases found
      rw [same]
      exact List.mem_cons_self
    · split at found
      · exact List.mem_cons_of_mem _ (ih found)
      · cases found

theorem insert_eq_self {key : String} {value : α} {d : Dict α} (present : d.get? key = some value) :
    d.insert key value = d := by
  induction d with
  | nil => simp at present
  | cons e rest ih =>
    obtain ⟨k, v⟩ := e
    by_cases same : k = key
    · have values : v = value := by simpa [get?, same] using present
      simp [insert, same, values]
    · by_cases below : k < key
      · have tail : get? key rest = some value := by simpa [get?, same, below] using present
        simp [insert, same, below, ih tail]
      · simp [get?, same, below] at present

theorem erase_eq_self {key : String} {d : Dict α} (absent : d.get? key = none) :
    d.erase key = d := by
  induction d with
  | nil => rfl
  | cons e rest ih =>
    obtain ⟨k, v⟩ := e
    by_cases same : k = key
    · simp [get?, same] at absent
    · by_cases below : k < key
      · have tail : get? key rest = none := by simpa [get?, same, below] using absent
        simp [erase, same, below, ih tail]
      · simp [erase, same, below]

theorem mem_keys_insert {key other : String} {value : α} {d : Dict α} :
    other ∈ (d.insert key value).keys ↔ other = key ∨ other ∈ d.keys := by
  induction d with
  | nil => simp [insert, keys]
  | cons e rest ih =>
    obtain ⟨k, v⟩ := e
    simp only [keys] at ih
    by_cases same : k = key
    · simp [insert, keys, same]
    · by_cases below : k < key
      · simp [insert, keys, same, below, ih, or_left_comm]
      · simp [insert, keys, same, below]

theorem keys_insert_of_get? {key : String} {old value : α} {d : Dict α}
    (present : d.get? key = some old) : (d.insert key value).keys = d.keys := by
  induction d with
  | nil => simp at present
  | cons e rest ih =>
    obtain ⟨k, v⟩ := e
    simp only [keys] at ih
    by_cases same : k = key
    · simp [insert, keys, same]
    · by_cases below : k < key
      · have tail : get? key rest = some old := by simpa [get?, same, below] using present
        simp [insert, keys, same, below, ih tail]
      · simp [get?, same, below] at present

theorem ordered_nil : Ordered ([] : Dict α) := .nil

private theorem ordered_cons {e : String × α} {rest : Dict α} :
    Ordered (e :: rest) ↔ (∀ k ∈ rest.keys, e.1 < k) ∧ Ordered rest := List.pairwise_cons

theorem Ordered.insert {d : Dict α} (ordered : d.Ordered) (key : String) (value : α) :
    (d.insert key value).Ordered := by
  induction d with
  | nil => simp [Dict.insert, Ordered, keys]
  | cons e rest ih =>
    obtain ⟨k, v⟩ := e
    obtain ⟨first, tail⟩ := ordered_cons.mp ordered
    by_cases same : k = key
    · subst same
      simp only [Dict.insert, if_true]
      exact ordered_cons.mpr ⟨first, tail⟩
    · by_cases below : k < key
      · simp only [Dict.insert, same, below, if_true, if_false]
        refine ordered_cons.mpr ⟨fun other member => ?_, ih tail⟩
        rcases mem_keys_insert.mp member with rfl | member
        · exact below
        · exact first other member
      · have above : key < k := Std.lt_of_le_of_ne (Std.not_lt.mp below) (Ne.symm same)
        simp only [Dict.insert, same, below, if_false]
        refine ordered_cons.mpr ⟨fun other member => ?_, ordered⟩
        rcases List.mem_cons.mp member with rfl | member
        · exact above
        · exact String.lt_trans above (first other member)

private theorem get?_eq_none_of_forall_lt {key : String} {d : Dict α}
    (below : ∀ k ∈ d.keys, key < k) :
    d.get? key = none := by
  match d, below with
  | [], _ => rfl
  | (k, v) :: rest, below =>
    have above : key < k := below k (by simp [keys])
    have ne : k ≠ key := fun h => String.lt_irrefl key (h ▸ above)
    simp [get?, ne, Std.not_lt.mpr (Std.le_of_lt above)]

theorem Ordered.get?_erase_self {d : Dict α} (ordered : d.Ordered) (key : String) :
    (d.erase key).get? key = none := by
  induction d with
  | nil => rfl
  | cons e rest ih =>
    obtain ⟨k, v⟩ := e
    obtain ⟨first, tail⟩ := ordered_cons.mp ordered
    by_cases same : k = key
    · subst same
      simpa [erase] using get?_eq_none_of_forall_lt first
    · by_cases below : k < key
      · simp [erase, get?, same, below, ih tail]
      · simp [erase, get?, same, below]

theorem Ordered.get?_erase_of_ne {d : Dict α} (ordered : d.Ordered) {key other : String}
    (ne : other ≠ key) : (d.erase key).get? other = d.get? other := by
  induction d with
  | nil => rfl
  | cons e rest ih =>
    obtain ⟨k, v⟩ := e
    obtain ⟨first, tail⟩ := ordered_cons.mp ordered
    by_cases same : k = key
    · subst same
      by_cases past : k < other
      · simp [erase, get?, Ne.symm ne, past]
      · have above : other < k := Std.lt_of_le_of_ne (Std.not_lt.mp past) ne
        have none := get?_eq_none_of_forall_lt fun x hx => String.lt_trans above (first x hx)
        simp [erase, get?, Ne.symm ne, past, none]
    · by_cases below : k < key
      · simp [erase, get?, same, below, ih tail]
      · simp [erase, same, below]

private theorem mem_keys_of_mem_keys_erase {key other : String} {d : Dict α}
    (member : other ∈ (d.erase key).keys) : other ∈ d.keys := by
  induction d with
  | nil => exact member
  | cons e rest ih =>
    obtain ⟨k, v⟩ := e
    by_cases same : k = key
    · simp only [erase, same, if_true] at member
      exact List.mem_cons_of_mem _ member
    · by_cases below : k < key
      · simp only [erase, same, below, if_true, if_false] at member
        rcases List.mem_cons.mp member with rfl | member
        · exact List.mem_cons_self
        · exact List.mem_cons_of_mem _ (ih member)
      · simpa [erase, same, below] using member

theorem Ordered.erase {d : Dict α} (ordered : d.Ordered) (key : String) :
    (d.erase key).Ordered := by
  induction d with
  | nil => exact ordered_nil
  | cons e rest ih =>
    obtain ⟨k, v⟩ := e
    obtain ⟨first, tail⟩ := ordered_cons.mp ordered
    by_cases same : k = key
    · simpa [Dict.erase, same] using tail
    · by_cases below : k < key
      · simp only [Dict.erase, same, below, if_true, if_false]
        exact ordered_cons.mpr
          ⟨fun other member => first other (mem_keys_of_mem_keys_erase member), ih tail⟩
      · simpa [Dict.erase, same, below] using ordered

private theorem Ordered.merge {d : Dict α} (ordered : d.Ordered) (part : Dict α) :
    (d.merge part).Ordered := by
  induction part generalizing d with
  | nil => exact ordered
  | cons e rest ih => exact ih (ordered.insert e.1 e.2)

theorem ordered_ofEntries (entries : List (String × α)) : (ofEntries entries).Ordered :=
  ordered_nil.merge entries

private theorem get?_merge_of_not_mem {part : List (String × α)} {key : String}
    (absent : key ∉ part.map Prod.fst) (d : Dict α) : (d.merge part).get? key = d.get? key := by
  induction part generalizing d with
  | nil => rfl
  | cons e rest ih =>
    obtain ⟨ne, later⟩ := List.ne_and_not_mem_of_not_mem_cons absent
    exact (ih later (d.insert e.1 e.2)).trans (get?_insert_of_ne ne e.2 d)

theorem get?_ofEntries_of_last {front back : List (String × α)} {key : String} (value : α)
    (absent : key ∉ back.map Prod.fst) :
    (ofEntries (front ++ (key, value) :: back)).get? key = some value := by
  rw [ofEntries, merge, List.foldl_append]
  exact (get?_merge_of_not_mem absent _).trans (get?_insert_self key value _)

private theorem contains_merge_iff (d : Dict α) (part : List (String × α)) (key : String) :
    (d.merge part).contains key = true ↔ d.contains key = true ∨ key ∈ part.map Prod.fst := by
  induction part generalizing d with
  | nil => simp [merge]
  | cons e rest ih =>
    have step : (d.merge (e :: rest)).contains key = true ↔
        (d.insert e.1 e.2).contains key = true ∨ key ∈ rest.map Prod.fst := ih (d.insert e.1 e.2)
    rw [step, contains, get?_insert]
    by_cases same : key = e.1
    · simp [same]
    · simp [same, contains]

theorem contains_ofEntries_iff (entries : List (String × α)) (key : String) :
    (ofEntries entries).contains key = true ↔ key ∈ entries.map Prod.fst := by
  rw [ofEntries, contains_merge_iff]
  simp [contains, get?]

/-- A dictionary in order is determined by what is read from it. -/
theorem Ordered.ext {d e : Dict α} (hd : d.Ordered) (he : e.Ordered)
    (same : ∀ key, d.get? key = e.get? key) : d = e := by
  induction d generalizing e with
  | nil =>
    cases e with
    | nil => rfl
    | cons first rest => simpa [get?] using same first.1
  | cons x xs ih =>
    obtain ⟨k, v⟩ := x
    obtain ⟨below, tail⟩ := ordered_cons.mp hd
    cases e with
    | nil => simpa [get?] using same k
    | cons y ys =>
      obtain ⟨j, w⟩ := y
      obtain ⟨below', tail'⟩ := ordered_cons.mp he
      have keysEq : k = j := by
        by_cases h : k = j
        · exact h
        · by_cases lt : k < j
          · have := same k
            have none : get? k ((j, w) :: ys) = Option.none := get?_eq_none_of_forall_lt (by
              intro x hx
              rcases List.mem_cons.mp hx with rfl | hx
              · exact lt
              · exact String.lt_trans lt (below' x hx))
            rw [none] at this
            simp [get?] at this
          · have gt : j < k := Std.lt_of_le_of_ne (Std.not_lt.mp lt) (Ne.symm h)
            have := same j
            have none : get? j ((k, v) :: xs) = Option.none := get?_eq_none_of_forall_lt (by
              intro x hx
              rcases List.mem_cons.mp hx with rfl | hx
              · exact gt
              · exact String.lt_trans gt (below x hx))
            rw [none] at this
            simp [get?] at this
      subst keysEq
      have values : v = w := by simpa [get?] using same k
      subst values
      congr 1
      refine ih tail tail' fun key => ?_
      by_cases h : k = key
      · subst h
        rw [get?_eq_none_of_forall_lt below, get?_eq_none_of_forall_lt below']
      · by_cases lt : k < key
        · simpa [get?, h, lt] using same key
        · have gt : key < k := Std.lt_of_le_of_ne (Std.not_lt.mp lt) (Ne.symm h)
          rw [get?_eq_none_of_forall_lt fun x hx => String.lt_trans gt (below x hx),
            get?_eq_none_of_forall_lt fun x hx => String.lt_trans gt (below' x hx)]

end OperatorScript.Dict
