import OperatorScript.Json.Value
import OperatorScript.Number.Reading
import OperatorScript.Text.Blank
import OperatorScript.Text.Dict.Lemmas

/-!
Reading and changing a value at a path of keys.

A key names a member of an object and, on an array, the position that it reads as. Writing extends
an array at its end and puts an object in place of everything that cannot hold the key. The main
statement: what was put at a path is what the path leads to.
-/

set_option autoImplicit false
set_option relaxedAutoImplicit false

namespace OperatorScript.Json

/-- The keys written in a list of texts: the pieces between dots and blanks. -/
def pathKeys (parts : List String) : List String :=
  parts.flatMap fun part =>
    (Text.pieces (fun c => c == '.' || c == ' ') part.toList).map String.ofList

namespace Value

def child? (v : Value) (key : String) : Option Value :=
  match v with
  | .obj members => Dict.get? key members
  | .arr items => (readIndex? key).bind fun i => items[i]?
  | _ => none

def get? (v : Value) : List String → Option Value
  | [] => some v
  | key :: rest => (v.child? key).bind fun child => child.get? rest

def single (key : String) (v : Value) : Value := .obj [(key, v)]

/-- Puts `update` of what a key leads to in its place. What is missing is taken as an empty object;
a value that has no place for the key becomes an object with this one member. -/
def updateChild (update : Value → Value) (v : Value) (key : String) : Value :=
  match v with
  | .obj members =>
    .obj (Dict.insert key (update ((Dict.get? key members).getD (.obj []))) members)
  | .arr items =>
    match readIndex? key with
    | none => single key (update (.obj []))
    | some i =>
      match items[i]? with
      | some item => .arr (items.set i (update item))
      | none =>
        if i = items.length then .arr (items ++ [update (.obj [])])
        else single key (update (.obj []))
  | _ => single key (update (.obj []))

def set (new : Value) : List String → Value → Value
  | [], _ => new
  | key :: rest, v => updateChild (set new rest) v key

theorem child?_updateChild_self (update : Value → Value) (v : Value) (key : String) :
    (updateChild update v key).child? key = some (update ((v.child? key).getD (.obj []))) := by
  have alone : (single key (update (.obj []))).child? key = some (update (.obj [])) := by
    simp [single, child?, Dict.get?]
  cases v with
  | obj members => simp [updateChild, child?]
  | arr items =>
    cases index : readIndex? key with
    | none =>
      have before : (Value.arr items).child? key = none := by simp [child?, index]
      simpa [before, updateChild, index] using alone
    | some i =>
      cases found : items[i]? with
      | some item =>
        obtain ⟨inside, value⟩ := List.getElem?_eq_some_iff.mp found
        simp [updateChild, child?, index, inside, value]
      | none =>
        by_cases atEnd : i = items.length
        · simp [updateChild, child?, index, atEnd]
        · have before : (Value.arr items).child? key = none := by simp [child?, index, found]
          simpa [before, updateChild, index, found, atEnd] using alone
  | null | bool _ | num _ | str _ => simpa [updateChild, child?] using alone

@[simp] theorem get?_set_self (new : Value) (keys : List String) (v : Value) :
    (set new keys v).get? keys = some new := by
  induction keys generalizing v with
  | nil => rfl
  | cons key rest ih => simp [set, get?, child?_updateChild_self, ih]

end Value

/-- The part of a record that holds only what a dotted path of member names leads to, in its
nesting; empty if the path has no names or leads nowhere. -/
def Record.pickKeys : List String → Record → Record
  | [], _ => []
  | [key], r =>
    match r.get? key with
    | some v => [(key, v)]
    | none => []
  | key :: rest, r =>
    match r.get? key with
    | some (.obj inner) =>
      match pickKeys rest inner with
      | [] => []
      | found => [(key, .obj found)]
    | _ => []

def dottedKeys (path : String) : List String :=
  (Text.pieces (· == '.') path.toList).map String.ofList

def Record.pick (path : String) (r : Record) : Record := Record.pickKeys (dottedKeys path) r

theorem dottedKeys_of_mem_pathKeys {parts : List String} {key : String}
    (member : key ∈ pathKeys parts) : dottedKeys key = [key] := by
  obtain ⟨part, _, piece⟩ := List.mem_flatMap.mp member
  obtain ⟨cs, stretch, rfl⟩ := List.mem_map.mp piece
  obtain ⟨filled, uncut⟩ := Text.mem_pieces stretch
  have undotted (c : Char) (inside : c ∈ cs) : (c == '.') = false := by
    have plain := uncut c inside
    simp only [Bool.or_eq_false_iff] at plain
    exact plain.1
  simp [dottedKeys, Text.pieces_of_uncut filled undotted]

theorem Record.pick_of_dottedKeys {key : String} (single : dottedKeys key = [key]) (r : Record) :
    r.pick key = ((r.get? key).map fun v => (key, v)).toList := by
  unfold pick
  rw [single]
  cases found : r.get? key <;> simp [pickKeys, found]

end OperatorScript.Json
