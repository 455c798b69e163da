import OperatorScript.Procedure

/-!
The link table: which identity uses the id of which other one.

The table is a list of pairs in the order in which they were first made. It is kept as one field of
one global record; entries of that field that are not pairs of texts are passed over.
-/

set_option autoImplicit false
set_option relaxedAutoImplicit false

namespace OperatorScript

open Json

/-- Pairs of a target and the identity to which it is linked. -/
abbrev LinkTable := List (String × String)

namespace LinkTable

def recordId : String := "uid_links"

def fieldName : String := "links"

def linked? (t : LinkTable) (target : String) : Option String :=
  (t.find? fun e => e.1 == target).map Prod.snd

def holder? (t : LinkTable) (linked : String) : Option String :=
  (t.find? fun e => e.2 == linked).map Prod.fst

/-- Links a target: in its place if it is linked already, else at the end. -/
def link (target linked : String) : LinkTable → LinkTable
  | [] => [(target, linked)]
  | e :: rest => if e.1 = target then (target, linked) :: rest else e :: link target linked rest

def unlink (t : LinkTable) (target : String) : LinkTable := t.filter fun e => e.1 != target

theorem linked?_cons (e : String × String) (rest : LinkTable) (target : String) :
    linked? (e :: rest) target = if e.1 = target then some e.2 else linked? rest target := by
  by_cases same : e.1 = target <;> simp [linked?, same]

theorem linked?_link (target linked : String) (t : LinkTable) (other : String) :
    (t.link target linked).linked? other =
      if target = other then some linked else t.linked? other := by
  induction t with
  | nil => exact linked?_cons _ _ _
  | cons e rest ih =>
    rw [link]
    split
    · next same =>
      rw [linked?_cons, linked?_cons, same]
      split <;> rfl
    · next ne =>
      rw [linked?_cons, linked?_cons, ih]
      grind

/-- Whether a link would point back at its target at once. -/
def isCircular (t : LinkTable) (target linked : String) : Bool :=
  linked == target || t.linked? linked == some target

def pairToValue (e : String × String) : Value := .arr [.str e.1, .str e.2]

def toValue (t : LinkTable) : Value := .arr (t.map pairToValue)

def pairOfValue? : Value → Option (String × String)
  | .arr [.str target, .str linked] => some (target, linked)
  | _ => none

/-- The table that a JSON value stands for; what is not a pair is passed over. -/
def ofValue : Option Value → LinkTable
  | some (.arr items) => items.filterMap pairOfValue?
  | _ => []

@[simp] theorem ofValue_toValue (t : LinkTable) : ofValue (some t.toValue) = t := by
  induction t with
  | nil => rfl
  | cons e rest ih =>
    have tail : (rest.map pairToValue).filterMap pairOfValue? = rest := ih
    simp [ofValue, toValue, pairToValue, pairOfValue?, tail]

def load : Procedure String LinkTable := do
  let record ← Procedure.queryRecord .global recordId fieldName
  .done (ofValue (record.get? fieldName))

def save (t : LinkTable) : Procedure String Unit :=
  Procedure.setRecord .global recordId [(fieldName, t.toValue)]

end LinkTable

end OperatorScript
