/-!
Dictionaries: entries in ascending order of their keys, read and changed by key.

Every operation walks the entries only as far as the first key that is not below the wanted one.
The laws of reading after writing therefore hold for every list of entries, and on a list in strict
order the operations are those of a finite map.
-/

set_option autoImplicit false
set_option relaxedAutoImplicit false

namespace OperatorScript

/-- Entries with text keys, kept in ascending order of the keys by code point. -/
abbrev Dict (α : Type) := List (String × α)

namespace Dict

variable {α : Type}

def get? (key : String) : Dict α → Option α
  | [] => none
  | (k, v) :: rest =>
    if k = key then some v
    else if k < key then get? key rest
    else none

def insert (key : String) (value : α) : Dict α → Dict α
  | [] => [(key, value)]
  | (k, v) :: rest =>
    if k = key then (key, value) :: rest
    else if k < key then (k, v) :: insert key value rest
    else (key, value) :: (k, v) :: rest

def erase (key : String) : Dict α → Dict α
  | [] => []
  | (k, v) :: rest =>
    if k = key then rest
    else if k < key then (k, v) :: erase key rest
    else (k, v) :: rest

def contains (key : String) (d : Dict α) : Bool := (d.get? key).isSome

def keys (d : Dict α) : List String := d.map Prod.fst

/-- Inserts every entry of `part` in turn, so that `part` wins where both have a key. -/
def merge (d part : Dict α) : Dict α :=
  part.foldl (fun acc e => acc.insert e.1 e.2) d

/-- The dictionary of a list of entries; of two entries with one key the later stays. -/
def ofEntries (entries : List (String × α)) : Dict α := merge [] entries

def Ordered (d : Dict α) : Prop := d.keys.Pairwise (· < ·)

instance (d : Dict α) : Decidable d.Ordered :=
  inferInstanceAs (Decidable (d.keys.Pairwise (· < ·)))

end Dict

end OperatorScript
