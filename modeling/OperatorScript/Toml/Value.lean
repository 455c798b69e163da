/-!
TOML values and the tables that a document builds up.

Only texts, booleans, lists and tables keep their contents: no setting is a number or a moment, so
of these only the form is checked.
-/

set_option autoImplicit false
set_option relaxedAutoImplicit false

namespace OperatorScript.Toml

inductive Value where
  | text (s : String)
  | bool (b : Bool)
  | other
  | list (items : List Value)
  | table (entries : List (String × Value))
deriving Inhabited

/-- How a table came to be: on the way to the table of a header, by a header, or by a dotted key. -/
inductive Origin where
  | passed
  | header
  | dotted
deriving DecidableEq

/-- What stands under a key of a document: a value, which is closed; a table; or a list of tables,
of which only the last can be added to. -/
inductive Node where
  | value (v : Value)
  | table (origin : Origin) (entries : List (String × Node))
  | tables (earlier : List (List (String × Node))) (last : List (String × Node))
deriving Inhabited

abbrev Entries := List (String × Node)

namespace Entries

def find? (key : String) (es : Entries) : Option Node :=
  (List.find? (fun e => e.1 == key) es).map Prod.snd

def put (key : String) (node : Node) : Entries → Entries
  | [] => [(key, node)]
  | e :: rest => if e.1 = key then (key, node) :: rest else e :: put key node rest

/-- Adds a value under a dotted key. Nothing may stand there yet. The way leads through the last
table of a list and through tables that no header made; the table that takes the value must come
from a dotted key itself. -/
def assign (v : Value) : List String → Entries → Option Entries
  | [], _ => none
  | [key], es =>
    match find? key es with
    | none => some (put key (.value v) es)
    | some _ => none
  | key :: rest, es =>
    match find? key es with
    | none => (assign v rest []).map fun inner => put key (.table .dotted inner) es
    | some (.table origin inner) =>
      if origin = .header ∨ (origin = .passed ∧ rest.length = 1) then none
      else (assign v rest inner).map fun inner => put key (.table origin inner) es
    | some (.tables earlier last) =>
      if rest.length = 1 then none
      else (assign v rest last).map fun last => put key (.tables earlier last) es
    | some (.value _) => none

def openTable : List String → Entries → Option Entries
  | [], _ => none
  | [key], es =>
    match find? key es with
    | none => some (put key (.table .header []) es)
    | some (.table .passed inner) => some (put key (.table .header inner) es)
    | some _ => none
  | key :: rest, es =>
    match find? key es with
    | none => (openTable rest []).map fun inner => put key (.table .passed inner) es
    | some (.table origin inner) =>
      (openTable rest inner).map fun inner => put key (.table origin inner) es
    | some (.tables earlier last) =>
      (openTable rest last).map fun last => put key (.tables earlier last) es
    | some (.value _) => none

def openElement : List String → Entries → Option Entries
  | [], _ => none
  | [key], es =>
    match find? key es with
    | none => some (put key (.tables [] []) es)
    | some (.tables earlier last) => some (put key (.tables (earlier ++ [last]) []) es)
    | some _ => none
  | key :: rest, es =>
    match find? key es with
    | none => (openElement rest []).map fun inner => put key (.table .passed inner) es
    | some (.table origin inner) =>
      (openElement rest inner).map fun inner => put key (.table origin inner) es
    | some (.tables earlier last) =>
      (openElement rest last).map fun last => put key (.tables earlier last) es
    | some (.value _) => none

def within (change : Entries → Option Entries) : List String → Entries → Option Entries
  | [], es => change es
  | key :: rest, es =>
    match find? key es with
    | some (.table origin inner) =>
      (within change rest inner).map fun inner => put key (.table origin inner) es
    | some (.tables earlier last) =>
      (within change rest last).map fun last => put key (.tables earlier last) es
    | _ => none

end Entries

mutual

def Node.toValue : Node → Value
  | .value v => v
  | .table _ es => .table (entriesToValues es)
  | .tables earlier last => .list (tablesToValues earlier ++ [.table (entriesToValues last)])

def Node.entriesToValues : List (String × Node) → List (String × Value)
  | [] => []
  | (key, node) :: rest => (key, node.toValue) :: entriesToValues rest

def Node.tablesToValues : List (List (String × Node)) → List Value
  | [] => []
  | es :: rest => .table (entriesToValues es) :: tablesToValues rest

end

end OperatorScript.Toml
