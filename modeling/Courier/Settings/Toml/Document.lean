import Courier.Settings.Tree
set_option autoImplicit false

/-!
# Building a TOML document

Keys and headers may only add to what is there. A table that a header opens is opened once, though headers of tables
inside it may come before; a table that a key with points makes is added to by such keys only; a header in double
brackets adds a table to a list.
-/

namespace Courier.Settings.Toml

inductive Node where
  | value (t : Tree Unit)
  | dotted (entries : List (String × Node))
  /-- A table made by headers; whether one of them was its own. -/
  | table (isOpened : Bool) (entries : List (String × Node))
  /-- The tables of a list, the last one apart. -/
  | tables (earlier : List (List (String × Node))) (last : List (String × Node))

abbrev Nodes := List (String × Node)

mutual

def Node.tree : Node → Tree Unit
  | .value t => t
  | .dotted es => .table () (treesOf es)
  | .table _ es => .table () (treesOf es)
  | .tables earlier last => .list () (tablesOf earlier ++ [.table () (treesOf last)])

def treesOf : Nodes → Entries Unit
  | [] => []
  | (k, n) :: r => (k, n.tree) :: treesOf r

def tablesOf : List Nodes → List (Tree Unit)
  | [] => []
  | es :: r => .table () (treesOf es) :: tablesOf r

end

/-- Adds a value under a key; none if the key is taken, or leads through something that such a key did not make. -/
def addValue? (v : Tree Unit) : List String → Nodes → Option Nodes
  | [], _ => none
  | [k], es =>
    changeAt? k (fun
      | none => some (.value v)
      | some _ => none) es
  | k :: l :: p, es =>
    changeAt? k (fun
      | none => (addValue? v (l :: p) []).map .dotted
      | some (.dotted inner) => (addValue? v (l :: p) inner).map .dotted
      | some _ => none) es

def addEntries? (old new : Nodes) : Option Nodes :=
  if new.all fun e => (old.lookup e.1).isNone then some (old ++ new) else none

/-- Adds a table with these entries under a header; none if the header is not allowed there. -/
def addTable? (isList : Bool) (body : Nodes) : List String → Nodes → Option Nodes
  | [], _ => none
  | [k], es =>
    changeAt? k (fun
      | none => some (if isList then .tables [] body else .table true body)
      | some (.tables earlier last) => if isList then some (.tables (earlier ++ [last]) body) else none
      | some (.table false inner) => if isList then none else (addEntries? inner body).map (.table true)
      | some _ => none) es
  | k :: l :: p, es =>
    changeAt? k (fun
      | none => (addTable? isList body (l :: p) []).map (.table false)
      | some (.table isOpened inner) => (addTable? isList body (l :: p) inner).map (.table isOpened)
      | some (.tables earlier last) => (addTable? isList body (l :: p) last).map (.tables earlier)
      | some _ => none) es

end Courier.Settings.Toml
