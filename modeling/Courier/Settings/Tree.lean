import Courier.Bounded
import Courier.Decimal.Binary64
import Courier.Json.Value
set_option autoImplicit false

namespace Courier.Settings

inductive Leaf where
  | empty
  | flag (b : Bool)
  | whole (n : Word64)
  | binary (x : Binary64)
  | text (s : String)
  deriving DecidableEq, Repr

/-- A tree with marks. The entries of a table have different names. -/
inductive Tree (α : Type) where
  | leaf (mark : α) (value : Leaf)
  | list (mark : α) (items : List (Tree α))
  | table (mark : α) (entries : List (String × Tree α))
  deriving Repr, Inhabited

abbrev Entries (α : Type) := List (String × Tree α)

/-- Changes the entry of a name, which comes last if it is new; no change is made if the function has no result. -/
def changeAt? {α : Type} (name : String) (f : Option α → Option α) : List (String × α) → Option (List (String × α))
  | [] => (f none).map fun v => [(name, v)]
  | (k, v) :: r =>
    if k = name then (f (some v)).map fun v => (k, v) :: r
    else (changeAt? name f r).map ((k, v) :: ·)

def setEntry {α : Type} (name : String) (v : α) : List (String × α) → List (String × α)
  | [] => [(name, v)]
  | (k, w) :: r => if k = name then (k, v) :: r else (k, w) :: setEntry name v r

namespace Tree

variable {α β : Type}

mutual

def remark (mark : β) : Tree α → Tree β
  | .leaf _ v => .leaf mark v
  | .list _ items => .list mark (remarkItems mark items)
  | .table _ entries => .table mark (remarkEntries mark entries)

def remarkItems (mark : β) : List (Tree α) → List (Tree β)
  | [] => []
  | t :: r => remark mark t :: remarkItems mark r

def remarkEntries (mark : β) : Entries α → Entries β
  | [] => []
  | (k, t) :: r => (k, remark mark t) :: remarkEntries mark r

end

def entries : Tree α → Entries α
  | .table _ es => es
  | _ => []

def items : Tree α → List (Tree α)
  | .list _ ts => ts
  | _ => []

/-- An integer; one that does not fit becomes a number with a point. -/
def ofInt (n : Int) : Tree Unit :=
  match Bounded.ofInt? n with
  | some w => .leaf () (.whole w)
  | none => .leaf () (.binary (.ofInt n))

def ofText (s : List Char) : Tree Unit := .leaf () (.text (String.ofList s))

mutual

def ofJson : Json → Tree Unit
  | .null => .leaf () .empty
  | .bool b => .leaf () (.flag b)
  | .integer n => ofInt n.val
  | .binary x => .leaf () (.binary x)
  | .string s => .leaf () (.text s)
  | .array items => .list () (ofJsonItems items)
  | .object members => .table () (ofJsonMembers members)

def ofJsonItems : List Json → List (Tree Unit)
  | [] => []
  | j :: r => ofJson j :: ofJsonItems r

def ofJsonMembers : List (String × Json) → Entries Unit
  | [] => []
  | (k, j) :: r => (k, ofJson j) :: ofJsonMembers r

end

end Tree

end Courier.Settings
