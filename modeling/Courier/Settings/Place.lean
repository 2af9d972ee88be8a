import Courier.Decimal.Digits
import Courier.Settings.Tree
set_option autoImplicit false

/-!
# Places in a tree

A place is a way down the tree, through entries of tables and items of lists. Its text is the names with points between
them and the numbers in brackets. Setting a value at a place makes tables and lists on the way where there are none.
-/

namespace Courier.Settings

/-- A step down the tree. A negative number counts from the end of the list. -/
inductive Place.Step where
  | entry (name : String)
  | item (index : Int)
  deriving DecidableEq, Repr

abbrev Place := List Place.Step

namespace Place

def text : Place → String
  | [] => ""
  | [.entry k] => k
  | .entry k :: .entry l :: r => s!"{k}.{text (.entry l :: r)}"
  | .entry k :: r => s!"{k}{text r}"
  | .item i :: r => s!"[{i}]{text r}"

/-! ### Reading -/

def isNameChar (c : Char) : Bool := c.isAlphanum || c == ' ' || c == '_' || c == '-'

def index? (s : List Char) : Option Int :=
  let isBlank (c : Char) := c == ' ' || c == '\t' || c == '\r' || c == '\n'
  let inner := ((s.dropWhile isBlank).reverse.dropWhile isBlank).reverse
  let (negative, ds) := match inner with
    | '-' :: r => (true, r)
    | r => (false, r)
  if ds.isEmpty || !ds.all Decimal.isDigit then none
  else
    let n : Int := if negative then -(Decimal.value ds : Int) else Decimal.value ds
    if -9223372036854775808 ≤ n ∧ n ≤ 9223372036854775807 then some n else none

def readSteps : List Char → Option Place
  | [] => some []
  | c :: r =>
    if c = '.' then
      match r.takeWhile isNameChar with
      | [] => none
      | n => (readSteps (r.drop n.length)).map (.entry (String.ofList n) :: ·)
    else if c = '[' then
      let inside := r.takeWhile (· != ']')
      if inside.length < r.length then
        (index? inside).bind fun i => (readSteps (r.drop (inside.length + 1))).map (.item i :: ·)
      else none
    else none
termination_by s => s.length
decreasing_by all_goals simp only [List.length_cons, List.length_drop]; omega

def read? (s : List Char) : Option Place :=
  match s.takeWhile isNameChar with
  | [] => none
  | n => (readSteps (s.drop n.length)).map (.entry (String.ofList n) :: ·)

/-- The place that a name stands for: the one it spells, or else the entry of this name. -/
def ofName (name : String) : Place := (read? name.toList).getD [.entry name]

end Place

namespace Tree

variable {α : Type} (unmarked : α)

def asTable : Tree α → α × Entries α
  | .table mark es => (mark, es)
  | _ => (unmarked, [])

def asList : Tree α → α × List (Tree α)
  | .list mark ts => (mark, ts)
  | _ => (unmarked, [])

def changeIn (name : String) (f : Option (Tree α) → Tree α) (t : Tree α) : Tree α :=
  let (mark, es) := asTable unmarked t
  .table mark (setEntry name (f (es.lookup name)) es)

mutual

/-- Merges a tree into what an entry holds. A table is merged entry by entry; anything else takes the place of what was
there. -/
def merge : Tree α → Option (Tree α) → Tree α
  | .table _ es, old => mergeEntries es (old.getD (.table unmarked []))
  | t, _ => t

def mergeEntries : Entries α → Tree α → Tree α
  | [], t => t
  | (k, v) :: r, t => mergeEntries r (changeIn unmarked k (merge v) t)

end

def position? (index : Int) (length : Nat) : Option Nat :=
  if 0 ≤ index then some index.toNat
  else if index.natAbs ≤ length then some (length - index.natAbs) else none

/-- Puts an item into a list, which is filled up with empty leaves if it is too short. -/
def setItem (n : Nat) (v : Tree α) (ts : List (Tree α)) : List (Tree α) :=
  (ts ++ List.replicate (n + 1 - ts.length) (Tree.leaf unmarked .empty)).set n v

/-- Sets a value at a place; none if an index lies before the first item. -/
def set? (v : Tree α) : Place → Tree α → Option (Tree α)
  | [], _ => some v
  | [.entry k], t => some (changeIn unmarked k (merge unmarked v) t)
  | .entry k :: p, t =>
    let (mark, es) := asTable unmarked t
    (set? v p ((es.lookup k).getD (.leaf unmarked .empty))).map fun w => .table mark (setEntry k w es)
  | .item i :: p, t =>
    let (mark, ts) := asList unmarked t
    (position? i ts.length).bind fun n =>
      (set? v p (ts.getD n (.leaf unmarked .empty))).map fun w => .list mark (setItem unmarked n w ts)

end Tree

end Courier.Settings
