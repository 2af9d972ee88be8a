import Courier.Decimal.Parse
import Courier.Settings.Place
import Courier.Text.Lower
import Courier.Text.Quoted
set_option autoImplicit false

namespace Courier.Settings

inductive Origin where
  | builtIn
  | file (name : String)
  | environment
  deriving DecidableEq, Repr

inductive Found where
  | text (s : String)
  | negative (n : Int)
  | nothing
  | list
  | table
  deriving DecidableEq, Repr

inductive Wanted where
  | flag
  | integer
  | unsigned
  | binary
  | text
  deriving DecidableEq, Repr

inductive Error where
  | mismatch (found : Found) (wanted : Wanted) (place : Place) (origin : Origin)
  | notSection (found : Leaf) (name : String)
  | tooShort (length : Nat) (name : String) (size : Nat)
  /-- A section without one of its fields. -/
  | missing (field : String)
  | fileNotFound (name : String)
  | unknownFormat (name : String)
  | malformedFile (name : String)
  /-- A name that counts items from the end of a list, past the first one. -/
  | beforeFirst (name : String)
  deriving DecidableEq, Repr

def Found.message : Found → String
  | .text s => s!"string {Text.inQuotes s}"
  | .negative n => s!"integer 64 bit \x60{n}\x60"
  | .nothing => "unit value"
  | .list => "sequence"
  | .table => "map"

def Wanted.message : Wanted → String
  | .flag => "a boolean"
  | .integer => "an integer"
  | .unsigned => "an unsigned 64 bit or less integer"
  | .binary => "a floating point"
  | .text => "a string"

def Leaf.message : Leaf → String
  | .empty => "unit value"
  | .flag b => s!"boolean \x60{b}\x60"
  | .whole n => s!"integer \x60{n.val}\x60"
  | .binary x => s!"floating point \x60{String.ofList (x.chars .pointed)}\x60"
  | .text s => s!"string {Text.inQuotes s}"

def Origin.message : Origin → String
  | .builtIn => ""
  | .file name => s!" in {name}"
  | .environment => " in the environment"

namespace Error

def message : Error → String
  | .mismatch found wanted place origin =>
    s!"invalid type: {found.message}, expected {wanted.message} for key \x60{place.text}\x60{origin.message}"
  | .notSection found name => s!"invalid type: {found.message}, expected struct {name}"
  | .tooShort length name size => s!"invalid length {length}, expected struct {name} with {size} elements"
  | .missing field => s!"missing field \x60{field}\x60"
  | .fileNotFound name => s!"configuration file \"{name}\" not found"
  | .unknownFormat name => s!"configuration file \"{name}\" is not of a registered file format"
  | .malformedFile name => s!"{name} is malformed"
  | .beforeFirst name => s!"{name} lies before the first item"

def inside (step : Place.Step) : Error → Error
  | .mismatch found wanted place origin => .mismatch found wanted (step :: place) origin
  | e => e

def isGap : Error → Bool
  | .tooShort .. | .missing _ => true
  | _ => false

end Error

/-! ### Values -/

def mismatched {α : Type} (found : Found) (wanted : Wanted) (origin : Origin) : Except Error α :=
  .error (.mismatch found wanted [] origin)

def isYes (s : String) : Bool := ["true", "on", "yes"].contains s

def isNo (s : String) : Bool := ["false", "off", "no"].contains s

/-- Reads a number out of a text: a word for yes or no, or what the reader makes of it. -/
def wordOr {α : Type} (yes no : α) (read : List Char → Option α) (s : String) : Option α :=
  let small := Text.lower s
  if isYes small then some yes else if isNo small then some no else read s.toList

def flag : Tree Origin → Except Error Bool
  | .leaf _ (.flag b) => .ok b
  | .leaf _ (.whole n) => .ok (n.val != 0)
  | .leaf _ (.binary x) => .ok (!x.isZero)
  | .leaf o (.text s) =>
    let small := Text.lower s
    if isYes small || small == "1" then .ok true
    else if isNo small || small == "0" then .ok false
    else mismatched (.text small) .flag o
  | .leaf o .empty => mismatched .nothing .flag o
  | .list o _ => mismatched .list .flag o
  | .table o _ => mismatched .table .flag o

def integer : Tree Origin → Except Error Word64
  | .leaf _ (.whole n) => .ok n
  | .leaf _ (.flag b) => .ok (.clamp b.toInt)
  | .leaf _ (.binary x) => .ok (.clamp x.round)
  | .leaf o (.text s) =>
    match wordOr (Word64.clamp 1) (Word64.clamp 0) (fun s => (Decimal.integer? s).bind Bounded.ofInt?) s with
    | some n => .ok n
    | none => mismatched (.text s) .integer o
  | .leaf o .empty => mismatched .nothing .integer o
  | .list o _ => mismatched .list .integer o
  | .table o _ => mismatched .table .integer o

def unsigned : Tree Origin → Except Error Count64
  | .leaf o (.whole n) =>
    match Bounded.ofInt? n.val with
    | some m => .ok m
    | none => mismatched (.negative n.val) .unsigned o
  | .leaf _ (.flag b) => .ok (.clamp b.toInt)
  | .leaf _ (.binary x) => .ok (.clamp x.round)
  | .leaf o (.text s) =>
    match wordOr (Count64.clamp 1) (Count64.clamp 0) (fun s => (Decimal.unsigned? s).bind fun n => Bounded.ofInt? (n : Int)) s with
    | some n => .ok n
    | none => mismatched (.text s) .integer o
  | .leaf o .empty => mismatched .nothing .integer o
  | .list o _ => mismatched .list .integer o
  | .table o _ => mismatched .table .integer o

def binary : Tree Origin → Except Error Binary64
  | .leaf _ (.binary x) => .ok x
  | .leaf _ (.whole n) => .ok (.ofInt n.val)
  | .leaf _ (.flag b) => .ok (.ofInt b.toInt)
  | .leaf o (.text s) =>
    match wordOr (.ofInt 1) (.ofInt 0) Binary64.parse? s with
    | some x => .ok x
    | none => mismatched (.text s) .binary o
  | .leaf o .empty => mismatched .nothing .binary o
  | .list o _ => mismatched .list .binary o
  | .table o _ => mismatched .table .binary o

def text : Tree Origin → Except Error String
  | .leaf _ (.text s) => .ok s
  | .leaf _ (.flag b) => .ok (toString b)
  | .leaf _ (.whole n) => .ok (String.ofList (Decimal.ofInt n.val))
  | .leaf _ (.binary x) => .ok (String.ofList (x.chars .positional))
  | .leaf o .empty => mismatched .nothing .text o
  | .list o _ => mismatched .list .text o
  | .table o _ => mismatched .table .text o

def count32 (t : Tree Origin) : Except Error Count32 := (unsigned t).map fun n => .wrap n.val

def word32 (t : Tree Origin) : Except Error Word32 := (integer t).map fun n => .wrap n.val

/-! ### Sections -/

structure Reading (α : Type) where
  result : Except Error α

/-- The fault that is reported of two: the first, except that a value which is there goes before one that is missing. -/
def Error.first (a b : Error) : Error := if a.isGap && !b.isGap then b else a

instance : Applicative Reading where
  pure x := ⟨.ok x⟩
  seq f x :=
    match f.result, (x ()).result with
    | .ok g, .ok a => ⟨.ok (g a)⟩
    | .ok _, .error e => ⟨.error e⟩
    | .error e, .ok _ => ⟨.error e⟩
    | .error e, .error e' => ⟨.error (e.first e')⟩

structure Section where
  name : String
  size : Nat
  tree : Tree Origin

namespace Section

variable {α : Type} (s : Section) (index : Nat) (name : String)

/-- The tree of a field: the entry of its name in a table, the item of its number in a list. -/
def find : Except Error (Place.Step × Option (Tree Origin)) :=
  match s.tree with
  | .table _ es => .ok (.entry name, es.lookup name)
  | .list _ ts => .ok (.item index, ts[index]?)
  | .leaf _ v => .error (.notSection v s.name)

/-- Reads the value of a field; the last argument says what a field that is missing comes to. -/
def read (read : Tree Origin → Except Error α) (absent : Except Error α) : Reading α :=
  match s.find index name with
  | .error e => ⟨.error e⟩
  | .ok (_, none) => ⟨absent⟩
  | .ok (step, some t) => ⟨(read t).mapError (.inside step)⟩

def gap : Error :=
  match s.tree with
  | .list .. => .tooShort index s.name s.size
  | _ => .missing name

def field (read : Tree Origin → Except Error α) : Reading α := s.read index name read (.error (s.gap index name))

def defaulted (standard : α) (read : Tree Origin → Except Error α) : Reading α := s.read index name read (.ok standard)

/-- A field of a table that may be missing or empty. In a list it must have its item. -/
def optional (read : Tree Origin → Except Error α) : Reading (Option α) :=
  let read? : Tree Origin → Except Error (Option α)
    | .leaf _ .empty => .ok none
    | t => (read t).map some
  s.read index name read? <| match s.tree with
    | .list .. => .error (s.gap index name)
    | _ => .ok none

end Section

end Courier.Settings
