import Courier.Json.Printer
import Courier.Json.Skip
import Courier.Time.Text
import Courier.Uuid
set_option autoImplicit false

namespace Courier.Json

inductive Shape where
  | text
  | uuid
  | flag
  | word32
  | word64
  | instant
  | json
  | optional (s : Shape)
  | list (s : Shape)
  deriving DecidableEq, Repr

namespace Shape

@[reducible] def Carrier : Shape → Type
  | .text => String
  | .uuid => Uuid
  | .flag => Bool
  | .word32 => Word32
  | .word64 => Word64
  | .instant => Instant
  | .json => Json
  | .optional s => Option s.Carrier
  | .list s => List s.Carrier

def expected : Shape → String
  | .text => "a string"
  | .uuid => "a formatted UUID string"
  | .flag => "a boolean"
  | .word32 => "i32"
  | .word64 => "i64"
  | .instant => "an RFC 3339 formatted date and time string"
  | .json => "any valid JSON value"
  | .optional s => s.expected
  | .list _ => "a sequence"

def missing? : (s : Shape) → Option s.Carrier
  | .optional _ => some none
  | _ => none

end Shape

def asText (s : String) : List Char := '"' :: (s.toList ++ ['"'])

def Shape.chars : (s : Shape) → s.Carrier → List Char
  | .text, t => quoted t
  | .uuid, u => asText u.text
  | .flag, b => Json.chars (.bool b)
  | .word32, n => Decimal.ofInt n.val
  | .word64, n => Decimal.ofInt n.val
  | .instant, t => asText t.text
  | .json, j => j.chars
  | .optional _, none => Json.chars .null
  | .optional s, some x => s.chars x
  | .list s, xs => '[' :: (commas (xs.map s.chars) ++ [']'])

/-! ### Reading -/

def mismatch {α : Type} (found wanted : String) (s : List Char) : Except Error α :=
  failPast (.data s!"invalid type: {found}, expected {wanted}") s

def outOfRange {α : Type} (n : Int) (wanted : String) (s : List Char) : Except Error α :=
  failPast (.data s!"invalid value: integer `{String.ofList (Decimal.ofInt n)}`, expected {wanted}") s

def Number.describe : Number → String
  | .integer n => s!"integer `{String.ofList (Decimal.ofInt n.val)}`"
  | .binary x => s!"floating point `{String.ofList (x.chars .json)}`"

/-- Fails at a value that is not of the wanted type, after reading as much of it as its description takes. -/
def wrongType {α : Type} (wanted : String) (s : List Char) : Except Error α :=
  match s with
  | [] => failAt .expectedValue []
  | c :: r =>
    let after (x : Except Error (List Char)) (found : String) : Except Error α :=
      match x with
      | .error e => .error e
      | .ok r => mismatch found wanted r
    if c = 'n' then after (ident ['u', 'l', 'l'] r) "null"
    else if c = 't' then after (ident ['r', 'u', 'e'] r) "boolean `true`"
    else if c = 'f' then after (ident ['a', 'l', 's', 'e'] r) "boolean `false`"
    else if c = '-' ∨ Decimal.isDigit c then
      match (if c = '-' then number false r else number true (c :: r)) with
      | .error e => .error e
      | .ok (n, r) => mismatch n.describe wanted r
    else if c = '"' then
      match stringTail r with
      | .error e => .error e
      | .ok (t, r) => mismatch s!"string {Text.inQuotes t}" wanted r
    else if c = '[' then mismatch "sequence" wanted s
    else if c = '\x7b' then mismatch "map" wanted s
    else failAt .expectedValue s

def readText {α : Type} (wanted : String) (meaning : String → Except String α) (s : List Char) : Step α :=
  match skipBlank s with
  | [] => failAt .eofValue []
  | c :: r =>
    if c = '"' then
      match stringTail r with
      | .error e => .error e
      | .ok (t, r) =>
        match meaning t with
        | .ok x => .ok (x, r)
        | .error m => failPast (.data m) r
    else wrongType wanted (c :: r)

def readWhole {lo hi : Int} (wanted : String) (s : List Char) : Step (Bounded lo hi) :=
  match skipBlank s with
  | [] => failAt .eofValue []
  | c :: r =>
    if c = '-' ∨ Decimal.isDigit c then
      match (if c = '-' then number false r else number true (c :: r)) with
      | .error e => .error e
      | .ok (.binary x, r) => mismatch (Number.binary x).describe wanted r
      | .ok (.integer n, r) =>
        match Bounded.ofInt? n.val with
        | some m => .ok (m, r)
        | none => outOfRange n.val wanted r
    else wrongType wanted (c :: r)

def readFlag (wanted : String) (s : List Char) : Step Bool :=
  match skipBlank s with
  | [] => failAt .eofValue []
  | c :: r =>
    if c = 't' then (ident ['r', 'u', 'e'] r).map fun r => (true, r)
    else if c = 'f' then (ident ['a', 'l', 's', 'e'] r).map fun r => (false, r)
    else wrongType wanted (c :: r)

def readItems {α : Type} (item : List Char → Step α) : Nat → Bool → List Char → Step (List α)
  | 0, _, s => failAt .eofList s
  | fuel + 1, first, s =>
    match nextItem first s with
    | .error e => .error e
    | .ok (false, r) => .ok ([], r)
    | .ok (true, r) =>
      match item r with
      | .error e => .error e
      | .ok (x, r) => (readItems item fuel false r).map fun (xs, r) => (x :: xs, r)

def Shape.read : (s : Shape) → Nat → List Char → Step s.Carrier
  | .text, _, cs => readText (Shape.expected .text) .ok cs
  | .uuid, _, cs =>
    readText (Shape.expected .uuid)
      (fun t => match Uuid.ofText? t with | some u => .ok u | none => .error "invalid uuid") cs
  | .flag, _, cs => readFlag (Shape.expected .flag) cs
  | .word32, _, cs => readWhole (Shape.expected .word32) cs
  | .word64, _, cs => readWhole (Shape.expected .word64) cs
  | .instant, _, cs =>
    readText (Shape.expected .instant)
      (fun t => match Instant.ofText? t with | some i => .ok i | none => .error "invalid timestamp") cs
  | .json, depth, cs => value (fuelFor cs) depth cs
  | .optional s, depth, cs =>
    match skipBlank cs with
    | c :: r =>
      if c = 'n' then (ident ['u', 'l', 'l'] r).map fun r => (none, r)
      else (s.read depth (c :: r)).map fun (x, r) => (some x, r)
    | [] => (s.read depth []).map fun (x, r) => (some x, r)
  | .list s, depth, cs =>
    match skipBlank cs with
    | [] => failAt .eofValue []
    | c :: r =>
      if c = '[' then
        if depth ≤ 1 then failAt .recursionLimit (c :: r)
        else readItems (s.read (depth - 1)) (r.length + 1) true r
      else wrongType (Shape.expected (.list s)) (c :: r)

structure Field where
  name : String
  shape : Shape
  written : Bool := true
  fallback : Option shape.Carrier := none

@[reducible] def Row : List Field → Type
  | [] => Unit
  | f :: r => f.shape.Carrier × Row r

@[reducible] def Slots : List Field → Type
  | [] => Unit
  | f :: r => Option f.shape.Carrier × Slots r

def Slots.empty : (fs : List Field) → Slots fs
  | [] => ()
  | _ :: r => (none, Slots.empty r)

def Slots.readMember (depth : Nat) (name : String) :
    (fs : List Field) → Slots fs → List Char → Except Error (Option (Slots fs × List Char))
  | [], _, _ => .ok none
  | f :: r, slots, s =>
    if f.name = name then
      match slots.1 with
      | some _ => failPast (.data s!"duplicate field `{name}`") s
      | none =>
        match colon s with
        | .error e => .error e
        | .ok s =>
          match f.shape.read depth s with
          | .error e => .error e
          | .ok (x, s) => .ok (some ((some x, slots.2), s))
    else
      match Slots.readMember depth name r slots.2 s with
      | .error e => .error e
      | .ok none => .ok none
      | .ok (some (rest, s)) => .ok (some ((slots.1, rest), s))

def Slots.complete (left : List Char) : (fs : List Field) → Slots fs → Except Error (Row fs)
  | [], _ => .ok ()
  | f :: r, slots =>
    match (slots.1 <|> f.fallback <|> f.shape.missing?) with
    | none => failPast (.data s!"missing field `{f.name}`") left
    | some x => (Slots.complete left r slots.2).map fun row => (x, row)

def readMembers (fs : List Field) (depth : Nat) : Nat → Bool → Slots fs → List Char → Step (Row fs)
  | 0, _, _, s => failAt .eofObject s
  | fuel + 1, first, slots, s =>
    match nextName first s with
    | .error e => .error e
    | .ok (false, r) => (Slots.complete r fs slots).map fun row => (row, r)
    | .ok (true, r) =>
      match stringTail r with
      | .error e => .error e
      | .ok (name, r) =>
        match Slots.readMember depth name fs slots r with
        | .error e => .error e
        | .ok (some (slots, r)) => readMembers fs depth fuel false slots r
        | .ok none =>
          match (colon r).bind skipValue with
          | .error e => .error e
          | .ok r => readMembers fs depth fuel false slots r

def readInOrder (wanted : String) (depth : Nat) : (fs : List Field) → Nat → List Char → Step (Row fs)
  | [], _, s => .ok ((), s)
  | f :: r, n, s =>
    match nextItem (n == 0) s with
    | .error e => .error e
    | .ok (false, _) =>
      match f.fallback with
      | some x => (readInOrder wanted depth r (n + 1) s).map fun (row, s) => ((x, row), s)
      | none => failPast (.data s!"invalid length {n}, expected {wanted}") s
    | .ok (true, s) =>
      match f.shape.read depth s with
      | .error e => .error e
      | .ok (x, s) => (readInOrder wanted depth r (n + 1) s).map fun (row, s) => ((x, row), s)

def endOfList (s : List Char) : Except Error (List Char) :=
  match skipBlank s with
  | [] => failAt .eofList []
  | c :: r =>
    if c = ']' then .ok r
    else if c = ',' then
      match skipBlank r with
      | ']' :: l => failAt .trailingComma (']' :: l)
      | l => failAt .trailingCharacters l
    else failAt .trailingCharacters (c :: r)

structure Schema (α : Type) where
  name : String
  fields : List Field
  ofRow : Row fields → α
  toRow : α → Row fields

namespace Schema

def rowChars : (fs : List Field) → Row fs → List (String × List Char)
  | [], _ => []
  | f :: r, row =>
    if f.written then (f.name, f.shape.chars row.1) :: rowChars r row.2 else rowChars r row.2

def chars {α : Type} (schema : Schema α) (x : α) : List Char :=
  recordChars (rowChars schema.fields (schema.toRow x))

def print {α : Type} (schema : Schema α) (x : α) : String := String.ofList (schema.chars x)

def read {α : Type} (schema : Schema α) (s : List Char) : Step α :=
  let row : Step (Row schema.fields) :=
    match skipBlank s with
    | [] => failAt .eofValue []
    | c :: r =>
      if c = '[' then
        let wanted := s!"struct {schema.name} with {schema.fields.length} elements"
        match readInOrder wanted (depthLimit - 1) schema.fields 0 r with
        | .error e => .error e
        | .ok (row, r) => (endOfList r).map fun r => (row, r)
      else if c = '\x7b' then
        readMembers schema.fields (depthLimit - 1) (r.length + 1) true (Slots.empty schema.fields) r
      else wrongType s!"struct {schema.name}" (c :: r)
  row.map fun (row, r) => (schema.ofRow row, r)

def parse {α : Type} (schema : Schema α) (s : String) : Except Error α :=
  (schema.read s.toList).bind finish

end Schema

end Courier.Json
