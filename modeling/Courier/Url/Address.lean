import Courier.Decimal.Digits
import Courier.Text.Hex
import Courier.Text.Split
set_option autoImplicit false

namespace Courier.Url

inductive Part where
  | number (n : Nat)
  | tooLarge
  | none
  deriving DecidableEq, Repr

def numberIn (base : Nat) (ds : List Char) : Option Nat :=
  ds.foldl (fun acc c => acc.bind fun n =>
    (Text.hexValue? c).bind fun d => if d < base then some (n * base + d) else Option.none) (some 0)

/-- Reads a part: decimal, octal behind `0`, hexadecimal behind `0x`. -/
def readPart (s : List Char) : Part :=
  let (base, ds) := match s with
    | '0' :: 'x' :: r => (16, r)
    | '0' :: 'X' :: r => (16, r)
    | '0' :: c :: r => (8, c :: r)
    | _ => (10, s)
  if s.isEmpty then .none
  else match numberIn base ds with
    | some n => if n < 4294967296 then .number n else .tooLarge
    | Option.none => .none

/-- Whether the last part of a name that is not empty is a number, so that the name must be an address. -/
def endsInNumber (name : List Char) : Bool :=
  let last := match (Text.splitAt '.' name).reverse with
    | [] :: p :: _ => p
    | [[]] => []
    | p :: _ => p
    | [] => []
  (!last.isEmpty && last.all Decimal.isDigit) || readPart last != .none

/-- The number of parts that are below 256 each but for the last, which fills the rest of 32 bits. -/
def joinParts : List Nat → Nat → Option Nat
  | [], _ => none
  | [n], room => if n < Nat.pow 256 room then some n else none
  | n :: r, room =>
    if n < 256 then (joinParts r (room - 1)).map (n * Nat.pow 256 (room - 1) + ·) else none

def readAddress32 (name : List Char) : Option Nat :=
  let parts := Text.splitAt '.' name
  let parts := if parts.getLast? = some [] then parts.dropLast else parts
  if 4 < parts.length then none
  else
    (parts.mapM fun p => match readPart p with | .number n => some n | _ => none).bind fun ns => joinParts ns 4

def address32Text (n : Nat) : List Char :=
  let part (k : Nat) := Nat.toDigits 10 (n / Nat.pow 256 k % 256)
  part 3 ++ '.' :: part 2 ++ '.' :: part 1 ++ '.' :: part 0

/-- Reads the decimal numbers at the end of an address of 128 bits: four, each below 256 and without leading zeros. -/
def readTail32 (s : List Char) : Option (List Nat) :=
  let ps := Text.splitAt '.' s
  if ps.length = 4 then
    (ps.mapM fun p =>
      let n := Decimal.value p
      if p.isEmpty ∨ p.all Decimal.isDigit = false ∨ 255 < n ∨ (p.head? = some '0' ∧ 1 < p.length) then none else some n)
      |>.bind fun ns => match ns with
        | [a, b, c, d] => some [a * 256 + b, c * 256 + d]
        | _ => none
  else none

/-- The groups of an address of 128 bits as they are written, up to eight; `gap` is where the zeros were left out. -/
structure Groups where
  groups : List Nat := []
  gap : Option Nat := none

/-- The groups so far; zeros left out count as one. -/
def Groups.count (g : Groups) : Nat := g.groups.length + if g.gap.isSome then 1 else 0

def readGroups (g : Groups) : List Char → Option Groups
  | [] => some g
  | c :: r =>
    if g.count = 8 then none
    else if c = ':' then
      match g.gap with
      | some _ => none
      | none => readGroups ⟨g.groups, some g.groups.length⟩ r
    else
      let ds := ((c :: r).take 4).takeWhile fun c => (Text.hexValue? c).isSome
      let n := (numberIn 16 ds).getD 0
      match (c :: r).drop ds.length with
      | [] => some ⟨g.groups ++ [n], g.gap⟩
      | '.' :: _ =>
        if ds.isEmpty ∨ 6 < g.count then none
        else (readTail32 (c :: r)).map fun ns => ⟨g.groups ++ ns, g.gap⟩
      | ':' :: [] => none
      | ':' :: _ :: _ => readGroups ⟨g.groups ++ [n], g.gap⟩ (r.drop ds.length)
      | _ => none
termination_by s => s.length
decreasing_by all_goals simp only [List.length_cons, List.length_drop]; omega

def readAddress128 (s : List Char) : Option (List Nat) :=
  let start : Option (Groups × List Char) := match s with
    | ':' :: ':' :: r => some (⟨[], some 0⟩, r)
    | ':' :: _ => none
    | _ => some ({}, s)
  start.bind fun (g, r) =>
    (readGroups g r).bind fun g =>
      match g.gap with
      | some k => some (g.groups.take k ++ List.replicate (8 - g.groups.length) 0 ++ g.groups.drop k)
      | none => if g.groups.length = 8 then some g.groups else none

/-- Start and length of the first longest run of zeros that has at least two. -/
def longestZeros (groups : List Nat) : Option (Nat × Nat) :=
  let runs := (List.range groups.length).map fun i => (i, ((groups.drop i).takeWhile (· == 0)).length)
  runs.foldl (fun best (i, n) =>
    match best with
    | some (_, m) => if m < n then some (i, n) else best
    | none => if 2 ≤ n then some (i, n) else none) none

def address128Text (groups : List Nat) : List Char :=
  let colons (gs : List Nat) : List Char := [':'].intercalate (gs.map (Nat.toDigits 16))
  let inner := match longestZeros groups with
    | some (i, n) => colons (groups.take i) ++ [':', ':'] ++ colons (groups.drop (i + n))
    | none => colons groups
  '[' :: (inner ++ [']'])

end Courier.Url
