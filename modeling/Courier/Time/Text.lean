import Courier.Decimal.Digits
import Courier.Text.Blank
import Courier.Time.Instant
set_option autoImplicit false

namespace Courier

namespace Instant

open Decimal Text

/-- A year: four digits from 0 to 9999, else a sign and at least four digits. -/
def yearText (y : Int) : List Char :=
  if 0 ≤ y ∧ y ≤ 9999 then padded 4 y.natAbs
  else (if y < 0 then '-' else '+') :: padded 4 y.natAbs

/-- A fraction of a second with the fewest digits out of 0, 3, 6 and 9. -/
def fractionText (n : Nat) : List Char :=
  if n = 0 then []
  else if n % 1000000 = 0 then '.' :: padded 3 (n / 1000000)
  else if n % 1000 = 0 then '.' :: padded 6 (n / 1000)
  else '.' :: padded 9 n

def chars (t : Instant) : List Char :=
  let d := Calendar.Date.ofDay (t.secs / 86400)
  let s := (t.secs % 86400).toNat
  let leap := if 1000000000 ≤ t.nanos then 1 else 0
  yearText d.year ++ '-' :: padded 2 d.month ++ '-' :: padded 2 d.day ++ 'T' :: padded 2 (s / 3600)
    ++ ':' :: padded 2 (s / 60 % 60) ++ ':' :: padded 2 (s % 60 + leap) ++ fractionText (t.nanos % 1000000000) ++ ['Z']

def text (t : Instant) : String := String.ofList t.chars

def number? (width : Nat) (s : List Char) : Option (Nat × List Char) :=
  let s := trimStart s
  let ds := (s.take width).takeWhile isDigit
  if ds.isEmpty then none else some (value ds, s.drop ds.length)

/-- Reads a year: with a sign any number of digits, else up to four. -/
def year? (s : List Char) : Option (Int × List Char) :=
  match trimStart s with
  | '-' :: r => signed r (-1)
  | '+' :: r => signed r 1
  | s' => (number? 4 s').map fun (n, r) => ((n : Int), r)
where
  signed (r : List Char) (sign : Int) : Option (Int × List Char) :=
    let ds := r.takeWhile isDigit
    if ds.isEmpty then none else some (sign * (value ds : Int), r.drop ds.length)

def mark? (c : Char) (s : List Char) : Option (List Char) :=
  match trimStart s with
  | d :: r => if d = c then some r else none
  | [] => none

/-- Reads a fraction of a second, if one follows; digits after the ninth are dropped. -/
def fraction? (s : List Char) : Option (Nat × List Char) :=
  match s with
  | '.' :: r =>
    let ds := (r.take 9).takeWhile isDigit
    if ds.isEmpty then none
    else some (value ds * Nat.pow 10 (9 - ds.length), r.dropWhile isDigit)
  | _ => some (0, s)

/-- Reads the distance to UTC in seconds: `Z`, `UTC`, or a sign, two digits, and two digits below sixty. -/
def offset? (s : List Char) : Option (Int × List Char) :=
  match s with
  | c :: r =>
    if c = 'Z' ∨ c = 'z' then some (0, r)
    else if (s.take 3).map Char.toUpper = ['U', 'T', 'C'] then some (0, s.drop 3)
    else
      let sign : Option Int := if c = '+' then some 1 else if c = '-' ∨ c = '\u2212' then some (-1) else none
      match sign, r with
      | some g, a :: b :: r' =>
        match digit? a, digit? b with
        | some x, some y =>
          match r'.dropWhile (fun c => c = ':' || isSpace c) with
          | m :: n :: r'' =>
            match digit? m, digit? n with
            | some u, some v => if u < 6 then some (g * ((x * 10 + y) * 3600 + (u * 10 + v) * 60 : Nat), r'') else none
            | _, _ => none
          | _ => none
        | _, _ => none
      | _, _ => none
  | [] => none

def ofLocal? (year : Int) (month day hour minute second nanos : Nat) (offset : Int) : Option Instant :=
  let date : Calendar.Date := ⟨year, month, day⟩
  if date.isValid ∧ -262143 ≤ year ∧ year ≤ 262142 ∧ hour ≤ 23 ∧ minute ≤ 59 ∧ second ≤ 60
      ∧ -86400 < offset ∧ offset < 86400 then
    let s := if second = 60 then 59 else second
    let n := if second = 60 then nanos + 1000000000 else nanos
    ofParts? (date.toDay * 86400 + hour * 3600 + minute * 60 + s - offset) n
  else none

/-- Reads an instant; nothing but white space may follow it. -/
def ofChars? (s : List Char) : Option Instant := do
  let (year, s) ← year? s
  let s ← mark? '-' s
  let (month, s) ← number? 2 s
  let s ← mark? '-' s
  let (day, s) ← number? 2 s
  let s ← match s with
    | c :: r => if c = 'T' ∨ c = 't' ∨ c = ' ' then some r else none
    | [] => none
  let (hour, s) ← number? 2 s
  let s ← mark? ':' s
  let (minute, s) ← number? 2 s
  let s ← mark? ':' s
  let (second, s) ← number? 2 s
  let (nanos, s) ← fraction? s
  let (offset, s) ← offset? (trimStart s)
  if (trimStart s).isEmpty then ofLocal? year month day hour minute second nanos offset else none

def ofText? (s : String) : Option Instant := ofChars? s.toList

end Instant

end Courier
