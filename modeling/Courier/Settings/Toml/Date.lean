import Courier.Decimal.Digits
set_option autoImplicit false

namespace Courier.Settings.Toml

def twoDigits? : List Char → Option (Nat × List Char)
  | a :: b :: r => do
    let m ← Decimal.digit? a
    let n ← Decimal.digit? b
    some (m * 10 + n, r)
  | _ => none

def mark? (c : Char) : List Char → Option (List Char)
  | [] => none
  | d :: r => if d = c then some r else none

def pair (n : Nat) : List Char := Decimal.padded 2 n

def date? (s : List Char) : Option (List Char × List Char) := do
  let (century, s) ← twoDigits? s
  let (year, s) ← twoDigits? s
  let s ← mark? '-' s
  let (month, s) ← twoDigits? s
  let s ← mark? '-' s
  let (day, s) ← twoDigits? s
  if 1 ≤ month ∧ month ≤ 12 ∧ 1 ≤ day ∧ day ≤ 31 then
    some (pair century ++ pair year ++ '-' :: pair month ++ '-' :: pair day, s)
  else none

/-- Reads a fraction if there is one, and writes its first nine digits again. -/
def secondFraction? : List Char → Option (List Char × List Char)
  | '.' :: r =>
    let ds := r.takeWhile Decimal.isDigit
    if ds.isEmpty then none
    else
      let kept := ((ds.take 9).reverse.dropWhile (· == '0')).reverse
      some (if kept.isEmpty then [] else '.' :: kept, r.drop ds.length)
  | s => some ([], s)

def time? (s : List Char) : Option (List Char × List Char) := do
  let (hour, s) ← twoDigits? s
  let s ← mark? ':' s
  let (minute, s) ← twoDigits? s
  let s ← mark? ':' s
  let (second, s) ← twoDigits? s
  let (fraction, s) ← secondFraction? s
  if hour ≤ 24 ∧ minute ≤ 59 ∧ second ≤ 59 then
    some (pair hour ++ ':' :: pair minute ++ ':' :: pair second ++ fraction, s)
  else none

def offset? : List Char → Option (List Char)
  | [] => some []
  | c :: s =>
    if c = 'Z' ∨ c = 'z' then (if s.isEmpty then some ['Z'] else none)
    else if c = '+' ∨ c = '-' then do
      let (hours, s) ← twoDigits? s
      let s ← mark? ':' s
      let (minutes, s) ← twoDigits? s
      if s.isEmpty then some ((if c = '-' ∧ hours ≠ 0 then '-' else '+') :: pair hours ++ ':' :: pair minutes) else none
    else none

def moment? (s : List Char) : Option (List Char) :=
  if s[2]? = some ':' then do
    let (time, s) ← time? s
    if s.isEmpty then some time else none
  else do
    let (date, s) ← date? s
    match s with
    | [] => some date
    | c :: r =>
      if c = 'T' ∨ c = 't' ∨ c = ' ' then do
        let (time, r) ← time? r
        let offset ← offset? r
        some (date ++ 'T' :: time ++ offset)
      else none

end Courier.Settings.Toml
