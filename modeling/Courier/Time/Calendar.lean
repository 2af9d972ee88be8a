set_option autoImplicit false

/-!
# Days of the proleptic Gregorian calendar

A day is counted from 1970-01-01. The count runs in eras of 400 years that begin on the first of March, so that the
leap day is the last day of a year.
-/

namespace Courier.Calendar

structure Date where
  year : Int
  month : Nat
  day : Nat
  deriving DecidableEq, Repr

def isLeap (y : Int) : Bool := y % 4 = 0 && (y % 100 ≠ 0 || y % 400 = 0)

def monthLength (y : Int) (m : Nat) : Nat :=
  if m = 2 then (if isLeap y then 29 else 28)
  else if m = 4 || m = 6 || m = 9 || m = 11 then 30 else 31

def Date.isValid (d : Date) : Bool :=
  1 ≤ d.month && d.month ≤ 12 && 1 ≤ d.day && d.day ≤ monthLength d.year d.month

/-- Days before the month in a year that begins in March; the month is counted from March. -/
def monthStart (mp : Int) : Int := (153 * mp + 2) / 5

def Date.toDay (d : Date) : Int :=
  let y := if d.month ≤ 2 then d.year - 1 else d.year
  let mp : Int := if d.month ≤ 2 then (d.month : Int) + 9 else (d.month : Int) - 3
  let era := y / 400
  let yoe := y % 400
  era * 146097 + (yoe * 365 + yoe / 4 - yoe / 100 + monthStart mp + (d.day : Int) - 1) - 719468

def Date.ofDay (n : Int) : Date :=
  let z := n + 719468
  let era := z / 146097
  let doe := z % 146097
  let yoe := (doe - doe / 1460 + doe / 36524 - doe / 146096) / 365
  let doy := doe - (365 * yoe + yoe / 4 - yoe / 100)
  let mp := (5 * doy + 2) / 153
  let day := doy - monthStart mp + 1
  let month := if mp < 10 then mp + 3 else mp - 9
  let year := yoe + era * 400
  ⟨if month ≤ 2 then year + 1 else year, month.toNat, day.toNat⟩

def firstDay : Int := -96465292

def lastDay : Int := 95026236

end Courier.Calendar
