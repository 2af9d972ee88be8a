import Courier.Time.Calendar
set_option autoImplicit false

namespace Courier.Calendar

def yearStart (yoe : Int) : Int := 365 * yoe + yoe / 4 - yoe / 100

def yearOf (doe : Int) : Int := (doe - doe / 1460 + doe / 36524 - doe / 146096) / 365

section Era

variable {doe : Int} (first : 0 ≤ doe) (last : doe < 146097)
include first last

theorem yearOf_bounds : 0 ≤ yearOf doe ∧ yearOf doe < 400 := by
  unfold yearOf
  omega

theorem yearOf_century : yearOf doe / 100 = doe / 36524 - doe / 146096 := by
  -- the last day of an era still belongs to its fourth century
  obtain ⟨q, hq⟩ : ∃ q, doe / 36524 - doe / 146096 = q := ⟨_, rfl⟩
  have century : q = 0 ∨ q = 1 ∨ q = 2 ∨ q = 3 := by omega
  unfold yearOf
  rcases century with rfl | rfl | rfl | rfl <;> omega

theorem yearStart_le : yearStart (yearOf doe) ≤ doe := by
  have century := yearOf_century first last
  have cycles : yearOf doe / 4 ≤ doe / 1460 := by
    unfold yearOf
    omega
  unfold yearStart
  rw [century]
  unfold yearOf at *
  omega

theorem le_yearStart : doe ≤ yearStart (yearOf doe) + 365 := by
  have century := yearOf_century first last
  have cycles : doe / 1460 ≤ yearOf doe / 4 + 1 := by
    unfold yearOf
    omega
  unfold yearStart
  rw [century]
  unfold yearOf at *
  omega

/-- Only a year that ends with a leap day has 366 days. -/
theorem isLeap_of_long (long : doe = yearStart (yearOf doe) + 365) : isLeap (yearOf doe + 1) = true := by
  have century := yearOf_century first last
  have bounds := yearOf_bounds first last
  unfold yearStart at long
  have cycles : doe / 1460 = yearOf doe / 4 + 1 := by
    rw [century] at long
    unfold yearOf at *
    omega
  have fourth : (yearOf doe + 1) % 4 = 0 := by
    clear century
    have rest : yearOf doe % 4 = 0 ∨ yearOf doe % 4 = 1 ∨ yearOf doe % 4 = 2 ∨ yearOf doe % 4 = 3 := by omega
    rcases rest with rest | rest | rest | rest <;> omega
  have whole : (yearOf doe + 1) % 100 = 0 → (yearOf doe + 1) % 400 = 0 := by
    intro hundred
    omega
  unfold isLeap
  simp only [decide_eq_true_eq, Bool.and_eq_true, Bool.or_eq_true]
  omega

end Era

/-! ### Months of a year -/

def monthOf (doy : Int) : Int := (5 * doy + 2) / 153

theorem monthOf_bounds {doy : Int} (first : 0 ≤ doy) (last : doy ≤ 365) : 0 ≤ monthOf doy ∧ monthOf doy ≤ 11 := by
  unfold monthOf
  omega

theorem monthStart_bounds (doy : Int) : monthStart (monthOf doy) ≤ doy ∧ doy < monthStart (monthOf doy + 1) := by
  unfold monthStart monthOf
  omega

theorem monthSpan_le {mp : Int} (y : Int) (first : 0 ≤ mp) (last : mp ≤ 10) :
    monthStart (mp + 1) - monthStart mp ≤ monthLength y (if mp < 10 then mp + 3 else mp - 9).toNat := by
  obtain rfl | rfl | rfl | rfl | rfl | rfl | rfl | rfl | rfl | rfl | rfl : mp = 0 ∨ mp = 1 ∨ mp = 2 ∨ mp = 3 ∨ mp = 4 ∨
    mp = 5 ∨ mp = 6 ∨ mp = 7 ∨ mp = 8 ∨ mp = 9 ∨ mp = 10 := by omega
  -- none of these is February, so the year does not matter
  all_goals simp [monthStart, monthLength]

/-! ### The place of a day -/

/-- A day by its place in the calendar: era, year of the era, month from March and day of the month. -/
structure Place (n : Int) (d : Date) (era yoe mp day : Int) : Prop where
  count : n = era * 146097 + (yearStart yoe + monthStart mp + day - 1) - 719468
  year_bounds : 0 ≤ yoe ∧ yoe < 400
  month_bounds : 0 ≤ mp ∧ mp ≤ 11
  first_le : 1 ≤ day
  le_month : day ≤ monthStart (mp + 1) - monthStart mp
  le_february : mp = 11 → day ≤ 28 ∨ day = 29 ∧ isLeap (yoe + 1) = true
  year_eq : d.year = if mp < 10 then yoe + era * 400 else yoe + era * 400 + 1
  month_eq : (d.month : Int) = if mp < 10 then mp + 3 else mp - 9
  day_eq : (d.day : Int) = day

theorem place_ofDay (n : Int) : ∃ era yoe mp day, Place n (Date.ofDay n) era yoe mp day := by
  obtain ⟨doe, hdoe⟩ : ∃ doe, (n + 719468) % 146097 = doe := ⟨_, rfl⟩
  have first : 0 ≤ doe := by omega
  have last : doe < 146097 := by omega
  obtain ⟨doy, hdoy⟩ : ∃ doy, doe - yearStart (yearOf doe) = doy := ⟨_, rfl⟩
  have start := yearStart_le first last
  have stop := le_yearStart first last
  have first' : 0 ≤ doy := by omega
  have last' : doy ≤ 365 := by omega
  have months := monthOf_bounds first' last'
  have days := monthStart_bounds doy
  have date : Date.ofDay n =
      ⟨if (if monthOf doy < 10 then monthOf doy + 3 else monthOf doy - 9) ≤ 2
          then yearOf doe + (n + 719468) / 146097 * 400 + 1 else yearOf doe + (n + 719468) / 146097 * 400,
        (if monthOf doy < 10 then monthOf doy + 3 else monthOf doy - 9).toNat,
        (doy - monthStart (monthOf doy) + 1).toNat⟩ := by
    rw [← hdoy, ← hdoe]
    rfl
  rw [date]
  refine ⟨(n + 719468) / 146097, yearOf doe, monthOf doy, doy - monthStart (monthOf doy) + 1,
    ⟨by omega, yearOf_bounds first last, months, by omega, by omega, fun february => ?_, ?_, ?_, ?_⟩⟩
  · -- the year ends with February
    by_cases long : doy = 365
    · refine .inr ⟨?_, isLeap_of_long first last (by omega)⟩
      rw [february, long]
      rfl
    · refine .inl ?_
      rw [february]
      change doy - 337 + 1 ≤ 28
      omega
  · dsimp only
    split <;> split <;> omega
  · dsimp only
    split <;> omega
  · dsimp only
    omega

theorem Place.toDay_eq {n : Int} {d : Date} {era yoe mp day : Int} (place : Place n d era yoe mp day) :
    d.toDay = n := by
  obtain ⟨count, years, months, -, -, -, hyear, hmonth, hday⟩ := place
  have early : d.month ≤ 2 ↔ 10 ≤ mp := by
    split at hmonth <;> omega
  have year : (if d.month ≤ 2 then d.year - 1 else d.year) = yoe + era * 400 := by
    rw [hyear]
    split <;> split <;> omega
  have month : (if d.month ≤ 2 then (d.month : Int) + 9 else (d.month : Int) - 3) = mp := by
    rw [hmonth]
    split <;> split <;> omega
  unfold Date.toDay
  dsimp only
  rw [year, month, hday]
  have hera : (yoe + era * 400) / 400 = era := by omega
  have hyoe : (yoe + era * 400) % 400 = yoe := by omega
  rw [hera, hyoe, count]
  unfold yearStart
  omega

theorem toDay_ofDay (n : Int) : (Date.ofDay n).toDay = n := by
  obtain ⟨era, yoe, mp, day, place⟩ := place_ofDay n
  exact place.toDay_eq

theorem isLeap_era (yoe era : Int) : isLeap (yoe + era * 400 + 1) = isLeap (yoe + 1) := by
  have four : (yoe + era * 400 + 1) % 4 = (yoe + 1) % 4 := by omega
  have hundred : (yoe + era * 400 + 1) % 100 = (yoe + 1) % 100 := by omega
  have whole : (yoe + era * 400 + 1) % 400 = (yoe + 1) % 400 := by omega
  unfold isLeap
  rw [four, hundred, whole]

theorem isValid_ofDay (n : Int) : (Date.ofDay n).isValid = true := by
  obtain ⟨era, yoe, mp, day, place⟩ := place_ofDay n
  obtain ⟨-, -, months, first, last, february, hyear, hmonth, hday⟩ := place
  have length : (Date.ofDay n).day ≤ monthLength (Date.ofDay n).year (Date.ofDay n).month := by
    by_cases short : mp = 11
    · have two : (Date.ofDay n).month = 2 := by
        rw [if_neg (by omega)] at hmonth
        omega
      rw [if_neg (by omega)] at hyear
      unfold monthLength
      rw [two, hyear, isLeap_era]
      rcases february short with h | ⟨h, leap⟩
      · simp only [if_true]
        split <;> omega
      · rw [leap]
        simp only [if_true]
        omega
    · have long := monthSpan_le (Date.ofDay n).year months.1 (by omega : mp ≤ 10)
      have month : (if mp < 10 then mp + 3 else mp - 9).toNat = (Date.ofDay n).month := by omega
      rw [month] at long
      omega
  unfold Date.isValid
  simp only [Bool.and_eq_true, decide_eq_true_eq]
  split at hmonth <;> omega

theorem bounds_ofDay (n : Int) : (Date.ofDay n).month ≤ 12 ∧ (Date.ofDay n).day ≤ 31 := by
  obtain ⟨era, yoe, mp, day, place⟩ := place_ofDay n
  obtain ⟨-, -, months, -, le_month, -, -, hmonth, hday⟩ := place
  unfold monthStart at le_month
  constructor
  · split at hmonth <;> omega
  · omega

theorem year_ofDay {n : Int} (first : firstDay ≤ n) (last : n ≤ lastDay) :
    -262143 ≤ (Date.ofDay n).year ∧ (Date.ofDay n).year ≤ 262142 := by
  obtain ⟨era, yoe, mp, day, place⟩ := place_ofDay n
  obtain ⟨count, years, months, firstDay_le, le_month, -, hyear, -, -⟩ := place
  unfold firstDay at first
  unfold lastDay at last
  unfold yearStart monthStart at *
  -- the first and the last era are cut short
  have low : -656 ≤ era := by omega
  have high : era ≤ 655 := by omega
  rw [hyear]
  constructor
  · by_cases h : era = -656
    · subst h
      split <;> omega
    · split <;> omega
  · by_cases h : era = 655
    · subst h
      split <;> omega
    · split <;> omega

end Courier.Calendar
