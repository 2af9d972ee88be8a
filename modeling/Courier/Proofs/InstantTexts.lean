import Courier.Proofs.CalendarDays
import Courier.Proofs.Numerals
import Courier.Time.Text
set_option autoImplicit false

namespace Courier

namespace Instant

open Decimal Text

theorem trimStart_of_not_space {c : Char} (s : List Char) (ink : isSpace c = false) : trimStart (c :: s) = c :: s := by
  unfold trimStart
  rw [List.dropWhile_cons_of_neg (by rw [ink]; exact Bool.false_ne_true)]

theorem trimStart_padded (w n : Nat) (s : List Char) : trimStart (padded w n ++ s) = padded w n ++ s := by
  cases hd : padded w n with
  | nil => exact absurd hd (padded_ne_nil w n)
  | cons d ds => exact trimStart_of_not_space _ (not_isSpace_of_isDigit (isDigit_padded d (hd ▸ List.mem_cons_self)))

theorem number?_padded {w n : Nat} (pos : 0 < w) (fits : n < 10 ^ w) (s : List Char) :
    number? w (padded w n ++ s) = some (n, s) := by
  have length := length_padded fits pos
  have taken : ((padded w n ++ s).take w).takeWhile isDigit = padded w n := by
    rw [List.take_left' length]
    simpa using takeWhile_padded w n (s := []) rfl
  unfold number?
  dsimp only
  rw [trimStart_padded, taken, if_neg (by simpa using padded_ne_nil w n), value_padded, List.drop_left]

theorem mark?_cons {c : Char} (ink : isSpace c = false) (s : List Char) : mark? c (c :: s) = some s := by
  unfold mark?
  rw [trimStart_of_not_space s ink]
  exact if_pos rfl

theorem year?_signed (sign : Int) (n : Nat) (s : List Char) :
    year?.signed (padded 4 n ++ '-' :: s) sign = some (sign * n, '-' :: s) := by
  unfold year?.signed
  dsimp only
  rw [takeWhile_padded 4 n rfl, if_neg (by simpa using padded_ne_nil 4 n), value_padded, List.drop_left]

theorem year?_yearText (y : Int) (s : List Char) : year? (yearText y ++ '-' :: s) = some (y, '-' :: s) := by
  unfold yearText
  split
  · next short =>
    unfold year?
    rw [trimStart_padded]
    cases hd : padded 4 y.natAbs with
    | nil => exact absurd hd (padded_ne_nil 4 _)
    | cons d ds =>
      have digit := isDigit_padded d (hd ▸ List.mem_cons_self)
      have read := number?_padded (w := 4) (n := y.natAbs) (by decide) (by omega) ('-' :: s)
      rw [hd] at read
      split
      · next h =>
        cases h
        cases digit
      · next h =>
        cases h
        cases digit
      · rw [read, Option.map_some]
        exact congrArg (fun z => some (z, '-' :: s)) (Int.natAbs_of_nonneg short.1)
  · next long =>
    by_cases neg : y < 0
    · rw [if_pos neg]
      change year?.signed (padded 4 y.natAbs ++ '-' :: s) (-1) = _
      rw [year?_signed]
      congr 2
      omega
    · rw [if_neg neg]
      change year?.signed (padded 4 y.natAbs ++ '-' :: s) 1 = _
      rw [year?_signed]
      congr 2
      omega

theorem fraction?_digits {w n : Nat} (pos : 0 < w) (le : w ≤ 9) (fits : n < 10 ^ w) :
    fraction? ('.' :: padded w n ++ ['Z']) = some (n * Nat.pow 10 (9 - w), ['Z']) := by
  have length := length_padded fits pos
  have taken : ((padded w n ++ ['Z']).take 9).takeWhile isDigit = padded w n := by
    rw [List.take_append, List.take_of_length_le (by omega)]
    refine takeWhile_padded w n ?_
    cases 9 - (padded w n).length <;> rfl
  have left : (padded w n ++ ['Z']).dropWhile isDigit = ['Z'] := by
    rw [List.dropWhile_append_of_pos isDigit_padded]
    rfl
  unfold fraction?
  simp only [List.cons_append]
  rw [taken, left, if_neg (by simpa using padded_ne_nil w n), value_padded, length]

theorem fraction?_fractionText {n : Nat} (fits : n < 1000000000) :
    fraction? (fractionText n ++ ['Z']) = some (n, ['Z']) := by
  unfold fractionText
  split
  · next zero =>
    rw [zero]
    rfl
  · split
    · next millis =>
      rw [fraction?_digits (by decide) (by decide) (by omega)]
      change some (n / 1000000 * 1000000, _) = _
      rw [Nat.div_mul_cancel (Nat.dvd_of_mod_eq_zero millis)]
    · split
      · next micros =>
        rw [fraction?_digits (by decide) (by decide) (by omega)]
        change some (n / 1000 * 1000, _) = _
        rw [Nat.div_mul_cancel (Nat.dvd_of_mod_eq_zero micros)]
      · rw [fraction?_digits (by decide) (by decide) (by omega)]
        exact congrArg (fun m => some (m, ['Z'])) (Nat.mul_one n)

/-! ### The whole text -/

theorem ofParts?_self (t : Instant) : ofParts? t.secs t.nanos = some t := by
  unfold ofParts?
  rw [dif_pos ⟨⟨t.first_le, t.le_last⟩, t.nanos_lt, t.leap_last⟩]

theorem ofLocal?_chars (t : Instant) (d : Calendar.Date) (s leap : Nat) (hd : d = Calendar.Date.ofDay (t.secs / 86400))
    (hs : s = (t.secs % 86400).toNat) (hleap : leap = if 1000000000 ≤ t.nanos then 1 else 0) :
    ofLocal? d.year d.month d.day (s / 3600) (s / 60 % 60) (s % 60 + leap) (t.nanos % 1000000000) 0 = some t := by
  have first := t.first_le
  have last := t.le_last
  have small := t.nanos_lt
  have minute_end := t.leap_last
  have valid : Calendar.Date.isValid ⟨d.year, d.month, d.day⟩ = true := hd ▸ Calendar.isValid_ofDay _
  have count : Calendar.Date.toDay ⟨d.year, d.month, d.day⟩ = t.secs / 86400 := hd ▸ Calendar.toDay_ofDay _
  have year : -262143 ≤ d.year ∧ d.year ≤ 262142 := by
    rw [hd]
    exact Calendar.year_ofDay (by unfold Calendar.firstDay; omega) (by unfold Calendar.lastDay; omega)
  -- a leap second is written as the second sixty and read as part of the one before
  have second : (if s % 60 + leap = 60 then 59 else s % 60 + leap) = s % 60 := by
    split at hleap <;> split <;> omega
  have nanos : (if s % 60 + leap = 60 then t.nanos % 1000000000 + 1000000000 else t.nanos % 1000000000) = t.nanos := by
    split at hleap <;> split <;> omega
  have secs : t.secs / 86400 * 86400 + (s / 3600 : Nat) * 3600 + (s / 60 % 60 : Nat) * 60 + (s % 60 : Nat) - 0
      = t.secs := by
    omega
  unfold ofLocal?
  dsimp only
  rw [if_pos ⟨valid, year.1, year.2, by omega, by omega, by split at hleap <;> omega, by decide, by decide⟩, second,
    nanos, count, secs, ofParts?_self]

theorem ofChars?_chars (t : Instant) : ofChars? t.chars = some t := by
  have first := t.first_le
  have last := t.le_last
  -- the parts get names, so that the rules for their texts do not look into them
  obtain ⟨d, hd⟩ : ∃ d, d = Calendar.Date.ofDay (t.secs / 86400) := ⟨_, rfl⟩
  obtain ⟨s, hs⟩ : ∃ s, s = (t.secs % 86400).toNat := ⟨_, rfl⟩
  obtain ⟨leap, hleap⟩ : ∃ leap, leap = if 1000000000 ≤ t.nanos then 1 else 0 := ⟨_, rfl⟩
  have valid : d.month ≤ 12 ∧ d.day ≤ 31 := hd ▸ Calendar.bounds_ofDay (t.secs / 86400)
  have le : leap ≤ 1 := by split at hleap <;> omega
  unfold chars
  dsimp only
  rw [← hd, ← hs, ← hleap]
  simp only [List.append_assoc, List.cons_append]
  unfold ofChars?
  simp only [year?_yearText, bind, Option.bind_some, mark?_cons (c := '-') rfl, mark?_cons (c := ':') rfl,
    number?_padded (w := 2) (by decide) (show d.month < 10 ^ 2 by omega),
    number?_padded (w := 2) (by decide) (show d.day < 10 ^ 2 by omega),
    number?_padded (w := 2) (by decide) (show s / 3600 < 10 ^ 2 by omega),
    number?_padded (w := 2) (by decide) (show s / 60 % 60 < 10 ^ 2 by omega),
    number?_padded (w := 2) (by decide) (show s % 60 + leap < 10 ^ 2 by omega),
    fraction?_fractionText (show t.nanos % 1000000000 < 1000000000 by omega)]
  exact ofLocal?_chars t d s leap hd hs hleap

end Instant

end Courier
