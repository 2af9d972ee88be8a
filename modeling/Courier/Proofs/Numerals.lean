import Courier.Decimal.Digits
import Courier.Text.Blank
import Courier.Text.Hex
import Mathlib.Algebra.Group.Nat.Defs
import Mathlib.Data.List.Basic
set_option autoImplicit false

namespace Courier

namespace Decimal

theorem isDigit_eq (c : Char) : isDigit c = c.isDigit := by
  unfold isDigit digit? Char.isDigit
  rw [Bool.eq_iff_iff]
  simp only [Bool.and_eq_true, decide_eq_true_eq, ge_iff_le, UInt32.le_iff_toNat_le]
  change (if 48 ≤ c.val.toNat ∧ c.val.toNat ≤ 57 then some (c.val.toNat - 48) else none).isSome = true ↔
    48 ≤ c.val.toNat ∧ c.val.toNat ≤ 57
  split <;> simp_all

theorem isDigit_iff {c : Char} : isDigit c = true ↔ 48 ≤ c.val.toNat ∧ c.val.toNat ≤ 57 := by
  unfold isDigit digit?
  dsimp only
  split <;> simp_all

theorem ne_of_isDigit {c d : Char} (digit : isDigit c = true) (other : isDigit d = false) : c ≠ d := by
  rintro rfl
  rw [digit] at other
  cases other

theorem digit?_digitChar : ∀ n : Fin 10, digit? (Nat.digitChar n.val) = some n.val := by decide

theorem isDigit_toDigits {n : Nat} : ∀ c ∈ Nat.toDigits 10 n, isDigit c = true := by
  intro c hc
  rw [isDigit_eq]
  exact Nat.isDigit_of_mem_toDigits (by decide) (by decide) hc

theorem isDigit_padded {w n : Nat} : ∀ c ∈ padded w n, isDigit c = true := by
  intro c hc
  rcases List.mem_append.mp hc with zero | digit
  · rw [(List.mem_replicate.mp zero).2]
    rfl
  · exact isDigit_toDigits c digit

theorem padded_ne_nil (w n : Nat) : padded w n ≠ [] := by
  unfold padded
  dsimp only
  rw [Ne, List.append_eq_nil_iff]
  exact fun h => Nat.toDigits_ne_nil h.2

theorem takeWhile_padded (w n : Nat) {s : List Char} (stops : s.takeWhile isDigit = []) :
    (padded w n ++ s).takeWhile isDigit = padded w n := by
  rw [List.takeWhile_append_of_pos isDigit_padded, stops, List.append_nil]

theorem length_padded {w n : Nat} (fits : n < 10 ^ w) (pos : 0 < w) : (padded w n).length = w := by
  have short := (Nat.length_toDigits_le_iff (b := 10) (by decide) pos).mpr fits
  unfold padded
  rw [List.length_append, List.length_replicate]
  omega

theorem value_append (ds es : List Char) :
    value (ds ++ es) = es.foldl (fun n c => n * 10 + (digit? c).getD 0) (value ds) := by
  unfold value
  rw [List.foldl_append]

theorem value_toDigits (n : Nat) : value (Nat.toDigits 10 n) = n := by
  induction n using Nat.strongRecOn with
  | _ n ih =>
    rw [Nat.toDigits_eq_if (by decide)]
    split
    · next small =>
      have digit := digit?_digitChar ⟨n, small⟩
      simp only at digit
      simp [value, digit]
    · next large =>
      have digit := digit?_digitChar ⟨n % 10, by omega⟩
      simp only at digit
      rw [value_append, ih (n / 10) (by omega)]
      simp only [List.foldl_cons, List.foldl_nil, digit, Option.getD_some]
      omega

theorem value_padded (w n : Nat) : value (padded w n) = n := by
  have zeros : ∀ k, value (List.replicate k '0') = 0 := by
    intro k
    induction k with
    | zero => rfl
    | succ k ih =>
      rw [List.replicate_succ', value_append, ih]
      rfl
  unfold padded
  dsimp only
  rw [value_append, zeros]
  exact value_toDigits n

end Decimal

namespace Text

theorem not_isSpace_of_isDigit {c : Char} (digit : Decimal.isDigit c = true) : isSpace c = false := by
  obtain ⟨low, high⟩ := Decimal.isDigit_iff.mp digit
  unfold isSpace
  simp only [Bool.or_eq_false_iff, Bool.and_eq_false_iff, decide_eq_false_iff_not, beq_eq_false_iff_ne]
  omega

/-! ### Hexadecimal -/

theorem hexValue?_digitChar : ∀ n : Fin 16, hexValue? (Nat.digitChar n.val) = some n.val := by decide

def hexStep (acc : Option Nat) (c : Char) : Option Nat := acc.bind fun n => (hexValue? c).map (n * 16 + ·)

theorem foldl_toDigits (n : Nat) : (Nat.toDigits 16 n).foldl hexStep (some 0) = some n := by
  induction n using Nat.strongRecOn with
  | _ n ih =>
    rw [Nat.toDigits_eq_if (by decide)]
    split
    · next small =>
      have digit := hexValue?_digitChar ⟨n, small⟩
      simp only at digit
      simp [hexStep, digit]
    · next large =>
      have digit := hexValue?_digitChar ⟨n % 16, by omega⟩
      simp only at digit
      rw [List.foldl_append, ih (n / 16) (by omega)]
      simp only [List.foldl_cons, List.foldl_nil, hexStep, Option.bind_some, digit, Option.map_some]
      congr 1
      omega

theorem foldl_hexPadded (w n : Nat) : (hexPadded w n).foldl hexStep (some 0) = some n := by
  have zeros : ∀ k, (List.replicate k '0').foldl hexStep (some 0) = some 0 := by
    intro k
    induction k with
    | zero => rfl
    | succ k ih => exact ih
  unfold hexPadded
  dsimp only
  rw [List.foldl_append, zeros]
  exact foldl_toDigits n

theorem length_hexPadded {w n : Nat} (fits : n < 16 ^ w) (pos : 0 < w) : (hexPadded w n).length = w := by
  have short := (Nat.length_toDigits_le_iff (b := 16) (by decide) pos).mpr fits
  unfold hexPadded
  rw [List.length_append, List.length_replicate]
  omega

end Text

end Courier
