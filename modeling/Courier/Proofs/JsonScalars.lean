import Courier.Json.Printer
import Courier.Json.Reader
import Courier.Proofs.Numerals
set_option autoImplicit false

namespace Courier.Json

theorem hexNumber?_reverse (ds : List Char) : hexNumber? ds.reverse = ds.foldl Text.hexStep (some 0) := by
  unfold hexNumber?
  rw [List.foldr_reverse]
  rfl

theorem eq_ofNat_of_val {c : Char} {n : Nat} (h : c.val.toNat = n) : c = Char.ofNat n := by
  rw [← h]
  exact (Char.ofNat_toNat c).symm

theorem stringLoop_hex {n : Nat} (small : n < 32) (out s : List Char) :
    stringLoop true .plain out ('\\' :: 'u' :: (Text.hexPadded 4 n ++ s))
      = stringLoop true .plain (Char.ofNat n :: out) s := by
  have four := Text.length_hexPadded (w := 4) (n := n) (by omega) (by decide)
  have number := Text.foldl_hexPadded 4 n
  match hd : Text.hexPadded 4 n, four with
  | [a, b, c, d], _ =>
    rw [hd, ← hexNumber?_reverse] at number
    -- a control character is no half of a pair
    have meaning : hexMeaning true none n = .ok (.inl (Char.ofNat n)) := by
      unfold hexMeaning
      simp only [Bool.true_eq_false, if_false]
      rw [if_neg (by omega), if_neg (by omega)]
    simp only [List.reverse_cons, List.reverse_nil, List.nil_append, List.cons_append] at number
    simp [stringLoop, number, meaning]

theorem stringLoop_escape (c : Char) (out s : List Char) :
    stringLoop true .plain out (escape c ++ s) = stringLoop true .plain (c :: out) s := by
  unfold escape
  split
  · next quote =>
    rw [quote]
    rfl
  split
  · next slash =>
    rw [slash]
    rfl
  split
  · next back =>
    rw [eq_ofNat_of_val back]
    rfl
  split
  · next tab =>
    rw [eq_ofNat_of_val tab]
    rfl
  split
  · next line =>
    rw [eq_ofNat_of_val line]
    rfl
  split
  · next feed =>
    rw [eq_ofNat_of_val feed]
    rfl
  split
  · next carriage =>
    rw [eq_ofNat_of_val carriage]
    rfl
  split
  · next control =>
    have named := stringLoop_hex control out s
    rw [← eq_ofNat_of_val rfl] at named
    exact named
  · next quote slash _ _ _ _ _ printable =>
    simp only [List.cons_append, List.nil_append, stringLoop, if_neg quote, if_neg slash, if_neg printable]

theorem stringLoop_escapes (cs out s : List Char) :
    stringLoop true .plain out (cs.flatMap escape ++ '"' :: s) = .ok (out.reverse ++ cs, s) := by
  induction cs generalizing out with
  | nil => simp [stringLoop]
  | cons c cs ih =>
    rw [List.flatMap_cons, List.append_assoc, stringLoop_escape, ih, List.reverse_cons, List.append_assoc]
    rfl

theorem stringTail_escapes (t : String) (s : List Char) :
    stringTail (t.toList.flatMap escape ++ '"' :: s) = .ok (t, s) := by
  unfold stringTail
  rw [stringLoop_escapes]
  simp [Except.map]

theorem quoted_append (t : String) (s : List Char) :
    quoted t ++ s = '"' :: (t.toList.flatMap escape ++ '"' :: s) := by
  unfold quoted
  simp

/-! ### Whole numbers -/

/-- What may stand behind a value: nothing, or the mark that ends an item or a member. -/
def Closes (s : List Char) : Prop := ∀ c ∈ s.head?, c = ',' ∨ c = ']' ∨ c = '\x7d'

theorem closes_nil : Closes [] := fun _ h => nomatch h

theorem closes_comma (s : List Char) : Closes (',' :: s) := by
  rintro c ⟨⟩
  exact .inl rfl

theorem closes_list (s : List Char) : Closes (']' :: s) := by
  rintro c ⟨⟩
  exact .inr (.inl rfl)

theorem closes_object (s : List Char) : Closes ('\x7d' :: s) := by
  rintro c ⟨⟩
  exact .inr (.inr rfl)

theorem le_spelled (ds : List Char) (sig : Nat) :
    sig ≤ ds.foldl (fun n c => n * 10 + (Decimal.digit? c).getD 0) sig := by
  induction ds generalizing sig with
  | nil => exact Nat.le_refl _
  | cons d ds ih =>
    have more := ih (sig * 10 + (Decimal.digit? d).getD 0)
    rw [List.foldl_cons]
    omega

/-- Digits of a number that fits 64 bits are all taken. -/
theorem takeDigits_fitting (ds : List Char) (sig taken : Nat)
    (fits : ds.foldl (fun n c => n * 10 + (Decimal.digit? c).getD 0) sig ≤ 18446744073709551615) :
    takeDigits sig taken ds
      = (ds.foldl (fun n c => n * 10 + (Decimal.digit? c).getD 0) sig, taken + ds.length) := by
  induction ds generalizing sig taken with
  | nil => rfl
  | cons d ds ih =>
    rw [List.foldl_cons] at fits ⊢
    have first := le_spelled ds (sig * 10 + (Decimal.digit? d).getD 0)
    unfold takeDigits
    dsimp only
    rw [if_neg (by omega), ih _ _ fits, List.length_cons, Nat.add_assoc, Nat.add_comm 1]

theorem head_toDigits (n : Nat) (pos : 0 < n) : ∃ d ds, Nat.toDigits 10 n = d :: ds ∧ d ≠ '0' := by
  induction n using Nat.strongRecOn with
  | _ n ih =>
    rw [Nat.toDigits_eq_if (by decide)]
    split
    · next small =>
      refine ⟨_, [], rfl, ?_⟩
      have nonzero : ∀ m : Fin 10, 0 < m.val → Nat.digitChar m.val ≠ '0' := by decide
      exact nonzero ⟨n, small⟩ pos
    · next large =>
      obtain ⟨d, ds, digits, nonzero⟩ := ih (n / 10) (by omega) (by omega)
      exact ⟨d, ds ++ [Nat.digitChar (n % 10)], by rw [digits]; rfl, nonzero⟩

theorem toDigits_lone_zero (n : Nat) {d : Char} {ds : List Char} (digits : Nat.toDigits 10 n = d :: ds) :
    d ≠ '0' ∨ ds = [] := by
  by_cases pos : 0 < n
  · obtain ⟨d', ds', digits', nonzero⟩ := head_toDigits n pos
    rw [digits'] at digits
    cases digits
    exact .inl nonzero
  · obtain rfl : n = 0 := by omega
    cases digits
    exact .inr rfl

theorem isDigit_head_of_closes {s : List Char} (closed : Closes s) : s.head?.any Decimal.isDigit = false := by
  cases s with
  | nil => rfl
  | cons c s => rcases closed c rfl with rfl | rfl | rfl <;> rfl

theorem digits_of_closes {s : List Char} (closed : Closes s) : digits s = [] := by
  cases s with
  | nil => rfl
  | cons c s => rcases closed c rfl with rfl | rfl | rfl <;> rfl

/-- The digits of a number that fits 64 bits, before the end of a value, are read as a whole number. -/
theorem number_toDigits (positive : Bool) {n : Nat} (fits : n ≤ 18446744073709551615) {s : List Char}
    (closed : Closes s) : number positive (Nat.toDigits 10 n ++ s) = wholeNumber positive n s := by
  have all : digits (Nat.toDigits 10 n ++ s) = Nat.toDigits 10 n := by
    have none := digits_of_closes closed
    unfold digits at none ⊢
    rw [List.takeWhile_append_of_pos Decimal.isDigit_toDigits, none, List.append_nil]
  have taken : takeDigits 0 0 (Nat.toDigits 10 n) = (n, (Nat.toDigits 10 n).length) := by
    have value := Decimal.value_toDigits n
    unfold Decimal.value at value
    rw [takeDigits_fitting _ _ _ (by rw [value]; exact fits), value, Nat.zero_add]
  cases hd : Nat.toDigits 10 n with
  | nil => exact absurd hd Nat.toDigits_ne_nil
  | cons d ds =>
    have digit : Decimal.isDigit d = true := Decimal.isDigit_toDigits d (hd ▸ List.mem_cons_self)
    -- a zero in front would have to stand alone
    have lone : ¬ (d = '0' ∧ (ds ++ s).head?.any Decimal.isDigit = true) := by
      rintro ⟨zero, more⟩
      rcases toDigits_lone_zero n hd with other | none
      · exact other zero
      · rw [none, List.nil_append, isDigit_head_of_closes closed] at more
        cases more
    rw [hd, List.cons_append] at all
    rw [hd] at taken
    unfold number
    dsimp only [List.cons_append]
    rw [if_neg (by simp [digit]), if_neg lone, all, taken]
    have rest : (d :: (ds ++ s)).drop (d :: ds).length = s := List.drop_left
    dsimp only
    rw [rest, Nat.sub_self]
    cases s with
    | nil => rfl
    | cons c s => rcases closed c rfl with rfl | rfl | rfl <;> rfl

theorem wholeNumber_positive {n : JsonInteger} (pos : 0 ≤ n.val) (s : List Char) :
    wholeNumber true n.val.natAbs s = .ok (.integer n, s) := by
  have same : (n.val.natAbs : Int) = n.val := Int.natAbs_of_nonneg pos
  unfold wholeNumber
  rw [if_pos rfl, same, Bounded.ofInt?_val]

theorem wholeNumber_negative {n : JsonInteger} (neg : n.val < 0) (s : List Char) :
    wholeNumber false n.val.natAbs s = .ok (.integer n, s) := by
  have low := n.lo_le
  have same : -(n.val.natAbs : Int) = n.val := by omega
  unfold wholeNumber
  rw [if_neg Bool.false_ne_true, if_neg (by omega), same, Bounded.ofInt?_val]

/-- The text of a whole number starts with a minus or a digit, and the rest spells the number. -/
theorem ofInt_starts (n : JsonInteger) {s : List Char} (closed : Closes s) : ∃ c r, Decimal.ofInt n.val ++ s = c :: r ∧
    (c = '-' ∧ number false r = .ok (.integer n, s) ∨
      Decimal.isDigit c = true ∧ number true (c :: r) = .ok (.integer n, s)) := by
  have low := n.lo_le
  have high := n.le_hi
  have fits : n.val.natAbs ≤ 18446744073709551615 := by omega
  unfold Decimal.ofInt
  split
  · next neg =>
    refine ⟨'-', _, rfl, .inl ⟨rfl, ?_⟩⟩
    exact (number_toDigits false fits closed).trans (wholeNumber_negative neg s)
  · next pos =>
    have read := (number_toDigits true fits closed).trans (wholeNumber_positive (by omega) s)
    cases hd : Nat.toDigits 10 n.val.natAbs with
    | nil => exact absurd hd Nat.toDigits_ne_nil
    | cons d ds =>
      rw [hd] at read
      exact ⟨d, ds ++ s, rfl, .inr ⟨Decimal.isDigit_toDigits d (hd ▸ List.mem_cons_self), read⟩⟩

end Courier.Json
