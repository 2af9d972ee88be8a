import Courier.Proofs.LossyText
set_option autoImplicit false

namespace Courier.Text

theorem cons_lt_of_nat {a b : Nat} (small : b < 256) (lt : a < b) (x y : List UInt8) :
    UInt8.ofNat a :: x < UInt8.ofNat b :: y := by
  refine List.cons_lt_cons_iff.mpr (.inl (UInt8.lt_iff_toNat_lt.mpr ?_))
  rw [UInt8.toNat_ofNat', UInt8.toNat_ofNat']
  omega

/-- Of two values that agree above their last bits, six for each byte, the smaller is written with the smaller bytes. -/
theorem continuation_lt {n v w : Nat} (same : v / 64 ^ n = w / 64 ^ n) (lt : v < w) (x y : List UInt8) :
    continuation n v ++ x < continuation n w ++ y := by
  induction n with
  | zero =>
    rw [Nat.pow_zero, Nat.div_one, Nat.div_one] at same
    omega
  | succ n ih =>
    rw [Nat.pow_succ, ← Nat.div_div_eq_div_mul, ← Nat.div_div_eq_div_mul] at same
    have grows : v / 64 ^ n ≤ w / 64 ^ n := Nat.div_le_div_right (Nat.le_of_lt lt)
    by_cases last : v / 64 ^ n = w / 64 ^ n
    · rw [continuation, continuation, last]
      exact List.cons_lt_cons_iff.mpr (.inr ⟨rfl, ih last⟩)
    · exact cons_lt_of_nat (by omega) (by omega) _ _

/-- Encodings of one form: the first byte holds what is above the bits of the others. -/
theorem leading_lt {n base v w : Nat} (small : w / 64 ^ n + base < 256) (lt : v < w) (x y : List UInt8) :
    UInt8.ofNat (v / 64 ^ n + base) :: continuation n v ++ x <
      UInt8.ofNat (w / 64 ^ n + base) :: continuation n w ++ y := by
  have grows : v / 64 ^ n ≤ w / 64 ^ n := Nat.div_le_div_right (Nat.le_of_lt lt)
  by_cases same : v / 64 ^ n = w / 64 ^ n
  · rw [same]
    exact List.cons_lt_cons_iff.mpr (.inr ⟨rfl, continuation_lt same lt x y⟩)
  · exact cons_lt_of_nat small (by omega) _ _

theorem encode_lt {c d : Char} (lt : c.toNat < d.toNat) (x y : List UInt8) :
    String.utf8EncodeChar c ++ x < String.utf8EncodeChar d ++ y := by
  cases encoded c with
  | one ascii bytes =>
    rw [bytes]
    cases encoded d with
    | one ascii' bytes' => rw [bytes']; exact cons_lt_of_nat (by omega) lt x y
    | two _ _ bytes' | three _ _ _ bytes' | four _ _ bytes' =>
      rw [bytes']
      exact cons_lt_of_nat (by omega) (by omega) _ _
  | two low high bytes =>
    rw [bytes]
    cases encoded d with
    | one => omega
    | two _ _ bytes' => rw [bytes']; exact leading_lt (n := 1) (by omega) lt x y
    | three _ _ _ bytes' | four _ _ bytes' => rw [bytes']; exact cons_lt_of_nat (by omega) (by omega) _ _
  | three low high scalar bytes =>
    rw [bytes]
    cases encoded d with
    | one | two => omega
    | three _ _ _ bytes' => rw [bytes']; exact leading_lt (n := 2) (by omega) lt x y
    | four _ _ bytes' => rw [bytes']; exact cons_lt_of_nat (by omega) (by omega) _ _
  | four low high bytes =>
    rw [bytes]
    cases encoded d with
    | one | two | three => omega
    | four _ _ bytes' => rw [bytes']; exact leading_lt (n := 3) (by omega) lt x y

theorem utf8_lt {s t : List Char} (lt : s < t) : utf8 s < utf8 t := by
  induction s generalizing t with
  | nil =>
    cases t with
    | nil => exact absurd lt (List.lt_irrefl _)
    | cons d r =>
      have some : utf8 (d :: r) ≠ [] := by
        intro none
        have size := congrArg List.length none
        have pos := d.utf8Size_pos
        rw [length_utf8_cons, List.length_nil] at size
        omega
      obtain ⟨b, bs, bytes⟩ := List.exists_cons_of_ne_nil some
      rw [bytes]
      exact List.nil_lt_cons b bs
  | cons c s ih =>
    cases t with
    | nil => exact absurd lt (List.not_lt_nil _)
    | cons d t =>
      rw [utf8_cons, utf8_cons]
      rcases List.cons_lt_cons_iff.mp lt with first | ⟨rfl, rest⟩
      · exact encode_lt (UInt32.lt_iff_toNat_lt.mp first) _ _
      · exact List.append_left_lt (ih rest)

theorem bytes_lt {s t : String} (lt : s < t) : bytes s < bytes t := utf8_lt lt

/-- Every character takes a byte at least. -/
theorem length_le_bytes (s : String) : s.length ≤ (bytes s).length := by
  rw [← String.length_toList, bytes]
  induction s.toList with
  | nil => exact Nat.zero_le _
  | cons c r ih =>
    have pos := c.utf8Size_pos
    rw [length_utf8_cons, List.length_cons]
    omega

end Courier.Text
