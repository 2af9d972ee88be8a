set_option autoImplicit false

namespace Courier.Text

def hexDigit (n : Nat) : Char :=
  if n < 10 then Char.ofNat (48 + n) else Char.ofNat (87 + n)

def hexValue? (c : Char) : Option Nat :=
  let n := c.val.toNat
  if 48 ≤ n ∧ n ≤ 57 then some (n - 48)
  else if 97 ≤ n ∧ n ≤ 102 then some (n - 87)
  else if 65 ≤ n ∧ n ≤ 70 then some (n - 55)
  else none

def hexByte (b : UInt8) : List Char := [hexDigit (b.toNat / 16), hexDigit (b.toNat % 16)]

def hexEncode (bs : List UInt8) : List Char := bs.flatMap hexByte

/-- The bytes of a hexadecimal text; none when its length is odd or a character is no digit. -/
def hexDecode? : List Char → Option (List UInt8)
  | [] => some []
  | [_] => none
  | a :: b :: r =>
    match hexValue? a, hexValue? b with
    | some x, some y => (hexDecode? r).map (UInt8.ofNat (16 * x + y) :: ·)
    | _, _ => none

def hexPadded (width n : Nat) : List Char :=
  let d := Nat.toDigits 16 n
  List.replicate (width - d.length) '0' ++ d

theorem hexValue?_hexDigit : ∀ n : Fin 16, hexValue? (hexDigit n.val) = some n.val := by decide

theorem hexDecode?_hexByte (b : UInt8) (r : List Char) :
    hexDecode? (hexByte b ++ r) = (hexDecode? r).map (b :: ·) := by
  have hb : b.toNat < 256 := b.toNat_lt
  have h1 := hexValue?_hexDigit ⟨b.toNat / 16, by omega⟩
  have h2 := hexValue?_hexDigit ⟨b.toNat % 16, by omega⟩
  simp only at h1 h2
  simp only [hexByte, List.cons_append, List.nil_append, hexDecode?, h1, h2]
  have : 16 * (b.toNat / 16) + b.toNat % 16 = b.toNat := by omega
  rw [this, UInt8.ofNat_toNat]

theorem hexDecode?_hexEncode (bs : List UInt8) : hexDecode? (hexEncode bs) = some bs := by
  induction bs with
  | nil => rfl
  | cons b r ih =>
    have : hexEncode (b :: r) = hexByte b ++ hexEncode r := by simp [hexEncode]
    rw [this, hexDecode?_hexByte, ih]
    rfl

theorem length_hexEncode (bs : List UInt8) : (hexEncode bs).length = 2 * bs.length := by
  induction bs with
  | nil => rfl
  | cons b r ih =>
    have : hexEncode (b :: r) = hexByte b ++ hexEncode r := by simp [hexEncode]
    rw [this, List.length_append, ih]
    simp [hexByte]
    omega

end Courier.Text
