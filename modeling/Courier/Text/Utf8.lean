set_option autoImplicit false

namespace Courier.Text

def utf8 (s : List Char) : List UInt8 := s.flatMap String.utf8EncodeChar

def bytes (s : String) : List UInt8 := utf8 s.toList

def replacement : Char := '\ufffd'

/-- For a leading byte: how many bytes follow, and the range of the first of them. -/
def leadByte? (b : Nat) : Option (Nat × Nat × Nat) :=
  if 0xC2 ≤ b ∧ b ≤ 0xDF then some (1, 0x80, 0xBF)
  else if b = 0xE0 then some (2, 0xA0, 0xBF)
  else if b = 0xED then some (2, 0x80, 0x9F)
  else if 0xE1 ≤ b ∧ b ≤ 0xEF then some (2, 0x80, 0xBF)
  else if b = 0xF0 then some (3, 0x90, 0xBF)
  else if 0xF1 ≤ b ∧ b ≤ 0xF3 then some (3, 0x80, 0xBF)
  else if b = 0xF4 then some (3, 0x80, 0x8F)
  else none

/-- Where the reading of a sequence stands: the value so far, how many bytes are missing, and the range of the next. -/
structure Partial where
  value : Nat
  missing : Nat
  low : Nat
  high : Nat

def beginByte (b : Nat) : Char ⊕ Partial :=
  if b < 0x80 then .inl (Char.ofNat b)
  else match leadByte? b with
    | some (n, lo, hi) =>
      let kept := if n = 1 then b % 0x20 else if n = 2 then b % 0x10 else b % 0x08
      .inr ⟨kept, n, lo, hi⟩
    | none => .inl replacement

def decodeLoop (out : List Char) (p : Option Partial) : List UInt8 → List Char
  | [] => (if p.isSome then replacement :: out else out).reverse
  | b :: r =>
    match p with
    | none =>
      match beginByte b.toNat with
      | .inl c => decodeLoop (c :: out) none r
      | .inr q => decodeLoop out (some q) r
    | some q =>
      if q.low ≤ b.toNat ∧ b.toNat ≤ q.high then
        let v := q.value * 64 + b.toNat % 64
        if q.missing ≤ 1 then decodeLoop (Char.ofNat v :: out) none r
        else decodeLoop out (some ⟨v, q.missing - 1, 0x80, 0xBF⟩) r
      else
        match beginByte b.toNat with
        | .inl c => decodeLoop (c :: replacement :: out) none r
        | .inr q' => decodeLoop (replacement :: out) (some q') r

def decodeLossy (bs : List UInt8) : List Char := decodeLoop [] none bs

end Courier.Text
