import Courier.Text.Utf8
import Mathlib.Data.List.Infix
import Mathlib.Algebra.Group.Nat.Defs
set_option autoImplicit false

namespace Courier.Text

def continuation : Nat → Nat → List UInt8
  | 0, _ => []
  | n + 1, v => UInt8.ofNat (v / 64 ^ n % 64 + 128) :: continuation n v

inductive Encoded (c : Char) : Prop
  | one (ascii : c.toNat < 0x80) (bytes : String.utf8EncodeChar c = [UInt8.ofNat c.toNat])
  | two (low : 0x80 ≤ c.toNat) (high : c.toNat < 0x800)
    (bytes : String.utf8EncodeChar c = UInt8.ofNat (c.toNat / 64 + 0xC0) :: continuation 1 c.toNat)
  | three (low : 0x800 ≤ c.toNat) (high : c.toNat < 0x10000) (scalar : c.toNat < 0xD800 ∨ 0xDFFF < c.toNat)
    (bytes : String.utf8EncodeChar c = UInt8.ofNat (c.toNat / 4096 + 0xE0) :: continuation 2 c.toNat)
  | four (low : 0x10000 ≤ c.toNat) (high : c.toNat < 0x110000)
    (bytes : String.utf8EncodeChar c = UInt8.ofNat (c.toNat / 262144 + 0xF0) :: continuation 3 c.toNat)

theorem encoded (c : Char) : Encoded c := by
  have scalar : c.toNat < 0xD800 ∨ 0xDFFF < c.toNat ∧ c.toNat < 0x110000 := c.valid
  have form : String.utf8EncodeChar c = _ := String.utf8EncodeChar.eq_1 c
  rw [show c.val.toNat = c.toNat from rfl] at form
  by_cases one : c.toNat ≤ 0x7F
  · rw [if_pos one] at form
    exact .one (by omega) form
  · rw [if_neg one] at form
    by_cases two : c.toNat ≤ 0x7FF
    · rw [if_pos two, show c.toNat / 64 % 32 = c.toNat / 64 by omega] at form
      refine .two (by omega) (by omega) ?_
      simpa [continuation] using form
    · rw [if_neg two] at form
      by_cases three : c.toNat ≤ 0xFFFF
      · rw [if_pos three, show c.toNat / 4096 % 16 = c.toNat / 4096 by omega] at form
        refine .three (by omega) (by omega) (by omega) ?_
        simpa [continuation] using form
      · rw [if_neg three, show c.toNat / 262144 % 8 = c.toNat / 262144 by omega] at form
        refine .four (by omega) (by omega) ?_
        simpa [continuation] using form

def Begins (p : List UInt8) : Prop := ∃ c : Char, p <+: String.utf8EncodeChar c

/-! ### A sequence under way -/

namespace Partial

def Admits (q : Partial) (v : Nat) : Prop :=
  v / 64 ^ q.missing = q.value ∧ q.low ≤ v / 64 ^ (q.missing - 1) % 64 + 128 ∧
    v / 64 ^ (q.missing - 1) % 64 + 128 ≤ q.high

/-- After these bytes the sequence stands so: the values it admits are those of the characters whose encodings begin so. -/
structure After (q : Partial) (p : List UInt8) : Prop where
  nonempty : p ≠ []
  missing_pos : 0 < q.missing
  range : 0x80 ≤ q.low ∧ q.low ≤ q.high ∧ q.high ≤ 0xBF
  completed : ∀ v, q.Admits v → ∃ c : Char, c.toNat = v ∧ String.utf8EncodeChar c = p ++ continuation q.missing v
  admitted : ∀ c : Char, p <+: String.utf8EncodeChar c → q.Admits c.toNat

variable {q : Partial} {p : List UInt8} {b : UInt8}

namespace After

theorem encoding (after : q.After p) {c : Char} (begins : p <+: String.utf8EncodeChar c) :
    String.utf8EncodeChar c = p ++ continuation q.missing c.toNat := by
  obtain ⟨d, same, bytes⟩ := after.completed _ (after.admitted c begins)
  obtain rfl := Char.toNat_inj.mp same
  exact bytes

theorem unfinished (after : q.After p) (c : Char) : p ≠ String.utf8EncodeChar c := by
  intro whole
  have bytes := after.encoding (c := c) (whole ▸ List.prefix_refl _)
  obtain ⟨n, missing⟩ := Nat.exists_eq_add_one.mpr after.missing_pos
  rw [← whole, missing, continuation] at bytes
  simpa using congrArg List.length bytes

/-- A byte in range is the next one of the value that it makes, whatever follows it. -/
theorem admits_next (after : q.After p) {n : Nat} (missing : q.missing = n + 1) (low : q.low ≤ b.toNat)
    (high : b.toNat ≤ q.high) {v : Nat} (made : v / 64 ^ n = q.value * 64 + b.toNat % 64) :
    q.Admits v ∧ continuation q.missing v = b :: continuation n v := by
  have range := after.range
  have bits : v / 64 ^ n % 64 + 128 = b.toNat := by omega
  have before : v / 64 ^ (n + 1) = q.value := by
    rw [Nat.pow_succ, ← Nat.div_div_eq_div_mul]
    omega
  refine ⟨⟨by rw [missing]; exact before, ?_, ?_⟩, ?_⟩
  · rw [missing, Nat.add_sub_cancel, bits]
    exact low
  · rw [missing, Nat.add_sub_cancel, bits]
    exact high
  · rw [missing, continuation, bits, UInt8.ofNat_toNat]

/-- The byte that an encoding goes on with holds the next six bits of its value. -/
theorem next_bits (after : q.After p) {n : Nat} (missing : q.missing = n + 1) {c : Char}
    (begins : p ++ [b] <+: String.utf8EncodeChar c) :
    q.Admits c.toNat ∧ b.toNat = c.toNat / 64 ^ n % 64 + 128 := by
  have earlier : p <+: String.utf8EncodeChar c := (List.prefix_append p [b]).trans begins
  rw [after.encoding earlier, missing, continuation, List.prefix_append_right_inj, List.cons_prefix_cons] at begins
  refine ⟨after.admitted c earlier, ?_⟩
  rw [begins.1, UInt8.toNat_ofNat']
  omega

theorem begins_iff (after : q.After p) : Begins (p ++ [b]) ↔ q.low ≤ b.toNat ∧ b.toNat ≤ q.high := by
  obtain ⟨n, missing⟩ := Nat.exists_eq_add_one.mpr after.missing_pos
  constructor
  · rintro ⟨c, begins⟩
    obtain ⟨⟨-, low, high⟩, bits⟩ := after.next_bits missing begins
    rw [missing, Nat.add_sub_cancel] at low high
    omega
  · rintro ⟨low, high⟩
    -- some value goes on so: the one whose further bits are all zero
    have made : (q.value * 64 + b.toNat % 64) * 64 ^ n / 64 ^ n = q.value * 64 + b.toNat % 64 :=
      Nat.mul_div_cancel _ (Nat.pow_pos (by decide))
    obtain ⟨admits, next⟩ := after.admits_next missing low high made
    obtain ⟨c, -, bytes⟩ := after.completed _ admits
    refine ⟨c, ?_⟩
    rw [bytes, next]
    exact (List.prefix_append_right_inj p).mpr (List.cons_prefix_cons.mpr ⟨rfl, List.nil_prefix⟩)

theorem begins (after : q.After p) : Begins p := by
  have range := after.range
  obtain ⟨c, begins⟩ := (after.begins_iff (b := UInt8.ofNat q.low)).mpr (by rw [UInt8.toNat_ofNat']; omega)
  exact ⟨c, (List.prefix_append p _).trans begins⟩

/-- The last byte that is missing completes a character. -/
theorem last (after : q.After p) (missing : q.missing = 1) (low : q.low ≤ b.toNat) (high : b.toNat ≤ q.high) :
    String.utf8EncodeChar (Char.ofNat (q.value * 64 + b.toNat % 64)) = p ++ [b] := by
  obtain ⟨admits, next⟩ := after.admits_next (n := 0) missing low high (Nat.div_one _)
  obtain ⟨c, value, bytes⟩ := after.completed _ admits
  rw [← value, Char.ofNat_toNat, bytes, next, continuation]

theorem more (after : q.After p) {n : Nat} (missing : q.missing = n + 2) (low : q.low ≤ b.toNat)
    (high : b.toNat ≤ q.high) : After ⟨q.value * 64 + b.toNat % 64, n + 1, 0x80, 0xBF⟩ (p ++ [b]) where
  nonempty := by simp
  missing_pos := Nat.succ_pos n
  range := ⟨Nat.le_refl _, (by decide : 0x80 ≤ 0xBF), Nat.le_refl _⟩
  completed v := by
    rintro ⟨made, -, -⟩
    obtain ⟨admits, next⟩ := after.admits_next missing low high made
    obtain ⟨c, value, bytes⟩ := after.completed _ admits
    exact ⟨c, value, by rw [bytes, next, List.append_assoc, List.singleton_append]⟩
  admitted c begins := by
    obtain ⟨⟨value, -, -⟩, bits⟩ := after.next_bits missing begins
    rw [missing, Nat.pow_succ, ← Nat.div_div_eq_div_mul] at value
    refine ⟨?_, ?_, ?_⟩
    · change c.toNat / 64 ^ (n + 1) = q.value * 64 + b.toNat % 64
      omega
    · exact Nat.le_add_left _ _
    · change c.toNat / 64 ^ n % 64 + 128 ≤ 0xBF
      omega

end After

end Partial

/-! ### The first byte -/

/-- What the first byte of a longer encoding says: how many bytes follow, and which the first of them may be, so that
neither a character with a shorter encoding nor half of a surrogate pair is spelt. -/
inductive Leads (b : Nat) : Partial → Prop
  | two (low : 0xC2 ≤ b) (high : b ≤ 0xDF) : Leads b ⟨b % 0x20, 1, 0x80, 0xBF⟩
  | three {lo hi : Nat} (low : 0xE0 ≤ b) (high : b ≤ 0xEF)
    (next : b = 0xE0 ∧ lo = 0xA0 ∧ hi = 0xBF ∨ b = 0xED ∧ lo = 0x80 ∧ hi = 0x9F ∨
      b ≠ 0xE0 ∧ b ≠ 0xED ∧ lo = 0x80 ∧ hi = 0xBF) : Leads b ⟨b % 0x10, 2, lo, hi⟩
  | four {lo hi : Nat} (low : 0xF0 ≤ b) (high : b ≤ 0xF4)
    (next : b = 0xF0 ∧ lo = 0x90 ∧ hi = 0xBF ∨ b = 0xF4 ∧ lo = 0x80 ∧ hi = 0x8F ∨
      b ≠ 0xF0 ∧ b ≠ 0xF4 ∧ lo = 0x80 ∧ hi = 0xBF) : Leads b ⟨b % 0x08, 3, lo, hi⟩

theorem leads_of_beginByte {b : Nat} {q : Partial} (begun : beginByte b = .inr q) : Leads b q := by
  unfold beginByte at begun
  split at begun
  · cases begun
  · split at begun
    · rename_i lead
      obtain rfl := Sum.inr.inj begun
      unfold leadByte? at lead
      split_ifs at lead with two
      all_goals obtain ⟨rfl, rfl, rfl⟩ := by simpa using lead
      · exact .two two.1 two.2
      · exact .three (by omega) (by omega) (by omega)
      · exact .three (by omega) (by omega) (by omega)
      · exact .three (by omega) (by omega) (by omega)
      · exact .four (by omega) (by omega) (by omega)
      · exact .four (by omega) (by omega) (by omega)
      · exact .four (by omega) (by omega) (by omega)
    · cases begun

/-- A byte that begins no longer encoding is a character by itself, or begins none. -/
theorem single_of_beginByte {b : Nat} {c : Char} (single : beginByte b = .inl c) :
    b < 0x80 ∧ c = Char.ofNat b ∨ c = replacement ∧ (0x80 ≤ b ∧ b < 0xC2 ∨ 0xF4 < b) := by
  unfold beginByte at single
  split at single
  · rename_i ascii
    exact .inl ⟨ascii, (Sum.inl.inj single).symm⟩
  · rename_i high
    split at single
    · cases single
    · rename_i unled
      unfold leadByte? at unled
      split_ifs at unled
      exact .inr ⟨(Sum.inl.inj single).symm, by omega⟩

/-- What the first byte of an encoding is, by the forms of encodings. -/
theorem first_of_begins {b : UInt8} {c : Char} (begins : [b] <+: String.utf8EncodeChar c) :
    c.toNat < 0x80 ∧ b.toNat = c.toNat ∨
      (0x80 ≤ c.toNat ∧ c.toNat < 0x800) ∧ b.toNat = c.toNat / 64 + 0xC0 ∨
      (0x800 ≤ c.toNat ∧ c.toNat < 0x10000 ∧ (c.toNat < 0xD800 ∨ 0xDFFF < c.toNat)) ∧
        b.toNat = c.toNat / 4096 + 0xE0 ∨
      (0x10000 ≤ c.toNat ∧ c.toNat < 0x110000) ∧ b.toNat = c.toNat / 262144 + 0xF0 := by
  have first {n : Nat} {r : List UInt8} (bytes : String.utf8EncodeChar c = UInt8.ofNat n :: r) : b.toNat = n % 256 := by
    rw [bytes] at begins
    rw [(List.cons_prefix_cons.mp begins).1, UInt8.toNat_ofNat']
  cases encoded c with
  | one _ bytes | two _ _ bytes | three _ _ _ bytes | four _ _ bytes =>
    have byte := first bytes
    omega

theorem ofNat_eq_of_toNat {b : UInt8} {n : Nat} (same : n = b.toNat) : UInt8.ofNat n = b := by
  rw [same, UInt8.ofNat_toNat]

theorem ofNat_of_scalar {v : Nat} (scalar : v < 0xD800 ∨ 0xDFFF < v ∧ v < 0x110000) : (Char.ofNat v).toNat = v := by
  unfold Char.ofNat
  rw [dif_pos scalar]
  rfl

theorem Partial.after_first {q : Partial} {b : UInt8} (missing_pos : 0 < q.missing)
    (range : 0x80 ≤ q.low ∧ q.low ≤ q.high ∧ q.high ≤ 0xBF)
    (scalar : ∀ v, q.Admits v → v < 0xD800 ∨ 0xDFFF < v ∧ v < 0x110000)
    (completed : ∀ c : Char, q.Admits c.toNat → String.utf8EncodeChar c = b :: continuation q.missing c.toNat)
    (admitted : ∀ c : Char, [b] <+: String.utf8EncodeChar c → q.Admits c.toNat) : q.After [b] where
  nonempty := List.cons_ne_nil _ _
  missing_pos := missing_pos
  range := range
  completed v admits := by
    have value := ofNat_of_scalar (scalar v admits)
    have bytes := completed (Char.ofNat v) (value.symm ▸ admits)
    rw [value] at bytes
    exact ⟨_, value, bytes⟩
  admitted := admitted

theorem Leads.after {b : UInt8} {q : Partial} (leads : Leads b.toNat q) : q.After [b] := by
  cases leads with
  | two low high =>
    refine Partial.after_first (Nat.succ_pos _) ⟨Nat.le_refl _, (by decide : 0x80 ≤ 0xBF), Nat.le_refl _⟩ ?_ ?_ ?_
    all_goals dsimp only [Partial.Admits, Nat.reduceSub, Nat.reducePow]
    · omega
    · rintro c ⟨value, -, -⟩
      cases encoded c with
      | two _ _ bytes => rw [bytes, ofNat_eq_of_toNat (b := b) (by omega)]
      | _ => omega
    · intro c begins
      have first := first_of_begins begins
      omega
  | three low high next =>
    refine Partial.after_first (Nat.succ_pos _) (by dsimp only; omega) ?_ ?_ ?_
    all_goals dsimp only [Partial.Admits, Nat.reduceSub, Nat.reducePow]
    · omega
    · rintro c ⟨value, low', high'⟩
      cases encoded c with
      | three _ _ _ bytes => rw [bytes, ofNat_eq_of_toNat (b := b) (by omega)]
      | _ => omega
    · intro c begins
      have first := first_of_begins begins
      omega
  | four low high next =>
    refine Partial.after_first (Nat.succ_pos _) (by dsimp only; omega) ?_ ?_ ?_
    all_goals dsimp only [Partial.Admits, Nat.reduceSub, Nat.reducePow]
    · omega
    · rintro c ⟨value, low', high'⟩
      cases encoded c with
      | four _ _ bytes => rw [bytes, ofNat_eq_of_toNat (b := b) (by omega)]
      | _ => omega
    · intro c begins
      have first := first_of_begins begins
      omega

theorem not_begins_of_beginByte {b : UInt8} (unled : 0x80 ≤ b.toNat ∧ b.toNat < 0xC2 ∨ 0xF4 < b.toNat) :
    ¬ Begins [b] := by
  rintro ⟨c, begins⟩
  have first := first_of_begins begins
  omega

theorem encode_ascii {b : UInt8} (ascii : b.toNat < 0x80) : String.utf8EncodeChar (Char.ofNat b.toNat) = [b] := by
  have value := ofNat_of_scalar (v := b.toNat) (by omega)
  cases encoded (Char.ofNat b.toNat) with
  | one _ bytes => rw [bytes, value, UInt8.ofNat_toNat]
  | _ => omega

end Courier.Text
