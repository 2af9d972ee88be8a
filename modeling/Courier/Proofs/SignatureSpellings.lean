import Courier.Proofs.SignedRequests
set_option autoImplicit false

namespace Courier

namespace Text

theorem toLower_of_not_ascii {c : Char} (high : 128 ≤ c.val.toNat) : c.toLower = c := by
  have capital : ¬ (c.val ≥ 'A'.val ∧ c.val ≤ 'Z'.val) := by
    rintro ⟨-, last⟩
    have le_last : c.val.toNat ≤ 90 := UInt32.le_iff_toNat_le.mp last
    omega
  exact dif_neg capital

theorem ofNat_of_ascii {c : Char} (low : c.val.toNat < 128) : ∃ n : Fin 128, c = Char.ofNat n.val :=
  ⟨⟨c.val.toNat, low⟩, (Char.ofNat_toNat c).symm⟩

theorem hexValue?_eq_some_iff {c : Char} {n : Nat} : hexValue? c = some n ↔ n < 16 ∧ c.toLower = hexDigit n := by
  by_cases low : c.val.toNat < 128
  · obtain ⟨k, rfl⟩ := ofNat_of_ascii low
    constructor
    · intro read
      have sound : ∀ k : Fin 128, ∀ n ∈ hexValue? (Char.ofNat k.val), n < 16 ∧ (Char.ofNat k.val).toLower = hexDigit n := by
        decide +kernel
      exact sound k n read
    · rintro ⟨small, digit⟩
      have complete : ∀ k : Fin 128, ∀ n : Fin 16, (Char.ofNat k.val).toLower = hexDigit n.val →
          hexValue? (Char.ofNat k.val) = some n.val := by decide +kernel
      exact complete k ⟨n, small⟩ digit
  · have digits_low : ∀ n : Fin 16, (hexDigit n.val).val.toNat < 128 := by decide
    constructor
    · intro read
      unfold hexValue? at read
      dsimp only at read
      rw [if_neg (by omega), if_neg (by omega), if_neg (by omega)] at read
      cases read
    · rintro ⟨small, digit⟩
      rw [toLower_of_not_ascii (by omega)] at digit
      exact absurd (digit ▸ digits_low ⟨n, small⟩) low

theorem hexEncode_cons (b : UInt8) (bs : List UInt8) :
    hexEncode (b :: bs) = hexDigit (b.toNat / 16) :: hexDigit (b.toNat % 16) :: hexEncode bs := rfl

theorem hexDecode?_pair {a b : Char} {r : List Char} {d : UInt8} {ds : List UInt8} :
    hexDecode? (a :: b :: r) = some (d :: ds) ↔
      hexValue? a = some (d.toNat / 16) ∧ hexValue? b = some (d.toNat % 16) ∧ hexDecode? r = some ds := by
  constructor
  · intro read
    unfold hexDecode? at read
    split at read
    · next x y hx hy =>
      obtain ⟨rest, hrest, same⟩ := Option.map_eq_some_iff.mp read
      obtain ⟨rfl, rfl⟩ := List.cons.inj same
      have x_small := (hexValue?_eq_some_iff.mp hx).1
      have y_small := (hexValue?_eq_some_iff.mp hy).1
      have value : (UInt8.ofNat (16 * x + y)).toNat = 16 * x + y := by
        rw [UInt8.toNat_ofNat']
        omega
      refine ⟨hx.trans (congrArg some ?_), hy.trans (congrArg some ?_), hrest⟩
      · omega
      · omega
    · cases read
  · rintro ⟨high, low, rest⟩
    have whole : 16 * (d.toNat / 16) + d.toNat % 16 = d.toNat := by omega
    simp only [hexDecode?, high, low, rest, Option.map_some, whole, UInt8.ofNat_toNat]

/-- Bytes are read from those texts that are their digits up to case. -/
theorem hexDecode?_eq_some_iff : ∀ {cs : List Char} {bs : List UInt8},
    hexDecode? cs = some bs ↔ cs.map Char.toLower = hexEncode bs
  | [], [] => by simp [hexDecode?, hexEncode]
  | [], b :: bs => by simp [hexDecode?, hexEncode_cons]
  | [c], [] => by simp [hexDecode?, hexEncode]
  | [c], b :: bs => by simp [hexDecode?, hexEncode_cons]
  | a :: b :: r, [] => by
    have some_byte : hexDecode? (a :: b :: r) ≠ some [] := by
      unfold hexDecode?
      split <;> simp
    simp [some_byte, hexEncode]
  | a :: b :: r, d :: ds => by
    have high : d.toNat / 16 < 16 := by
      have := d.toNat_lt
      omega
    have low : d.toNat % 16 < 16 := by omega
    rw [hexDecode?_pair, hexValue?_eq_some_iff, hexValue?_eq_some_iff, hexDecode?_eq_some_iff, hexEncode_cons]
    simp [high, low]

/-! ### White space around a text -/

/-- The text without the white space around it, with small letters in place of the capitals of ASCII. -/
def plain (s : String) : String := String.ofList ((trim s.toList).map Char.toLower)

def Spells (s word : String) : Prop := ∃ before ink after, s.toList = before ++ ink ++ after ∧
  (∀ c ∈ before, isSpace c = true) ∧ (∀ c ∈ after, isSpace c = true) ∧ ink.map Char.toLower = word.toList

theorem trim_parts (cs : List Char) : ∃ before after, cs = before ++ trim cs ++ after ∧
    (∀ c ∈ before, isSpace c = true) ∧ ∀ c ∈ after, isSpace c = true := by
  refine ⟨cs.takeWhile isSpace, ((trimStart cs).reverse.takeWhile isSpace).reverse, ?_, ?_, ?_⟩
  · have front : cs.takeWhile isSpace ++ trimStart cs = cs := List.takeWhile_append_dropWhile
    have back : trim cs ++ ((trimStart cs).reverse.takeWhile isSpace).reverse = trimStart cs := by
      rw [trim, trimEnd, ← List.reverse_append, List.takeWhile_append_dropWhile, List.reverse_reverse]
    rw [List.append_assoc, back, front]
  · exact fun c hc => List.all_eq_true.mp List.all_takeWhile c hc
  · exact fun c hc => List.all_eq_true.mp List.all_takeWhile c (List.mem_reverse.mp hc)

theorem trim_surrounded {before ink after : List Char} (front : ∀ c ∈ before, isSpace c = true)
    (back : ∀ c ∈ after, isSpace c = true) (dark : ∀ c ∈ ink, isSpace c = false) : trim (before ++ ink ++ after) = ink := by
  have started : trimStart (before ++ ink ++ after) = trimStart (ink ++ after) := by
    rw [List.append_assoc]
    exact List.dropWhile_append_of_pos front
  have ended : ∀ cs, trimEnd (cs ++ after) = trimEnd cs := by
    intro cs
    unfold trimEnd
    rw [List.reverse_append, List.dropWhile_append_of_pos fun c hc => back c (List.mem_reverse.mp hc)]
  unfold trim
  rw [started]
  cases ink with
  | nil =>
    have none_left : trimStart (after ++ []) = [] := List.dropWhile_append_of_pos back
    rw [List.append_nil] at none_left
    rw [List.nil_append, none_left]
    rfl
  | cons c cs =>
    have first := dark c List.mem_cons_self
    have whole := trim_of_not_space dark
    rw [trim, Instant.trimStart_of_not_space cs first] at whole
    rw [List.cons_append, Instant.trimStart_of_not_space (cs ++ after) first, ← List.cons_append, ended, whole]

theorem toLower_of_isSpace {c : Char} (space : isSpace c = true) : c.toLower = c := by
  by_cases low : c.val.toNat < 128
  · obtain ⟨k, rfl⟩ := ofNat_of_ascii low
    have kept : ∀ k : Fin 128, isSpace (Char.ofNat k.val) = true → (Char.ofNat k.val).toLower = Char.ofNat k.val := by
      decide +kernel
    exact kept k space
  · exact toLower_of_not_ascii (by omega)

/-- For a word without white space it makes no difference whether the white space is taken away or allowed. -/
theorem plain_eq_iff_spells {s word : String} (dark : ∀ c ∈ word.toList, isSpace c = false) :
    plain s = word ↔ Spells s word := by
  unfold plain
  rw [← String.toList_inj, String.toList_ofList]
  constructor
  · intro same
    obtain ⟨before, after, parts, front, back⟩ := trim_parts s.toList
    exact ⟨before, _, after, parts, front, back, same⟩
  · rintro ⟨before, ink, after, parts, front, back, same⟩
    have inked : ∀ c ∈ ink, isSpace c = false := by
      intro c hc
      refine Bool.eq_false_iff.mpr fun space => ?_
      have small := dark c.toLower (same ▸ List.mem_map_of_mem hc)
      rw [toLower_of_isSpace space, space] at small
      cases small
    rw [parts, trim_surrounded front back inked, same]

example : plain "\u2003AbC 0\n" = "abc 0" := by decide +kernel

end Text

namespace Signature

def digits : List Char := "0123456789abcdef".toList

variable {secret signature : String} {payload : List UInt8}

theorem verify_iff_plain :
    verify secret payload signature = true ↔ Text.plain signature = sign secret payload := by
  unfold verify Text.plain sign
  rw [String.ofList_inj, ← Text.hexDecode?_eq_some_iff]
  cases Text.hexDecode? (Text.trim signature.toList) with
  | none => simp
  | some bytes => exact beq_iff_eq.trans (eq_comm.trans Option.some_inj.symm)

theorem mem_sign {c : Char} (hc : c ∈ (sign secret payload).toList) : ∃ n : Fin 16, c = Text.hexDigit n.val := by
  rw [sign, String.toList_ofList] at hc
  exact Text.mem_hexEncode hc

theorem mem_digits_of_mem_sign {c : Char} (hc : c ∈ (sign secret payload).toList) : c ∈ digits := by
  have listed : ∀ n : Fin 16, Text.hexDigit n.val ∈ digits := by decide
  obtain ⟨n, rfl⟩ := mem_sign hc
  exact listed n

theorem verify_iff_spells :
    verify secret payload signature = true ↔ Text.Spells signature (sign secret payload) := by
  refine verify_iff_plain.trans (Text.plain_eq_iff_spells fun c hc => ?_)
  obtain ⟨n, rfl⟩ := mem_sign hc
  exact isSpace_hexDigit n

/-- What verifies has 64 digits between the white space around it, and nothing else. -/
theorem digits_of_verify (verified : verify secret payload signature = true) :
    (Text.trim signature.toList).length = 64 ∧ ∀ c ∈ Text.trim signature.toList, c.toLower ∈ digits := by
  have spelled := congrArg String.toList (verify_iff_plain.mp verified)
  rw [Text.plain, String.toList_ofList] at spelled
  refine ⟨?_, fun c hc => mem_digits_of_mem_sign (spelled ▸ List.mem_map_of_mem hc)⟩
  rw [← length_sign secret payload, ← String.length_toList, ← spelled, List.length_map]

/-- A text verifies exactly if it is the right signature up to white space around it and the case of its letters. The
right signature is 64 digits, so that no text verifies that has more or less of them, or anything else between them. -/
theorem verifies_spellings_only (secret : String) (payload : List UInt8) (signature : String) :
    (verify secret payload signature = true ↔ Text.plain signature = sign secret payload) ∧
    (verify secret payload signature = true ↔ Text.Spells signature (sign secret payload)) ∧
    (sign secret payload).length = 64 ∧ (∀ c ∈ (sign secret payload).toList, c ∈ digits) ∧
    ((Text.trim signature.toList).length ≠ 64 ∨ (∃ c ∈ Text.trim signature.toList, c.toLower ∉ digits) →
      verify secret payload signature = false) := by
  refine ⟨verify_iff_plain, verify_iff_spells, length_sign _ _, fun c => mem_digits_of_mem_sign, fun malformed => ?_⟩
  refine Bool.eq_false_iff.mpr fun verified => ?_
  obtain ⟨length, all_digits⟩ := digits_of_verify verified
  rcases malformed with other | ⟨c, hc, undigit⟩
  · exact other length
  · exact undigit (all_digits c hc)

end Signature

end Courier
