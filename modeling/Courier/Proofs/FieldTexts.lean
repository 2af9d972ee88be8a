import Courier.Json.Schema
import Courier.Proofs.InstantTexts
import Courier.Proofs.JsonTexts
set_option autoImplicit false

namespace Courier

namespace Uuid

open Text

theorem ofDigits?_hexPadded (u : Uuid) : ofDigits? (hexPadded 32 u.value) = some u := by
  have small := u.lt_bound
  have length : (hexPadded 32 u.value).length = 32 := length_hexPadded (by omega) (by decide)
  unfold ofDigits?
  rw [if_pos length]
  change ((hexPadded 32 u.value).foldl hexStep (some 0)).map ofNat = some u
  rw [foldl_hexPadded, Option.map_some]
  unfold ofNat
  simp only [Nat.mod_eq_of_lt small]

theorem ofChars?_groups {a b c d e : List Char} (ha : a.length = 8) (hb : b.length = 4) (hc : c.length = 4)
    (hd : d.length = 4) (he : e.length = 12) :
    ofChars? (a ++ '-' :: b ++ '-' :: c ++ '-' :: d ++ '-' :: e) = ofDigits? (a ++ b ++ c ++ d ++ e) := by
  unfold ofChars? ofGroups?
  simp [List.drop_append, List.drop_eq_nil_of_le, ha, hb, hc, hd, he]

theorem ofText?_text (u : Uuid) : ofText? u.text = some u := by
  have small := u.lt_bound
  have length : (hexPadded 32 u.value).length = 32 := length_hexPadded (by omega) (by decide)
  have read := ofDigits?_hexPadded u
  unfold ofText? text chars
  dsimp only
  generalize hexPadded 32 u.value = d at length read ⊢
  rw [String.toList_ofList, ofChars?_groups (by simp [length]) (by simp [length]) (by simp [length]) (by simp [length])
    (by simp [length]), ← read]
  rw [← List.take_add, ← List.take_add, ← List.take_add, List.take_append_drop]

end Uuid

namespace Json

/-! ### Texts without escapes -/

theorem mem_toDigits {b n : Nat} (base : 1 < b) {c : Char} (mem : c ∈ Nat.toDigits b n) :
    ∃ d < b, c = Nat.digitChar d := by
  induction n using Nat.strongRecOn with
  | _ n ih =>
    rw [Nat.toDigits_eq_if base] at mem
    split at mem
    · next small => exact ⟨n, small, List.mem_singleton.mp mem⟩
    · next large =>
      rcases List.mem_append.mp mem with front | last
      · exact ih (n / b) (Nat.div_lt_self (by omega) base) front
      · exact ⟨n % b, Nat.mod_lt n (by omega), List.mem_singleton.mp last⟩

theorem escape_digitChar : ∀ d : Fin 16, escape (Nat.digitChar d.val) = [Nat.digitChar d.val] := by decide

theorem escape_toDigits {b n : Nat} (base : 1 < b ∧ b ≤ 16) {c : Char} (mem : c ∈ Nat.toDigits b n) :
    escape c = [c] := by
  obtain ⟨d, small, rfl⟩ := mem_toDigits base.1 mem
  exact escape_digitChar ⟨d, by omega⟩

theorem escape_padded {w n : Nat} {c : Char} (mem : c ∈ Decimal.padded w n) : escape c = [c] := by
  rcases List.mem_append.mp mem with zero | digit
  · rw [(List.mem_replicate.mp zero).2]
    rfl
  · exact escape_toDigits (by decide) digit

/-- A hexadecimal number is written with small digits. -/
theorem mem_hexPadded {w n : Nat} {c : Char} (mem : c ∈ Text.hexPadded w n) : ∃ d : Fin 16, c = Nat.digitChar d.val := by
  rcases List.mem_append.mp mem with zero | digit
  · exact ⟨0, (List.mem_replicate.mp zero).2⟩
  · obtain ⟨d, small, rfl⟩ := mem_toDigits (by decide) digit
    exact ⟨⟨d, small⟩, rfl⟩

theorem mem_uuid {u : Uuid} {c : Char} (mem : c ∈ u.chars) : c = '-' ∨ ∃ d : Fin 16, c = Nat.digitChar d.val := by
  unfold Uuid.chars at mem
  simp only [List.mem_append, List.mem_cons] at mem
  have digit : ∀ k l, c ∈ ((Text.hexPadded 32 u.value).drop k).take l → ∃ d : Fin 16, c = Nat.digitChar d.val :=
    fun k l mem => mem_hexPadded (List.mem_of_mem_drop (List.mem_of_mem_take mem))
  rcases mem with (((mem | hyphen | mem) | hyphen | mem) | hyphen | mem) | hyphen | mem
  · exact .inr (digit 0 8 mem)
  · exact .inl hyphen
  · exact .inr (digit 8 4 mem)
  · exact .inl hyphen
  · exact .inr (digit 12 4 mem)
  · exact .inl hyphen
  · exact .inr (digit 16 4 mem)
  · exact .inl hyphen
  · exact .inr (mem_hexPadded (List.mem_of_mem_drop mem))

theorem escape_uuid (u : Uuid) {c : Char} (mem : c ∈ u.chars) : escape c = [c] := by
  rcases mem_uuid mem with rfl | ⟨d, rfl⟩
  · rfl
  · exact escape_digitChar d

theorem escape_instant (t : Instant) {c : Char} (mem : c ∈ t.chars) : escape c = [c] := by
  have year : ∀ y, c ∈ Instant.yearText y → escape c = [c] := by
    intro y mem
    unfold Instant.yearText at mem
    split at mem
    · exact escape_padded mem
    · rcases List.mem_cons.mp mem with rfl | mem
      · split <;> rfl
      · exact escape_padded mem
  have point : ∀ w n, c ∈ '.' :: Decimal.padded w n → escape c = [c] := by
    intro w n mem
    rcases List.mem_cons.mp mem with rfl | mem
    · rfl
    · exact escape_padded mem
  have fraction : ∀ n, c ∈ Instant.fractionText n → escape c = [c] := by
    intro n mem
    unfold Instant.fractionText at mem
    split at mem
    · cases mem
    split at mem
    · exact point 3 _ mem
    split at mem
    · exact point 6 _ mem
    · exact point 9 _ mem
  unfold Instant.chars at mem
  simp only [List.mem_append, List.mem_cons, List.not_mem_nil, or_false] at mem
  rcases mem with ((((((mem | rfl | mem) | rfl | mem) | rfl | mem) | rfl | mem) | rfl | mem) | mem) | rfl
  · exact year _ mem
  all_goals first | rfl | exact escape_padded mem | exact fraction _ mem

theorem asText_eq_quoted {t : String} (bare : ∀ c ∈ t.toList, escape c = [c]) : asText t = quoted t := by
  have same : t.toList.flatMap escape = t.toList := by
    generalize t.toList = cs at bare ⊢
    induction cs with
    | nil => rfl
    | cons c cs ih =>
      rw [List.flatMap_cons, bare c List.mem_cons_self, ih fun d mem => bare d (List.mem_cons_of_mem c mem)]
      rfl
  unfold asText quoted
  rw [same]

/-! ### Reading by shape -/

theorem readText_quoted {α : Type} (wanted : String) (meaning : String → Except String α) {t : String} {x : α}
    (means : meaning t = .ok x) (s : List Char) : readText wanted meaning (quoted t ++ s) = .ok (x, s) := by
  unfold readText
  rw [quoted_append, skipBlank_cons (by decide)]
  dsimp only
  rw [if_pos rfl, stringTail_escapes]
  dsimp only
  rw [means]

theorem readFlag_chars (wanted : String) (b : Bool) (s : List Char) :
    readFlag wanted (chars (.bool b) ++ s) = .ok (b, s) := by
  unfold readFlag
  cases b <;>
  · dsimp only [chars, List.cons_append]
    rw [skipBlank_cons (by decide)]
    rfl

theorem readWhole_ofInt {lo hi : Int} (low : -9223372036854775808 ≤ lo) (high : hi ≤ 18446744073709551615)
    (wanted : String) (n : Bounded lo hi) {s : List Char} (closed : Closes s) :
    readWhole wanted (Decimal.ofInt n.val ++ s) = .ok (n, s) := by
  have above := n.lo_le
  have below := n.le_hi
  obtain ⟨c, r, text, start⟩ := ofInt_starts ⟨n.val, by omega, by omega⟩ closed
  dsimp only at text
  unfold readWhole
  rw [text]
  rcases start with ⟨rfl, number⟩ | ⟨digit, number⟩
  · rw [skipBlank_cons (by decide)]
    dsimp only
    rw [if_pos (.inl rfl), if_pos rfl, number]
    dsimp only
    rw [Bounded.ofInt?_val]
  · rw [skipBlank_digit digit]
    dsimp only
    rw [if_pos (.inr digit), if_neg (Decimal.ne_of_isDigit digit rfl), number]
    dsimp only
    rw [Bounded.ofInt?_val]

def Shape.nullable : Shape → Bool
  | .json => true
  | .optional _ => true
  | _ => false

/-- A value of a shape that the reader gives back when so many lists and objects may nest. -/
def Shape.Restorable : Nat → (s : Shape) → s.Carrier → Prop
  | depth, .json, j => ∃ n < depth, Json.Restorable n j
  | _, .optional _, none => True
  | depth, .optional s, some x => s.nullable = false ∧ Shape.Restorable depth s x
  | depth, .list s, xs => 1 < depth ∧ ∀ x ∈ xs, Shape.Restorable (depth - 1) s x
  | _, _, _ => True

theorem starts_quoted (t : String) : Starts (quoted t) := ⟨'"', _, rfl, by decide⟩

theorem starts_ofInt {lo hi : Int} (low : -9223372036854775808 ≤ lo) (high : hi ≤ 18446744073709551615)
    (n : Bounded lo hi) : Starts (Decimal.ofInt n.val) :=
  have above := n.lo_le
  have below := n.le_hi
  (Restorable.integer 0 ⟨n.val, by omega, by omega⟩).starts

namespace Shape

theorem Restorable.starts {depth : Nat} {s : Shape} {x : s.Carrier} (h : s.Restorable depth x) :
    Starts (s.chars x) := by
  induction s generalizing depth with
  | text => exact starts_quoted x
  | uuid => exact ⟨'"', _, rfl, by decide⟩
  | flag => cases x <;> exact ⟨_, _, rfl, by decide⟩
  | word32 => exact starts_ofInt (by decide) (by decide) x
  | word64 => exact starts_ofInt (by decide) (by decide) x
  | instant => exact ⟨'"', _, rfl, by decide⟩
  | json =>
    obtain ⟨n, _, restorable⟩ := h
    exact restorable.starts
  | optional s ih =>
    cases x with
    | none => exact ⟨'n', _, rfl, by decide⟩
    | some x => exact ih h.2
  | list s _ => exact ⟨'[', _, rfl, by decide⟩

theorem chars_not_null {s : Shape} (solid : s.nullable = false) (x : s.Carrier) (r : List Char) :
    s.chars x ≠ 'n' :: r := by
  intro null
  have digits : ∀ n : Int, Decimal.ofInt n ≠ 'n' :: r := by
    intro n null
    unfold Decimal.ofInt at null
    split at null
    · cases null
    · have mem : 'n' ∈ Nat.toDigits 10 n.natAbs := null ▸ List.mem_cons_self
      have digit := Decimal.isDigit_toDigits 'n' mem
      cases digit
  cases s with
  | text => cases null
  | uuid => cases null
  | flag => cases x <;> cases null
  | word32 => exact digits x.val null
  | word64 => exact digits x.val null
  | instant => cases null
  | json => cases solid
  | optional s => cases solid
  | list s => cases null

end Shape

section Lists

variable {α : Type} {item : List Char → Step α} {text : α → List Char}

theorem closes_later (xs : List α) (s : List Char) : Closes (xs.flatMap (fun x => ',' :: text x) ++ ']' :: s) := by
  cases xs with
  | nil => exact closes_list s
  | cons x xs => exact closes_comma _

theorem readItems_later {xs : List α} (starts : ∀ x ∈ xs, Starts (text x))
    (read : ∀ x ∈ xs, ∀ s, Closes s → item (text x ++ s) = .ok (x, s)) {fuel : Nat}
    (enough : (xs.flatMap fun x => ',' :: text x).length < fuel) (s : List Char) :
    readItems item fuel false (xs.flatMap (fun x => ',' :: text x) ++ ']' :: s) = .ok (xs, s) := by
  induction xs generalizing fuel with
  | nil =>
    obtain ⟨fuel, rfl⟩ := Nat.exists_eq_succ_of_ne_zero (Nat.ne_of_gt (Nat.zero_lt_of_lt enough))
    unfold readItems
    rw [List.flatMap_nil, List.nil_append, nextItem_end]
  | cons x xs ih =>
    obtain ⟨fuel, rfl⟩ := Nat.exists_eq_succ_of_ne_zero (Nat.ne_of_gt (Nat.zero_lt_of_lt enough))
    simp only [List.flatMap_cons, List.length_append, List.length_cons] at enough
    unfold readItems
    simp only [List.flatMap_cons, List.cons_append, List.append_assoc]
    rw [nextItem_comma ((starts x List.mem_cons_self).append _)]
    dsimp only
    rw [read x List.mem_cons_self _ (closes_later xs s)]
    dsimp only
    rw [ih (fun y mem => starts y (List.mem_cons_of_mem x mem)) (fun y mem => read y (List.mem_cons_of_mem x mem))
      (by omega)]
    rfl

theorem readItems_chars {xs : List α} (starts : ∀ x ∈ xs, Starts (text x))
    (read : ∀ x ∈ xs, ∀ s, Closes s → item (text x ++ s) = .ok (x, s)) {fuel : Nat}
    (enough : (commas (xs.map text)).length < fuel) (s : List Char) :
    readItems item fuel true (commas (xs.map text) ++ ']' :: s) = .ok (xs, s) := by
  obtain ⟨fuel, rfl⟩ := Nat.exists_eq_succ_of_ne_zero (Nat.ne_of_gt (Nat.zero_lt_of_lt enough))
  unfold readItems
  cases xs with
  | nil => rw [List.map_nil, commas, List.nil_append, nextItem_end]
  | cons x xs =>
    have start := starts x List.mem_cons_self
    have pos := start.pos
    rw [List.map_cons, commas_cons, List.flatMap_map] at enough ⊢
    rw [List.length_append] at enough
    rw [List.append_assoc, nextItem_first (start.append _)]
    dsimp only
    rw [read x List.mem_cons_self _ (closes_later xs s)]
    dsimp only
    rw [readItems_later (fun y mem => starts y (List.mem_cons_of_mem x mem))
      (fun y mem => read y (List.mem_cons_of_mem x mem)) (by omega)]
    rfl

end Lists

theorem Shape.read_chars {depth : Nat} {s : Shape} {x : s.Carrier} (h : s.Restorable depth x) {r : List Char}
    (closed : Closes r) : s.read depth (s.chars x ++ r) = .ok (x, r) := by
  induction s generalizing depth r with
  | text => exact readText_quoted _ _ rfl r
  | uuid =>
    have plain : asText (Uuid.text x) = quoted (Uuid.text x) := asText_eq_quoted fun c mem => by
      rw [Uuid.text, String.toList_ofList] at mem
      exact escape_uuid x mem
    unfold Shape.read Shape.chars
    rw [plain]
    exact readText_quoted _ _ (by rw [Uuid.ofText?_text]) r
  | flag => exact readFlag_chars _ x r
  | word32 => exact readWhole_ofInt (by decide) (by decide) _ x closed
  | word64 => exact readWhole_ofInt (by decide) (by decide) _ x closed
  | instant =>
    have plain : asText (Instant.text x) = quoted (Instant.text x) := asText_eq_quoted fun c mem => by
      rw [Instant.text, String.toList_ofList] at mem
      exact escape_instant x mem
    have named : Instant.ofText? (Instant.text x) = some x := by
      unfold Instant.ofText? Instant.text
      rw [String.toList_ofList, Instant.ofChars?_chars]
    unfold Shape.read Shape.chars
    rw [plain]
    exact readText_quoted _ _ (by rw [named]) r
  | json =>
    obtain ⟨n, deep, restorable⟩ := h
    refine restorable.readBack deep _ r ?_ closed
    unfold fuelFor
    rw [List.length_append]
    change (Json.chars x).length ≤ 2 * ((Json.chars x).length + r.length) + 2
    omega
  | optional s ih =>
    cases x with
    | none =>
      unfold Shape.read Shape.chars
      dsimp only [Json.chars, List.cons_append]
      rw [skipBlank_cons (by decide)]
      rfl
    | some x =>
      have read := ih h.2 closed
      obtain ⟨c, t, text, ink⟩ := h.2.starts
      -- a text that starts like null would be taken for an empty column
      have solid : c ≠ 'n' := fun null => Shape.chars_not_null h.1 x t (null ▸ text)
      change (Shape.optional s).read depth (s.chars x ++ r) = _
      rw [text] at read ⊢
      unfold Shape.read
      dsimp only [List.cons_append] at read ⊢
      rw [skipBlank_cons (fun blank => ink (List.mem_append_left [']'] blank))]
      dsimp only
      rw [if_neg solid, read]
      rfl
  | list s ih =>
    have text : Shape.chars (.list s) x ++ r = '[' :: (commas (x.map s.chars) ++ ']' :: r) := by
      simp [Shape.chars]
    unfold Shape.read
    rw [text, skipBlank_cons (by decide)]
    dsimp only
    rw [if_pos rfl, if_neg (by have := h.1; omega)]
    refine readItems_chars (fun y mem => (h.2 y mem).starts) (fun y mem t closes => ih (h.2 y mem) closes) ?_ r
    rw [List.length_append]
    omega

end Json
end Courier
