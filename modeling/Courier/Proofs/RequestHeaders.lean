import Courier.Request
import Mathlib.Data.List.Basic
set_option autoImplicit false

namespace Courier

namespace Headers

theorem lookup_cons_ite {α : Type} (k : String) (w : α) (r : List (String × α)) (m : String) :
    ((k, w) :: r).lookup m = if m = k then some w else r.lookup m := by
  rw [List.lookup_cons]
  by_cases same : m = k
  · rw [if_pos same, beq_iff_eq.mpr same]
  · rw [if_neg same, beq_false_of_ne same]

theorem lookup_putMember {α : Type} (name : String) (v : α) (ms : List (String × α)) (m : String) :
    (Json.putMember name v ms).lookup m = if m = name then some v else ms.lookup m := by
  induction ms with
  | nil => exact lookup_cons_ite name v [] m
  | cons x r ih =>
    obtain ⟨k, w⟩ := x
    unfold Json.putMember
    split
    · exact lookup_cons_ite name v _ m
    · split
      · rename_i same
        rw [lookup_cons_ite, lookup_cons_ite, same]
        split <;> rfl
      · rename_i other
        rw [lookup_cons_ite, lookup_cons_ite, ih]
        by_cases here : m = k
        · have unnamed : m ≠ name := fun named => other (named.symm.trans here)
          rw [if_pos here, if_neg unnamed, if_pos here]
        · rw [if_neg here, if_neg here]

theorem get?_set (h : Headers) (name value m : String) :
    (h.set name value).get? m = if m = name then some value else h.get? m :=
  lookup_putMember name value h m

end Headers

theorem Text.mem_hexEncode {bs : List UInt8} {c : Char} (h : c ∈ hexEncode bs) : ∃ n : Fin 16, c = hexDigit n.val := by
  obtain ⟨b, -, hb⟩ := List.mem_flatMap.mp h
  have small : b.toNat < 256 := b.toNat_lt
  rcases List.mem_cons.mp hb with rfl | hb
  · exact ⟨⟨b.toNat / 16, by omega⟩, rfl⟩
  · exact ⟨⟨b.toNat % 16, by omega⟩, List.mem_singleton.mp hb⟩

namespace Header

theorem valueOr_ofList {cs : List Char} (value : ∀ c ∈ cs, isValueChar c = true) :
    valueOr (String.ofList cs) = String.ofList cs := by
  have whole : isValue (String.ofList cs) = true := by
    rw [isValue, String.toList_ofList]
    exact List.all_eq_true.mpr value
  rw [valueOr, if_pos whole]

theorem isValueChar_hexDigit : ∀ n : Fin 16, isValueChar (Text.hexDigit n.val) = true := by decide

theorem valueOr_sign (secret : String) (payload : List UInt8) :
    valueOr (Signature.sign secret payload) = Signature.sign secret payload := by
  refine valueOr_ofList fun c hc => ?_
  obtain ⟨n, rfl⟩ := Text.mem_hexEncode hc
  exact isValueChar_hexDigit n

theorem valueOr_ofInt (n : Int) : valueOr (String.ofList (Decimal.ofInt n)) = String.ofList (Decimal.ofInt n) := by
  have digits : ∀ c ∈ Nat.toDigits 10 n.natAbs, isValueChar c = true := by
    intro c hc
    have digit := Nat.isDigit_of_mem_toDigits (by decide) (by decide) hc
    simp only [Char.isDigit, Bool.and_eq_true, decide_eq_true_eq, ge_iff_le, UInt32.le_iff_toNat_le] at digit
    have lower : 48 ≤ c.val.toNat := digit.1
    have upper : c.val.toNat ≤ 57 := digit.2
    have unlike : c.val.toNat ≠ 127 := by omega
    have printed : 32 ≤ c.val.toNat := by omega
    simp only [isValueChar, Bool.or_eq_true, Bool.and_eq_true, decide_eq_true_eq, bne_iff_ne]
    exact .inr ⟨printed, unlike⟩
  refine valueOr_ofList fun c hc => ?_
  unfold Decimal.ofInt at hc
  split at hc
  · rcases List.mem_cons.mp hc with rfl | hc
    · decide
    · exact digits c hc
  · exact digits c hc

end Header

namespace Sender

def laterHeaders : List String := [eventHeader, deliveryHeader, attemptHeader]

variable {s : Sender} {d : Delivery} {w : Webhook} {h : Headers}

theorem headers_ok (ok : s.headers d w = .ok h) : ∃ n : Word32, n.val = d.attempts.val + 1 ∧
    h = (s.reservedHeaders d w n).foldl (fun h e => h.set e.1 e.2) (ownHeaders w) := by
  unfold headers at ok
  split at ok
  · cases ok
  · rename_i n hn
    cases ok
    exact ⟨n, Bounded.val_of_ofInt? hn, rfl⟩

/-- The number of the attempt is set last. -/
theorem attempt_sent (ok : s.headers d w = .ok h) :
    h.get? attemptHeader = some (String.ofList (Decimal.ofInt (d.attempts.val + 1))) := by
  obtain ⟨n, hn, rfl⟩ := headers_ok ok
  rw [reservedHeaders]
  simp only [List.foldl_cons, List.foldl_nil, Headers.get?_set, if_true]
  rw [hn, Header.valueOr_ofInt]

theorem signature_sent (ok : s.headers d w = .ok h)
    (apart : s.signatureHeader ∉ laterHeaders) :
    h.get? s.signatureHeader = some (Signature.sign w.secret (Text.bytes d.payload)) := by
  obtain ⟨n, -, rfl⟩ := headers_ok ok
  simp only [laterHeaders, List.mem_cons, List.not_mem_nil, or_false, not_or] at apart
  rw [reservedHeaders]
  simp only [List.foldl_cons, List.foldl_nil, Headers.get?_set, apart, if_true, if_false, Header.valueOr_sign]

theorem headers_total (s : Sender) {d : Delivery} (w : Webhook) (below : d.attempts.val < 2147483647) :
    ∃ h, s.headers d w = .ok h := by
  unfold headers
  cases next : d.attempts.add? 1 with
  | none =>
    have lower := d.attempts.lo_le
    have out := Bounded.ofInt?_eq_none_iff.mp next
    omega
  | some n => exact ⟨_, rfl⟩

theorem request_ok {r : Request} (ok : s.request d w = .ok (.ok r)) :
    s.headers d w = .ok r.headers ∧ r.body = d.payload := by
  unfold request at ok
  split at ok
  · cases ok
  · rename_i h hh
    split at ok
    · cases ok
    · dsimp only at ok
      split at ok
      · cases ok
        exact ⟨hh, rfl⟩
      · cases ok

end Sender

end Courier
