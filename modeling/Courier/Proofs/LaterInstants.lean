import Courier.RetryPolicy
import Courier.Time.Instant
import Mathlib.Data.Int.Init
import Mathlib.Tactic.SplitIfs
set_option autoImplicit false

namespace Courier

namespace Instant

/-- The fraction of the second, that of a leap second counted anew. -/
def fraction (t : Instant) : Int := if 1000000000 ≤ t.nanos then (t.nanos : Int) - 1000000000 else t.nanos

/-- A leap second lasts while the sum of fractions stays below two seconds; else the fraction carries over. -/
theorem shift_forward (t : Instant) {d : Int} (forward : 0 ≤ d) :
    shift t.secs t.nanos d =
      if 1000000000 ≤ t.nanos ∧ t.nanos + d < 2000000000 then (t.secs, t.nanos + d)
      else (t.secs + (t.fraction + d) / 1000000000, (t.fraction + d) % 1000000000) := by
  have bound := t.nanos_lt
  simp only [shift, shift.carry, fraction, Int.tdiv_eq_ediv_of_nonneg forward, Int.tmod_eq_emod_of_nonneg forward]
  split_ifs
  all_goals refine Prod.ext ?_ ?_ <;> dsimp only <;> omega

theorem add?_forward (t : Instant) {d : Span} (forward : 0 ≤ d.val) :
    t.add? d =
      if 1000000000 ≤ t.nanos ∧ t.nanos + d.val < 2000000000 then ofParts? t.secs (t.nanos + d.val).toNat
      else ofParts? (t.secs + (t.fraction + d.val) / 1000000000) ((t.fraction + d.val) % 1000000000).toNat := by
  unfold add?
  rw [shift_forward t forward]
  split_ifs <;> rfl

theorem ofParts?_eq_some {secs : Int} {nanos : Nat} {t : Instant} (h : ofParts? secs nanos = some t) :
    t.secs = secs ∧ t.nanos = nanos := by
  unfold ofParts? at h
  split at h
  · cases h
    exact ⟨rfl, rfl⟩
  · cases h

/-- Either a later second is reached, or the whole time is added to the fraction. -/
theorem advance_of_add? {t u : Instant} {d : Span} (forward : 0 ≤ d.val) (h : t.add? d = some u) :
    t.secs < u.secs ∨ t.secs = u.secs ∧ (u.nanos : Int) = t.nanos + d.val := by
  have bound := t.nanos_lt
  rw [add?_forward t forward] at h
  split_ifs at h
  · obtain ⟨secs, nanos⟩ := ofParts?_eq_some h
    omega
  · obtain ⟨secs, nanos⟩ := ofParts?_eq_some h
    rw [fraction] at secs nanos
    split_ifs at secs nanos
    all_goals omega

theorem lt_of_add? {t u : Instant} {d : Span} (pos : 0 < d.val) (h : t.add? d = some u) : t < u := by
  have advance := advance_of_add? (Int.le_of_lt pos) h
  rw [lt_def]
  omega

theorem le_of_add? {t u : Instant} {d : Span} (forward : 0 ≤ d.val) (h : t.add? d = some u) : t ≤ u := by
  have advance := advance_of_add? forward h
  rw [le_def]
  omega

end Instant

namespace Duration

theorem ofNanos?_eq_some_iff {n : Nat} {d : Duration} : ofNanos? n = some d ↔ d.nanos = n := by
  have bound := d.lt_bound
  unfold ofNanos?
  split
  · rw [Option.some.injEq]
    exact ⟨fun same => same ▸ rfl, fun same => ext_nanos same.symm⟩
  · rename_i long
    refine ⟨fun found => (by cases found), fun same => ?_⟩
    omega

theorem ofNanos?_eq_none_iff {n : Nat} : ofNanos? n = none ↔ 18446744073709551616 * 1000000000 ≤ n := by
  unfold ofNanos?
  split <;> simp <;> omega

theorem nanos_of_mul? {a b : Duration} {n : Nat} (h : a.mul? n = some b) : b.nanos = a.nanos * n :=
  ofNanos?_eq_some_iff.mp h

end Duration

theorem RetryPolicy.nextDelay_pos {p : RetryPolicy} (soonest : 0 < p.initialBackoff.nanos)
    (latest : 0 < p.maxBackoff.nanos) (attempt : Word32) : 0 < (p.nextDelay attempt).nanos := by
  unfold nextDelay
  dsimp only
  split
  · split
    · rename_i delay product
      have factor : 0 < Nat.pow 2 (doublings attempt) := Nat.two_pow_pos _
      have grown : 0 < delay.nanos := by
        rw [Duration.nanos_of_mul? product]
        exact Nat.mul_pos soonest factor
      rw [Duration.nanos_min]
      exact Nat.lt_min.mpr ⟨grown, latest⟩
    · exact latest
  · exact latest

theorem Span.ofDuration_pos {d : Duration} (pos : 0 < d.nanos) : 0 < ((Span.ofDuration? d).getD Span.day).val := by
  unfold Span.ofDuration? Span.ofNanos?
  split
  · exact Int.natCast_pos.mpr pos
  · decide

end Courier
