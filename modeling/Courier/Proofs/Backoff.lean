import Courier.Proofs.LaterInstants
import Mathlib.Algebra.Group.Nat.Defs
set_option autoImplicit false

namespace Courier.RetryPolicy

def doubled (p : RetryPolicy) (attempt : Word32) : Nat := p.initialBackoff.nanos * 2 ^ (max attempt.val 1 - 1).toNat

def scheduled (p : RetryPolicy) (attempt : Word32) : Nat := min (p.doubled attempt) p.maxBackoff.nanos

variable {p : RetryPolicy} {n : Word32}

theorem doubled_eq (p : RetryPolicy) (n : Word32) : p.doubled n = p.initialBackoff.nanos * Nat.pow 2 (doublings n) := by
  have exponent : (max n.val 1 - 1).toNat = doublings n := by
    unfold doublings
    omega
  rw [doubled, exponent]
  rfl

theorem nextDelay_nanos (p : RetryPolicy) (n : Word32) :
    (p.nextDelay n).nanos = if n.val ≤ 32 then p.scheduled n else p.maxBackoff.nanos := by
  have few : doublings n < 32 ↔ n.val ≤ 32 := by
    unfold doublings
    omega
  unfold nextDelay scheduled
  simp only [few]
  split_ifs with early
  · rw [doubled_eq]
    split
    · rename_i delay product
      rw [Duration.nanos_min, Duration.nanos_of_mul? product]
    · rename_i product
      -- what has no product is longer than every delay
      have long := Duration.ofNanos?_eq_none_iff.mp product
      have bound := p.maxBackoff.lt_bound
      exact (Nat.min_eq_right (by omega)).symm
  · rfl

theorem doubled_late (late : 32 < n.val) : p.initialBackoff.nanos * 4294967296 ≤ p.doubled n := by
  refine Nat.mul_le_mul_left _ ?_
  calc 4294967296 = 2 ^ 32 := rfl
    _ ≤ 2 ^ (max n.val 1 - 1).toNat := Nat.pow_le_pow_right (by decide) (by omega)

theorem nextDelay_eq_iff : (p.nextDelay n).nanos = p.scheduled n ↔ n.val ≤ 32 ∨ p.maxBackoff.nanos ≤ p.doubled n := by
  rw [nextDelay_nanos]
  split_ifs with early
  · simp only [early, true_or]
  · rw [scheduled]
    omega

theorem scheduled_le_nextDelay (p : RetryPolicy) (n : Word32) : p.scheduled n ≤ (p.nextDelay n).nanos := by
  rw [nextDelay_nanos]
  split_ifs
  · exact Nat.le_refl _
  · exact Nat.min_le_right _ _

/-- Up to the 32nd attempt the delay is that of the rule, and from then on it is the longest. It never falls short of the
rule, and agrees with it exactly if the attempt is an early one or the doubled delay has reached the longest. A policy
keeps to the rule at all attempts exactly if 32 doublings reach its longest delay. -/
theorem nextDelay_keeps_rule (p : RetryPolicy) :
    (∀ n, (p.nextDelay n).nanos = if n.val ≤ 32 then p.scheduled n else p.maxBackoff.nanos) ∧
      (∀ n, p.scheduled n ≤ (p.nextDelay n).nanos) ∧
      (∀ n, (p.nextDelay n).nanos = p.scheduled n ↔ n.val ≤ 32 ∨ p.maxBackoff.nanos ≤ p.doubled n) ∧
      ((∀ n, (p.nextDelay n).nanos = p.scheduled n) ↔
        p.maxBackoff.nanos ≤ p.initialBackoff.nanos * 4294967296) := by
  refine ⟨p.nextDelay_nanos, p.scheduled_le_nextDelay, fun n => nextDelay_eq_iff, fun all => ?_, fun reached n => ?_⟩
  · obtain early | long := nextDelay_eq_iff.mp (all (.ofNat 33))
    · exact absurd early (by decide)
    · exact long
  · rw [nextDelay_eq_iff]
    by_cases early : n.val ≤ 32
    · exact .inl early
    · exact .inr (Nat.le_trans reached (doubled_late (by omega)))

namespace Sample

def eager : RetryPolicy := { standard with maxAttempts := .ofNat 50, initialBackoff := ⟨0, by decide⟩ }

def brisk : RetryPolicy := { eager with initialBackoff := ⟨1, by decide⟩ }

end Sample

open Sample in
/-- By the rule the 33rd delay is still none, or some seconds; it is a day. -/
theorem nextDelay_leaps :
    (eager.scheduled (.ofNat 33) = 0 ∧ eager.nextDelay (.ofNat 33) = .ofSeconds 86400) ∧
      brisk.scheduled (.ofNat 33) = 4294967296 ∧ brisk.nextDelay (.ofNat 33) = .ofSeconds 86400 := by
  decide +kernel

end Courier.RetryPolicy
