import Courier.Bounded
import Courier.Duration
set_option autoImplicit false

namespace Courier

structure RetryPolicy where
  maxAttempts : Word32
  initialBackoff : Duration
  maxBackoff : Duration
  deriving DecidableEq, Repr

namespace RetryPolicy

def standard : RetryPolicy := ⟨.ofNat 5, .ofSeconds 60, .ofSeconds 86400⟩

/-- By how many doublings the delay after an attempt exceeds the first delay; attempts below one count as the first. -/
def doublings (attempt : Word32) : Nat := (attempt.val - 1).toNat

/-- The delay after a failed attempt. A factor of 2 ^ 32 or more and a product out of range count as too long. -/
def nextDelay (p : RetryPolicy) (attempt : Word32) : Duration :=
  let n := doublings attempt
  if n < 32 then
    match p.initialBackoff.mul? (Nat.pow 2 n) with
    | some d => Duration.min d p.maxBackoff
    | none => p.maxBackoff
  else p.maxBackoff

def allowsRetryAfter (p : RetryPolicy) (attempts : Word32) : Bool := attempts.val < p.maxAttempts.val

end RetryPolicy

end Courier
