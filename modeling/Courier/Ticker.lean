set_option autoImplicit false

/-!
# Tickers

A ticker is due at once and then every period. Time is counted in nanoseconds, but clocks wake sleepers only on whole
milliseconds. A tick that is taken more than five milliseconds late either pushes the following ones back or leaves them
where they were.
-/

namespace Courier

def nanosPerMilli : Nat := 1000000

/-- The first whole millisecond that is not before a time. -/
def roundUp (t : Nat) : Nat := (t + (nanosPerMilli - 1)) / nanosPerMilli * nanosPerMilli

structure Ticker where
  next : Nat
  period : Nat
  delays : Bool
  deriving DecidableEq, Repr

namespace Ticker

def isDue (t : Ticker) (now : Nat) : Bool := roundUp t.next ≤ now

def tick (t : Ticker) (now : Nat) : Ticker :=
  let base := if t.delays ∧ t.next + 5 * nanosPerMilli < now then now else t.next
  { t with next := base + t.period }

end Ticker

end Courier
