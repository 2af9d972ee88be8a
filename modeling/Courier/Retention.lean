import Courier.Attempt
import Courier.Store.Deliveries
set_option autoImplicit false

namespace Courier

structure Retention where
  intervalSeconds : Nat
  days : Word64
  deriving DecidableEq, Repr

namespace Retention

/-- The retention of settings, at least a second between two cleanups. -/
def ofSettings? (intervalSeconds : Nat) (days : Option Word64) : Option Retention :=
  days.map fun days => ⟨max intervalSeconds 1, days⟩

def cutoff? (now : Instant) (days : Word64) : Option Instant := (Span.ofDays? days.val).bind now.sub?

def run (s : Store) (now : Instant) (days : Word64) : Except OutOfRange (Except Store.Error (Nat × Store)) :=
  if days.val < 0 then .ok (.error .negativeRetention)
  else match cutoff? now days with
    | none => .error ⟨⟩
    | some cutoff => .ok (s.cleanupOld cutoff)

end Retention

end Courier
