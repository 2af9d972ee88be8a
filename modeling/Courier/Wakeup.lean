set_option autoImplicit false

/-!
# Wakeups

A loop that waits for work can be woken. A call that comes while nobody waits is kept as a permit, of which there is at
most one, and ends the next wait at once. A call that reached a wait that was given up is not lost either.
-/

namespace Courier

inductive Wakeup.Waiter where
  | none
  | waiting
  | notified
  deriving DecidableEq, Repr

structure Wakeup where
  permit : Bool := false
  waiter : Wakeup.Waiter := .none
  deriving DecidableEq, Repr

namespace Wakeup

def notify (w : Wakeup) : Wakeup :=
  if w.waiter = .waiting then { w with waiter := .notified } else { w with permit := true }

def take (w : Wakeup) : Bool × Wakeup := (w.permit, { w with permit := false })

/-- Looks after a wait: whether it ends now, by a call that reached it or by a permit. -/
def poll (w : Wakeup) : Bool × Wakeup :=
  if w.waiter = .notified then (true, { w with waiter := .none })
  else if w.permit then (true, ⟨false, .none⟩)
  else (false, { w with waiter := .waiting })

/-- Gives up a wait. A call that had reached it becomes a permit. -/
def cancel (w : Wakeup) : Wakeup :=
  if w.waiter = .notified then ⟨true, .none⟩ else { w with waiter := .none }

end Wakeup

end Courier
