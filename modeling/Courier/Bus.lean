import Courier.Event
set_option autoImplicit false

/-!
# The event bus

Producers hand events to a queue of bounded length and go on; one task takes them out in order and dispatches them. An
event that finds the queue full, or no task behind it, is dropped.
-/

namespace Courier

structure Bus where
  capacity : Nat
  queue : List Event
  isOpen : Bool
  deriving Repr

namespace Bus

def defaultCapacity : Nat := 1000

/-- A new bus; its queue has at least one place. -/
def spawn (capacity : Nat) : Bus := ⟨max capacity 1, [], true⟩

def hasRoom (b : Bus) : Bool := b.isOpen && b.queue.length < b.capacity

/-- Takes an event in if there is room, else drops it. -/
def emit (b : Bus) (e : Event) : Bus := if b.hasRoom then { b with queue := b.queue ++ [e] } else b

def receive (b : Bus) : Option (Event × Bus) :=
  match b.queue with
  | [] => none
  | e :: r => some (e, { b with queue := r })

def abort (b : Bus) : Bus := { b with queue := [], isOpen := false }

end Bus

end Courier
