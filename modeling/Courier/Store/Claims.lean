import Courier.Store.Basic
set_option autoImplicit false

/-!
# Claims

A scheduler that wants to send a delivery claims it until the end of a lease. All that it writes later is written only
while it still holds the claim, so that two schedulers never write over each other.
-/

namespace Courier.Store

/-- Whether one delivery is to be claimed before another: due at any time first, then by due time, then by age. -/
def dueBefore (a b : Delivery) : Bool :=
  match a.nextRetryAt, b.nextRetryAt with
  | none, none => a.createdAt ≤ b.createdAt
  | none, some _ => true
  | some _, none => false
  | some x, some y => if x = y then a.createdAt ≤ b.createdAt else x ≤ y

/-- The deliveries that can be claimed, with their places, in the order in which they are claimed. -/
def due (s : Store) (now : Instant) : List (Delivery × Nat) :=
  (s.deliveries.zipIdx.filter fun x => x.1.isClaimable now).mergeSort fun a b => dueBefore a.1 b.1

def claimDue (s : Store) (now : Instant) (limit : Int) (claimer : Uuid) (lease : Span) :
    Except Error (List Delivery × Store) :=
  s.whenOnline <|
    match now.add? lease with
    | none => .error .outOfRange
    | some till =>
      let taken := (s.due now).take limit.toNat
      let places := taken.map (·.2)
      let mark (d : Delivery) : Delivery := d.apply (.claim claimer till)
      .ok (taken.map fun x => mark x.1,
        { s with deliveries := s.deliveries.zipIdx.map fun x => if x.2 ∈ places then mark x.1 else x.1 })

def isHeld (id claimer : Uuid) (d : Delivery) : Bool := d.id = id && d.claimedBy = some claimer

def renewClaim (s : Store) (id claimer : Uuid) (till : Instant) : Except Error (Bool × Store) :=
  s.whenOnline <|
    match changeFirst (isHeld id claimer) (·.apply (.claim claimer till)) s.deliveries with
    | some (_, deliveries) => .ok (true, { s with deliveries })
    | none => .ok (false, s)

/-- Writes what an attempt led to if the claim is still held. -/
def completeAttempt (s : Store) (id claimer : Uuid) (change : Change) : Except Error (Option Delivery × Store) :=
  s.whenOnline <|
    match changeFirst (fun d => isHeld id claimer d && d.status = .pending) (·.apply change) s.deliveries with
    | some (d, deliveries) => .ok (some d, { s with deliveries })
    | none => .ok (none, s)

def releaseClaim (s : Store) (id claimer : Uuid) : Except Error (Bool × Store) :=
  s.whenOnline <|
    match changeFirst (isHeld id claimer) (·.apply .release) s.deliveries with
    | some (_, deliveries) => .ok (true, { s with deliveries })
    | none => .ok (false, s)

def hasExpired (now : Instant) (d : Delivery) : Bool := d.claimedUntil.any (· < now)

def releaseExpired (s : Store) (now : Instant) : Except Error (Nat × Store) :=
  s.whenOnline <|
    .ok (s.deliveries.countP (hasExpired now),
      { s with deliveries := s.deliveries.map fun d => if hasExpired now d then d.apply .release else d })

end Courier.Store
