import Courier.Attempt
import Courier.Scheduler
import Courier.Store.Claims
import Courier.Store.Deliveries
set_option autoImplicit false

/-!
# Workers

A worker brings one claimed delivery to its end: it renews the claim, looks the webhook up, has the request sent, and
writes down what came of it. Between any two of its calls to the store others may call the store too.
-/

namespace Courier

namespace Worker

inductive Result where
  | delivered
  | retrying
  | dead
  /-- Handed back unprocessed, or the claim was lost. -/
  | released
  | failed
  deriving DecidableEq, Repr

inductive Stage where
  | waiting
  /-- The claim is renewed; the webhook is looked up next. -/
  | renewed
  | sending (webhook : Webhook)
  | reporting (change : Change)
  | done (result : Result)
  deriving Repr

def claimEnd? (c : SchedulerConfig) (now : Instant) : Option Instant := now.add? c.lease

/-- The first call: hands the delivery back when the scheduler is stopping, else renews the claim. -/
def start (sch : Scheduler) (d : Delivery) (stopping : Bool) (now : Instant) (s : Store) :
    Except OutOfRange (Stage × Store) :=
  if stopping then
    match s.releaseClaim d.id sch.id with
    | .ok (_, s) => .ok (.done .released, s)
    | .error _ => .ok (.done .failed, s)
  else match claimEnd? sch.config now with
    | none => .error ⟨⟩
    | some till =>
      match s.renewClaim d.id sch.id till with
      | .ok (true, s) => .ok (.renewed, s)
      | .ok (false, s) => .ok (.done .released, s)
      | .error _ => .ok (.done .failed, s)

def judge (sch : Scheduler) (d : Delivery) : Option Webhook → Stage
  | none => .reporting (.deadWithoutAttempt "webhook no longer exists")
  | some w =>
    if w.active = false then .reporting (.deadWithoutAttempt "webhook is inactive")
    else if sch.config.policy.maxAttempts.val ≤ d.attempts.val then
      .reporting (.deadWithoutAttempt "attempt limit reached")
    else .sending w

def look (sch : Scheduler) (d : Delivery) (found : Except Store.Error (Option Webhook)) : Stage :=
  match found with
  | .ok w => judge sch d w
  | .error _ => .done .failed

def answer (sch : Scheduler) (d : Delivery) (outcome : Outcome) (now : Instant) : Except OutOfRange Stage :=
  (Change.afterAttempt d.attempts outcome sch.config.policy now).map .reporting

def resultOf (d : Delivery) : Result :=
  match d.status with
  | .dead => .dead
  | .delivered => .delivered
  | _ => .retrying

/-- The last call: writes the change if the claim still holds. -/
def report (sch : Scheduler) (d : Delivery) (change : Change) (s : Store) : Stage × Store :=
  match s.completeAttempt d.id sch.id change with
  | .ok (some d, s) => (.done (resultOf d), s)
  | .ok (none, s) => (.done .released, s)
  | .error _ => (.done .failed, s)

end Worker

structure Worker where
  delivery : Delivery
  stage : Worker.Stage
  deriving Repr

end Courier
