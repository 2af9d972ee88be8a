import Courier.Bus
import Courier.Dispatch
import Courier.Retention
import Courier.Scan
set_option autoImplicit false

/-!
# What a rehearsal is made of

A rehearsal plays a service over one store with a clock that is set by hand and a receiver whose replies are scripted.
Records are called by names, which are given to them as they come about, or by their identifiers. Most steps are done at
once; the receiver may do such steps too, just before it answers. The others let time pass.
-/

namespace Courier.Rehearsal

inductive ChangeForm where
  | claim (claimer : String) (till : Instant)
  | release
  | manualRetry (now : Instant)
  | afterAttempt (attemptsBefore : Word32) (outcome : Outcome) (policy : RetryPolicy) (now : Instant)
  | deadWithoutAttempt (reason : String)
  | columns (change : Change) (claimedBy : Option (Option String))
  deriving Repr

inductive ChangeForm.Fault where
  | unknownName
  | outOfRange
  deriving DecidableEq, Repr

def ChangeForm.resolve (find : String → Option Uuid) : ChangeForm → Except ChangeForm.Fault Change
  | .claim claimer till =>
    match find claimer with
    | some u => .ok (.claim u till)
    | none => .error .unknownName
  | .release => .ok .release
  | .manualRetry now => .ok (.manualRetry now)
  | .afterAttempt before outcome policy now =>
    (Change.afterAttempt before outcome policy now).mapError fun _ => .outOfRange
  | .deadWithoutAttempt reason => .ok (.deadWithoutAttempt reason)
  | .columns c none => .ok c
  | .columns c (some none) => .ok { c with claimedBy := some none }
  | .columns c (some (some name)) =>
    match find name with
    | some u => .ok { c with claimedBy := some (some u) }
    | none => .error .unknownName

structure WebhookForm where
  name : String
  url : String
  secret : String
  events : List String
  headers : List (String × String)
  active : Bool
  deriving Repr

/-- An order whose webhook is still a name. A raw one is not checked. -/
structure OrderForm where
  webhook : String
  event : String
  payload : String
  dueAt : Option Instant
  /-- The status of a raw order. -/
  raw : Option String
  deriving Repr

mutual

/-- A step that is done at once. A time that is left out is that of the clock. -/
inductive Action where
  | clock (time : Instant)
  | advance (ms : Int)
  | wall (time : Instant)
  | offline (value : Bool)
  | hideWebhook (id : String)
  | createWebhook (form : WebhookForm)
  | createRaw (registration : Registration)
  | getWebhook (id : String)
  | listWebhooks
  | updateWebhook (id : String) (amendment : Amendment)
  | setActive (id : String) (active : Bool)
  | deleteWebhook (id : String)
  | matching (event : String)
  | dispatch (event : String) (data : Json)
  | dispatchEvent (event : Event)
  | dispatchUnserializable (event : String)
  | noWakeup
  | wakeupPending
  | createDeliveries (items : List OrderForm)
  | getDelivery (id : String)
  | listDeliveries (webhook : String) (status : Option String) (limit offset : Int)
  | stats (webhook : String)
  | claim (claimer : String) (limit leaseMs : Int) (now : Option Instant)
  | renew (id claimer : String) (till : Instant)
  | release (id claimer : String)
  | complete (id claimer : String) (change : ChangeForm)
  | releaseExpired (now : Option Instant)
  | retry (id : String) (now : Option Instant)
  | cleanupOld (cutoff : Instant)
  | script (fallback : Option Reply) (replies : List (String × List Reply))
  | calls
  | shutdown (value : Bool)
  | emit (event : Event)
  | dump

/-- What the receiver answers: after a delay and some actions an outcome, or it breaks down. -/
inductive Reply where
  | mk (outcome : Outcome) (delayMs : Nat) (follow : List Action) (breaksDown : Bool)

end

inductive Step where
  | act (action : Action)
  | scheduler (name : String) (config : SchedulerConfig)
  | run (name : String)
  | race (first second : String)
  | start (name : String) (wire : Bool)
  | wake (name : String)
  | stop (name : String) (graceMs : Nat)
  | sleep (ms : Nat)
  | bus (capacity : Option Nat)
  | emitAsync (event : Event)
  | busClose
  | busAbort
  | retentionRun (days : Word64)
  | retentionStart (days : Word64) (intervalSeconds : Nat)
  | retentionStop

structure Call where
  delivery : Uuid
  webhook : Uuid
  attempts : Word32
  payload : String
  deriving DecidableEq, Repr

inductive Answer where
  | ok
  | flag (b : Bool)
  | count (n : Nat)
  | instant (t : Instant)
  | webhook (w : Option Webhook)
  | webhooks (ws : List Webhook)
  | ids (ids : List Uuid)
  | delivery (d : Option Delivery)
  | deliveries (ds : List Delivery)
  | listing (ds : List Delivery)
  | tally (t : Tally)
  | report (r : Report)
  | reports (rs : List Report)
  | released (n : Nat)
  | calls (calls : List Call) (peak : Nat)
  | dump (entries : List (Webhook × List Delivery))
  | invalid (reason : String)
  | storeError (e : Store.Error)
  | dispatchError (e : Dispatch.Error)
  /-- A call to the store ended in the middle, and the task that waited for it went on. -/
  | taskError
  | sendError (type : String)
  /-- A sum left its range, or the receiver broke down, and the step ended in the middle. -/
  | aborted
  | unknown
  deriving Repr

end Courier.Rehearsal
