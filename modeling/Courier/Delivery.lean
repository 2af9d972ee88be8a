import Courier.Json.Schema
import Courier.Text.Blank
set_option autoImplicit false

/-!
# Deliveries

A delivery is one event on its way to one webhook. It is pending until it is delivered or dead; a claim by a scheduler
does not change its status. An order is a delivery that is not stored yet, and a change gives new values to some columns
of a delivery. A tally counts deliveries by status.
-/

namespace Courier

/-- How far a delivery is. Statuses that are none of the three may be stored, but nothing is ever done about them. -/
inductive Status where
  | pending
  | delivered
  | dead
  | other (text : String) (unlisted : text ∉ ["pending", "delivered", "dead"])
  deriving DecidableEq, Repr

namespace Status

def text : Status → String
  | .pending => "pending"
  | .delivered => "delivered"
  | .dead => "dead"
  | .other t _ => t

def ofText (t : String) : Status :=
  if h : t ∈ ["pending", "delivered", "dead"] then
    if t = "pending" then .pending else if t = "delivered" then .delivered else .dead
  else .other t h

def listed : List Status := [.pending, .delivered, .dead]

theorem ofText_text (s : Status) : ofText s.text = s := by
  cases s with
  | pending => rfl
  | delivered => rfl
  | dead => rfl
  | other t h =>
    change ofText t = _
    unfold ofText
    rw [dif_neg h]

end Status

structure Delivery where
  id : Uuid
  webhookId : Uuid
  event : String
  /-- The envelope, the same bytes on every attempt. -/
  payload : String
  status : Status
  /-- How many attempts have been made since it was created or last retried by hand. -/
  attempts : Word32
  nextRetryAt : Option Instant
  /-- The scheduler that holds the delivery, and until when. -/
  claimedBy : Option Uuid
  claimedUntil : Option Instant
  responseCode : Option Word32
  responseBody : Option String
  errorMessage : Option String
  lastAttemptAt : Option Instant
  deliveredAt : Option Instant
  createdAt : Instant
  deriving DecidableEq, Repr

structure Order where
  webhookId : Uuid
  event : String
  payload : String
  status : Status
  nextRetryAt : Option Instant
  deriving DecidableEq, Repr

namespace Order

inductive Fault where
  | nilWebhook
  | blankEvent
  deriving DecidableEq, Repr

def Fault.message : Fault → String
  | .nilWebhook => "Webhook ID cannot be nil"
  | .blankEvent => "Event type cannot be empty"

def make (webhookId : Uuid) (event payload : String) (dueAt : Instant) : Except Fault Order :=
  if webhookId.isNil then .error .nilWebhook
  else if Text.isBlank event then .error .blankEvent
  else .ok { webhookId, event, payload, status := .pending, nextRetryAt := some dueAt }

def toDelivery (o : Order) (id : Uuid) (createdAt : Instant) : Delivery :=
  { id, webhookId := o.webhookId, event := o.event, payload := o.payload, status := o.status, attempts := .ofNat 0
    nextRetryAt := o.nextRetryAt, claimedBy := none, claimedUntil := none, responseCode := none, responseBody := none
    errorMessage := none, lastAttemptAt := none, deliveredAt := none, createdAt }

/-- The whole record; its status is read as any text. -/
def schema : Json.Schema Order where
  name := "NewWebhookDelivery"
  fields := [⟨"webhook_id", .uuid, true, none⟩, ⟨"event", .text, true, none⟩, ⟨"payload", .text, true, none⟩,
    ⟨"status", .text, true, none⟩, ⟨"next_retry_at", .optional .instant, true, none⟩]
  ofRow row := ⟨row.1, row.2.1, row.2.2.1, .ofText row.2.2.2.1, row.2.2.2.2.1⟩
  toRow o := (o.webhookId, o.event, o.payload, o.status.text, o.nextRetryAt, ())

end Order

/-- New values for some columns of a delivery. On columns that may be empty the inner value says what is written. -/
structure Change where
  status : Option Status := none
  attempts : Option Word32 := none
  nextRetryAt : Option (Option Instant) := none
  claimedBy : Option (Option Uuid) := none
  claimedUntil : Option (Option Instant) := none
  responseCode : Option (Option Word32) := none
  responseBody : Option (Option String) := none
  errorMessage : Option (Option String) := none
  lastAttemptAt : Option (Option Instant) := none
  deliveredAt : Option (Option Instant) := none
  deriving DecidableEq, Repr

namespace Change

def release : Change := { claimedBy := some none, claimedUntil := some none }

def claim (claimer : Uuid) (till : Instant) : Change :=
  { claimedBy := some (some claimer), claimedUntil := some (some till) }

/-- Back to pending, due at once, with counters and diagnostics as new. -/
def manualRetry (now : Instant) : Change where
  status := some .pending
  attempts := some (.ofNat 0)
  nextRetryAt := some (some now)
  claimedBy := some none
  claimedUntil := some none
  responseCode := some none
  responseBody := some none
  errorMessage := some none
  lastAttemptAt := some none
  deliveredAt := some none

end Change

namespace Delivery

def schema : Json.Schema Delivery where
  name := "WebhookDelivery"
  fields := [⟨"id", .uuid, true, none⟩, ⟨"webhook_id", .uuid, true, none⟩, ⟨"event", .text, true, none⟩,
    ⟨"payload", .text, true, none⟩, ⟨"status", .text, true, none⟩, ⟨"attempts", .word32, true, none⟩,
    ⟨"next_retry_at", .optional .instant, true, none⟩, ⟨"claimed_by", .optional .uuid, true, none⟩,
    ⟨"claimed_until", .optional .instant, true, none⟩, ⟨"response_code", .optional .word32, true, none⟩,
    ⟨"response_body", .optional .text, true, none⟩, ⟨"error_message", .optional .text, true, none⟩,
    ⟨"last_attempt_at", .optional .instant, true, none⟩, ⟨"delivered_at", .optional .instant, true, none⟩,
    ⟨"created_at", .instant, true, none⟩]
  ofRow := fun (id, webhookId, event, payload, status, attempts, nextRetryAt, claimedBy, claimedUntil, responseCode,
      responseBody, errorMessage, lastAttemptAt, deliveredAt, createdAt, ()) =>
    { id, webhookId, event, payload, status := .ofText status, attempts, nextRetryAt, claimedBy, claimedUntil
      responseCode, responseBody, errorMessage, lastAttemptAt, deliveredAt, createdAt }
  toRow d := (d.id, d.webhookId, d.event, d.payload, d.status.text, d.attempts, d.nextRetryAt, d.claimedBy,
    d.claimedUntil, d.responseCode, d.responseBody, d.errorMessage, d.lastAttemptAt, d.deliveredAt, d.createdAt, ())

/-- Whether only a retry by hand can move the delivery. -/
def isTerminal (d : Delivery) : Bool := d.status = .delivered || d.status = .dead

/-- Whether the delivery is pending, due and not held by a claim that is still good. -/
def isClaimable (d : Delivery) (now : Instant) : Bool :=
  d.status = .pending && d.nextRetryAt.all (· ≤ now) && d.claimedUntil.all (· < now)

def apply (d : Delivery) (c : Change) : Delivery :=
  { d with
    status := c.status.getD d.status
    attempts := c.attempts.getD d.attempts
    nextRetryAt := c.nextRetryAt.getD d.nextRetryAt
    claimedBy := c.claimedBy.getD d.claimedBy
    claimedUntil := c.claimedUntil.getD d.claimedUntil
    responseCode := c.responseCode.getD d.responseCode
    responseBody := c.responseBody.getD d.responseBody
    errorMessage := c.errorMessage.getD d.errorMessage
    lastAttemptAt := c.lastAttemptAt.getD d.lastAttemptAt
    deliveredAt := c.deliveredAt.getD d.deliveredAt }

end Delivery

structure Tally where
  pending : Word64
  delivered : Word64
  dead : Word64
  deriving DecidableEq, Repr

namespace Tally

def zero : Tally := ⟨⟨0, by decide, by decide⟩, ⟨0, by decide, by decide⟩, ⟨0, by decide, by decide⟩⟩

/-- Adds deliveries of a status; none if a count leaves its range. Unlisted statuses are not counted. -/
def add? (t : Tally) (s : Status) (count : Word64) : Option Tally :=
  match s with
  | .pending => (t.pending.add? count.val).map fun n => { t with pending := n }
  | .delivered => (t.delivered.add? count.val).map fun n => { t with delivered := n }
  | .dead => (t.dead.add? count.val).map fun n => { t with dead := n }
  | .other _ _ => some t

/-- All deliveries; none if the sum leaves its range on the way. -/
def total? (t : Tally) : Option Word64 := (t.pending.add? t.delivered.val).bind (·.add? t.dead.val)

def ofDeliveries? (ds : List Delivery) : Option Tally :=
  ds.foldlM (fun t d => t.add? d.status ⟨1, by decide, by decide⟩) zero

def schema : Json.Schema Tally where
  name := "DeliveryStats"
  fields := [⟨"pending", .word64, true, none⟩, ⟨"delivered", .word64, true, none⟩, ⟨"dead", .word64, true, none⟩]
  ofRow row := ⟨row.1, row.2.1, row.2.2.1⟩
  toRow t := (t.pending, t.delivered, t.dead, ())

end Tally

end Courier
