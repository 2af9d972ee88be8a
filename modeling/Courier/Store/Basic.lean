import Courier.Store.Error
set_option autoImplicit false

namespace Courier

structure Store where
  webhooks : List Webhook
  deliveries : List Delivery
  online : Bool
  deriving Repr

namespace Store

def empty : Store := ⟨[], [], true⟩

def setOnline (s : Store) (online : Bool) : Store := { s with online }

def whenOnline {α : Type} (s : Store) (x : Except Error α) : Except Error α :=
  if s.online then x else .error .unavailable

def changeFirst {α : Type} (p : α → Bool) (f : α → α) : List α → Option (α × List α)
  | [] => none
  | x :: r =>
    if p x then some (f x, f x :: r)
    else (changeFirst p f r).map fun (y, r) => (y, x :: r)

/-! ### Webhooks -/

def createWebhook (s : Store) (r : Registration) (id : Uuid) (now : Instant) : Except Error (Webhook × Store) :=
  s.whenOnline <|
    let w := r.toWebhook id now
    .ok (w, { s with webhooks := s.webhooks ++ [w] })

def getWebhook (s : Store) (id : Uuid) : Except Error (Option Webhook) :=
  s.whenOnline (.ok (s.webhooks.find? (·.id = id)))

/-- All webhooks, the oldest first. -/
def listWebhooks (s : Store) : Except Error (List Webhook) := s.whenOnline (.ok s.webhooks)

/-- Amends a webhook. An amendment that changes nothing leaves the time of the last change alone. -/
def updateWebhook (s : Store) (id : Uuid) (a : Amendment) (now : Instant) : Except Error (Webhook × Store) :=
  match a.check with
  | .error f => .error (.webhook f)
  | .ok _ =>
    s.whenOnline <|
      let amended (w : Webhook) : Webhook := if a.isEmpty then w else { a.apply w with updatedAt := now }
      match changeFirst (·.id = id) amended s.webhooks with
      | some (w, webhooks) => .ok (w, { s with webhooks })
      | none => .error (.webhookNotFound id)

def setActive (s : Store) (id : Uuid) (active : Bool) (now : Instant) : Except Error (Webhook × Store) :=
  s.updateWebhook id { active := some active } now

def deleteWebhook (s : Store) (id : Uuid) : Except Error (Bool × Store) :=
  s.whenOnline <|
    if s.webhooks.any (·.id = id) then
      .ok (true, { s with
        webhooks := s.webhooks.filter (·.id ≠ id)
        deliveries := s.deliveries.filter (·.webhookId ≠ id) })
    else .ok (false, s)

def matchingWebhooks (s : Store) (type : String) : Except Error (List Webhook) :=
  s.whenOnline (.ok (s.webhooks.filter fun w => w.active && w.subscribesTo type))

end Store

end Courier
