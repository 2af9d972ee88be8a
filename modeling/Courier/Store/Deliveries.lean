import Courier.Store.Basic
set_option autoImplicit false

namespace Courier.Store

/-- Stores a batch of orders. The delivery of the order at place `i` gets the identifier `ids i`. -/
def createDeliveries (s : Store) (orders : List Order) (ids : Nat → Uuid) (now : Instant) :
    Except Error (List Delivery × Store) :=
  s.whenOnline <|
    match orders.find? (fun o => !(s.webhooks.any (·.id = o.webhookId))) with
    | some orphan => .error (.webhookNotFound orphan.webhookId)
    | none =>
      let created := orders.zipIdx.map fun (o, i) => o.toDelivery (ids i) now
      .ok (created, { s with deliveries := s.deliveries ++ created })

def getDelivery (s : Store) (id : Uuid) : Except Error (Option Delivery) :=
  s.whenOnline (.ok (s.deliveries.find? (·.id = id)))

def history (s : Store) (webhookId : Uuid) (status : Option Status) : List Delivery :=
  let rows := s.deliveries.filter fun d => d.webhookId = webhookId && status.all (d.status = ·)
  rows.reverse.mergeSort fun a b => b.createdAt ≤ a.createdAt

def statusFilter : Option String → Except Error (Option Status)
  | none => .ok none
  | some t => if .ofText t ∈ Status.listed then .ok (some (.ofText t)) else .error (.unknownStatus t)

/-- A window of the deliveries of a webhook; negative bounds count as zero. -/
def listDeliveries (s : Store) (webhookId : Uuid) (status : Option String) (limit offset : Int) :
    Except Error (List Delivery) :=
  match statusFilter status with
  | .error e => .error e
  | .ok filter => s.whenOnline (.ok (((s.history webhookId filter).drop offset.toNat).take limit.toNat))

def deliveryStats (s : Store) (webhookId : Uuid) : Except Error Tally :=
  s.whenOnline <|
    match Tally.ofDeliveries? (s.deliveries.filter (·.webhookId = webhookId)) with
    | some t => .ok t
    | none => .error .outOfRange

def retryDelivery (s : Store) (id : Uuid) (now : Instant) : Except Error (Delivery × Store) :=
  s.whenOnline <|
    match s.deliveries.find? (·.id = id) with
    | none => .error (.deliveryNotFound id)
    | some d =>
      if d.status = .dead then
        match changeFirst (·.id = id) (·.apply (.manualRetry now)) s.deliveries with
        | some (d, deliveries) => .ok (d, { s with deliveries })
        | none => .error (.deliveryNotFound id)
      else .error (.notDead id d.status)

def cleanupOld (s : Store) (cutoff : Instant) : Except Error (Nat × Store) :=
  s.whenOnline <|
    let kept := s.deliveries.filter fun d => !(d.isTerminal && d.createdAt < cutoff)
    .ok (s.deliveries.length - kept.length, { s with deliveries := kept })

end Courier.Store
