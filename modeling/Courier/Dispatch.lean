import Courier.Store.Deliveries
set_option autoImplicit false

namespace Courier.Dispatch

inductive Error where
  | unserializable (reason : String)
  | blankType
  | order (fault : Order.Fault)
  | store (error : Store.Error)
  deriving DecidableEq, Repr

def Error.message (name : Uuid → String) : Error → String
  | .unserializable r => s!"failed to serialize event payload: {r}"
  | .blankType => "invalid event: event type cannot be empty"
  | .order f => s!"invalid event: {f.message}"
  | .store e => e.message name

def targets (s : Store) (e : Event) : Except Error (List Webhook) :=
  if Text.isBlank e.type then .error .blankType else (s.matchingWebhooks e.type).mapError .store

def orders (e : Event) (dueAt : Instant) (webhooks : List Webhook) : Except Error (List Order) :=
  let payload := e.payload
  (webhooks.mapM fun w => Order.make w.id e.type payload dueAt).mapError .order

/-- Writes the deliveries to webhooks found before. -/
def write (s : Store) (e : Event) (dueAt : Instant) (webhooks : List Webhook) (ids : Nat → Uuid) (now : Instant) :
    Except Error (List Delivery × Store) :=
  if webhooks.isEmpty then .ok ([], s)
  else match orders e dueAt webhooks with
    | .error x => .error x
    | .ok os => (s.createDeliveries os ids now).mapError .store

def run (s : Store) (e : Event) (dueAt : Instant) (ids : Nat → Uuid) (now : Instant) :
    Except Error (List Delivery × Store) :=
  match targets s e with
  | .error x => .error x
  | .ok webhooks => write s e dueAt webhooks ids now

end Courier.Dispatch
