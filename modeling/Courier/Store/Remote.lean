import Courier.SchemaName
import Courier.Store.Deliveries
set_option autoImplicit false

namespace Courier.Store.Remote

def run {α : Type} (connect : Except Error Store) (operation : Store → Except Error α) : Except Error α :=
  connect.bind operation

/-- Changes a webhook. The changes are checked before a connection is taken. -/
def updateWebhook (connect : Except Error Store) (id : Uuid) (a : Amendment) (now : Instant) :
    Except Error (Webhook × Store) :=
  match a.check with
  | .error f => .error (.webhook f)
  | .ok () => run connect fun s => s.updateWebhook id a now

/-- Writes deliveries; there is no new state if there are none. -/
def createDeliveries (connect : Except Error Store) (orders : List Order) (ids : Nat → Uuid) (now : Instant) :
    Except Error (List Delivery × Option Store) :=
  if orders.isEmpty then .ok ([], none)
  else run connect fun s => (s.createDeliveries orders ids now).map fun (ds, s) => (ds, some s)

def setUpSchema (connect : Except Error Store) (schema : Option SchemaName) : Except Error Unit :=
  match schema with
  | none => .ok ()
  | some _ => run connect fun _ => .ok ()

end Courier.Store.Remote
