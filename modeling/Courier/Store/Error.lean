import Courier.Delivery
import Courier.SchemaName
import Courier.Webhook
set_option autoImplicit false

namespace Courier.Store

inductive Error where
  | unavailable
  | pool
  | webhookNotFound (id : Uuid)
  | deliveryNotFound (id : Uuid)
  | notDead (id : Uuid) (status : Status)
  | webhook (fault : Webhook.Fault)
  | unknownStatus (text : String)
  | negativeRetention
  | databaseUrl (fault : Url.Fault)
  | schemaName (fault : SchemaName.Fault)
  /-- A sum left the range of its numbers in the middle of the operation, which came to nothing. -/
  | outOfRange
  deriving DecidableEq, Repr

namespace Error

def message (name : Uuid → String) : Error → String
  | .unavailable => "store unavailable: store is offline"
  | .pool => "connection pool error"
  | .webhookNotFound id => s!"webhook {name id} not found"
  | .deliveryNotFound id => s!"delivery {name id} not found"
  | .notDead id status => s!"delivery {name id} is {status.text}, expected dead"
  | .webhook f => s!"invalid input: {f.message}"
  | .unknownStatus t => s!"invalid input: unknown delivery status {Text.inQuotes t}"
  | .negativeRetention => "invalid input: retention days cannot be negative"
  | .databaseUrl f => s!"invalid input: database url: {f.message}"
  | .schemaName f => s!"invalid input: {f.message}"
  | .outOfRange => "background task failed"

end Error

end Courier.Store
