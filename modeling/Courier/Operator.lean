import Courier.CommandLine
import Courier.Database
import Courier.Dispatch
import Courier.Retention
set_option autoImplicit false

namespace Courier

inductive Job where
  | serve
  | dispatch (event : String) (data : Json)
  | retry (delivery : Uuid)
  | cleanup (days : Word64)
  deriving Repr

inductive Job.Error where
  | data (error : Json.Error) (text : String)
  | store (error : Store.Error)
  deriving DecidableEq, Repr

namespace Job

def ofCommand : Command → Except Job.Error Job
  | .serve => .ok .serve
  | .dispatch event data =>
    match Json.parse data with
    | .ok j => .ok (.dispatch event j)
    | .error e => .error (.data e data)
  | .retry delivery => .ok (.retry delivery)
  | .cleanup days => .ok (.cleanup days)

def prepare (c : Command) (s : DatabaseSettings) : Except Job.Error (Job × Database) := do
  let job ← ofCommand c
  let database ← (Database.ofSettings s).mapError .store
  .ok (job, database)

inductive Result where
  | running
  | dispatched (deliveries : List Delivery)
  | retried (delivery : Delivery)
  | deleted (count : Nat)
  deriving Repr

def run (s : Store) (now : Instant) (ids : Nat → Uuid) :
    Job → Except OutOfRange (Except Dispatch.Error (Result × Store))
  | .serve => .ok (.ok (.running, s))
  | .dispatch event data =>
    .ok ((Dispatch.run s ⟨event, now, data⟩ now ids now).map fun (ds, s) => (.dispatched ds, s))
  | .retry id => .ok (((s.retryDelivery id now).map fun (d, s) => (.retried d, s)).mapError .store)
  | .cleanup days =>
    match Retention.run s now days with
    | .error e => .error e
    | .ok r => .ok ((r.map fun (n, s) => (.deleted n, s)).mapError .store)

end Job

end Courier
