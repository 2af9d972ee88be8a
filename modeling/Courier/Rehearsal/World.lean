import Courier.Rehearsal.Action
import Courier.Ticker
import Courier.Wakeup
set_option autoImplicit false

namespace Courier.Rehearsal

inductive Ear where
  /-- Nobody waits for this one; the rehearsal looks at it. -/
  | own
  | scheduler (id : Uuid)
  deriving DecidableEq, Repr

structure Errand where
  delivery : Uuid
  due : Nat
  reply : Reply

/-- A scan by a scheduler; there is no scan yet before the batch is claimed. -/
structure Run where
  scheduler : Uuid
  scan : Option Scan := none
  errands : List Errand := []

inductive Phase where
  | starting
  | waiting (ticker : Ticker)
  | sweeping (ticker : Ticker)
  | scanning (ticker : Ticker) (run : Run)
  | ended

structure Poller where
  phase : Phase
  stopping : Bool

structure Station where
  scheduler : Scheduler
  wakeup : Wakeup
  held : List Uuid
  poller : Option Poller

structure BusTask where
  bus : Bus
  ear : Option Ear

structure RetentionTask where
  days : Word64
  /-- Seconds between two runs; the ticker exists from the first look on. -/
  intervalSeconds : Nat
  ticker : Option Ticker
  isAlive : Bool

/-- The state of a rehearsal. Virtual time is in nanoseconds. -/
structure World where
  store : Store
  vanished : List Uuid
  clock : Instant
  wall : Instant
  time : Nat
  names : List (String × Uuid)
  webhookCount : Nat
  deliveryCount : Nat
  schedulerCount : Nat
  fallback : Reply
  queues : List (String × List Reply)
  calls : List Call
  inFlight : Nat
  peak : Nat
  shutdown : Bool
  ear : Option Ear
  ownWakeup : Wakeup
  stations : List Station
  bus : Option BusTask
  retention : Option RetentionTask

namespace World

def success : Reply := .mk (.ofResponse 200 none (by decide)) 0 [] false

def start (clock wall : Instant) : World where
  store := .empty
  vanished := []
  clock
  wall
  time := 0
  names := []
  webhookCount := 0
  deliveryCount := 0
  schedulerCount := 0
  fallback := success
  queues := []
  calls := []
  inFlight := 0
  peak := 0
  shutdown := false
  ear := some .own
  ownWakeup := {}
  stations := []
  bus := none
  retention := none

/-! ### Names -/

/-- The identifier of a record made here; kinds keep apart. -/
def mint (kind n : Nat) : Uuid := .ofNat (0xC0DE000000004000A000000000000000 + kind * 1099511627776 + n)

def numbered (letter : Char) (n : Nat) : String := String.ofList (letter :: Nat.toDigits 10 n)

def find (w : World) (name : String) : Option Uuid :=
  match w.names.lookup name with
  | some u => some u
  | none => Uuid.ofText? name

def nameOf (w : World) (u : Uuid) : String :=
  match w.names.find? (·.2 = u) with
  | some (n, _) => n
  | none => u.text

def nameDeliveries (w : World) (count : Nat) : World :=
  { w with
    deliveryCount := w.deliveryCount + count
    names := w.names ++ (List.range count).map fun i =>
      (numbered 'd' (w.deliveryCount + i + 1), mint 2 (w.deliveryCount + i)) }

def nextDeliveries (w : World) (i : Nat) : Uuid := mint 2 (w.deliveryCount + i)

/-! ### Schedulers and wakeups -/

def station? (w : World) (id : Uuid) : Option Station := w.stations.find? (·.scheduler.id = id)

def setStation (w : World) (st : Station) : World :=
  { w with stations := w.stations.map fun x => if x.scheduler.id = st.scheduler.id then st else x }

def notify (w : World) : Option Ear → World
  | none => w
  | some .own => { w with ownWakeup := w.ownWakeup.notify }
  | some (.scheduler id) =>
    match w.station? id with
    | some st => w.setStation { st with wakeup := st.wakeup.notify }
    | none => w

/-! ### Immediate actions -/

def dispatch (w : World) (ear : Option Ear) (e : Event) : Except Dispatch.Error (List Delivery) × World :=
  match Dispatch.run w.store e w.clock w.nextDeliveries w.wall with
  | .error x => (.error x, w)
  | .ok (ds, store) =>
    let w := { w with store }.nameDeliveries ds.length
    (.ok ds, if ds.isEmpty then w else w.notify ear)

def dispatchAnswer : Except Dispatch.Error (List Delivery) × World → Answer × World
  | (.error x, w) => (.dispatchError x, w)
  | (.ok ds, w) => (.deliveries ds, w)

def written {α : Type} (w : World) (x : Except Store.Error (α × Store)) (answer : α → Answer) : Answer × World :=
  match x with
  | .error .outOfRange => (.aborted, w)
  | .error e => (.storeError e, w)
  | .ok (a, store) => (answer a, { w with store })

def read {α : Type} (w : World) (x : Except Store.Error α) (answer : α → Answer) : Answer × World :=
  match x with
  | .error .outOfRange => (.aborted, w)
  | .error e => (.storeError e, w)
  | .ok a => (answer a, w)

def withRecord (w : World) (name : String) (f : Uuid → Answer × World) : Answer × World :=
  match w.find name with
  | some u => f u
  | none => (.unknown, w)

def lookUp (w : World) (id : Uuid) : Except Store.Error (Option Webhook) :=
  (w.store.getWebhook id).map fun x => if id ∈ w.vanished then none else x

def addWebhook (w : World) (r : Registration) : Answer × World :=
  let id := mint 1 w.webhookCount
  match w.store.createWebhook r id w.wall with
  | .error e => (.storeError e, w)
  | .ok (x, store) =>
    (.webhook (some x), { w with
      store
      webhookCount := w.webhookCount + 1
      names := w.names ++ [(numbered 'w' (w.webhookCount + 1), id)] })

def order (w : World) (f : OrderForm) : Except Answer Order :=
  match w.find f.webhook with
  | none => .error .unknown
  | some webhookId =>
    match f.raw with
    | some status =>
      .ok { webhookId, event := f.event, payload := f.payload, status := .ofText status, nextRetryAt := f.dueAt }
    | none => (Order.make webhookId f.event f.payload (f.dueAt.getD w.clock)).mapError fun x => .invalid x.message

def addDeliveries (w : World) (items : List OrderForm) : Answer × World :=
  match items.mapM w.order with
  | .error a => (a, w)
  | .ok orders =>
    match w.store.createDeliveries orders w.nextDeliveries w.wall with
    | .error e => (.storeError e, w)
    | .ok (ds, store) => (.deliveries ds, { w with store }.nameDeliveries ds.length)

def dump (w : World) : Except Store.Error (List (Webhook × List Delivery)) :=
  match w.store.listWebhooks with
  | .error e => .error e
  | .ok ws => ws.mapM fun x => (w.store.listDeliveries x.id none 9223372036854775807 0).map (x, ·)

def callNumber (w : World) (c : Call) : Nat := Decimal.value ((w.nameOf c.delivery).toList.filter Decimal.isDigit)

def perform (w : World) : Action → Answer × World
  | .clock t => (.instant t, { w with clock := t })
  | .advance ms =>
    match (Span.ofMillis? ms).bind w.clock.add? with
    | some t => (.instant t, { w with clock := t })
    | none => (.aborted, w)
  | .wall t => (.ok, { w with wall := t })
  | .offline value => (.ok, { w with store := w.store.setOnline !value })
  | .hideWebhook name => w.withRecord name fun id => (.ok, { w with vanished := id :: w.vanished })
  | .createWebhook f =>
    match Registration.make f.name f.url f.secret f.events f.headers with
    | .error x => (.invalid x.message, w)
    | .ok r => w.addWebhook { r with active := f.active }
  | .createRaw r => w.addWebhook r
  | .getWebhook name => w.withRecord name fun id => w.read (w.lookUp id) .webhook
  | .listWebhooks => w.read w.store.listWebhooks .webhooks
  | .updateWebhook name a =>
    w.withRecord name fun id => w.written (w.store.updateWebhook id a w.wall) fun x => .webhook (some x)
  | .setActive name active =>
    w.withRecord name fun id => w.written (w.store.setActive id active w.wall) fun x => .webhook (some x)
  | .deleteWebhook name => w.withRecord name fun id => w.written (w.store.deleteWebhook id) .flag
  | .matching event => w.read (w.store.matchingWebhooks event) fun ws => .ids (ws.map (·.id))
  | .dispatch event data => dispatchAnswer (w.dispatch w.ear ⟨event, w.clock, data⟩)
  | .dispatchEvent e => dispatchAnswer (w.dispatch w.ear e)
  | .dispatchUnserializable _ => (.dispatchError (.unserializable Json.Fault.keyMustBeString.message), w)
  | .noWakeup => (.ok, { w with ear := none })
  | .wakeupPending =>
    match w.ear with
    | none => (.flag false, w)
    | some .own => let (b, wakeup) := w.ownWakeup.take; (.flag b, { w with ownWakeup := wakeup })
    | some (.scheduler id) =>
      match w.station? id with
      | some st => let (b, wakeup) := st.wakeup.take; (.flag b, w.setStation { st with wakeup })
      | none => (.flag false, w)
  | .createDeliveries items => w.addDeliveries items
  | .getDelivery name => w.withRecord name fun id => w.read (w.store.getDelivery id) .delivery
  | .listDeliveries name status limit offset =>
    w.withRecord name fun id => w.read (w.store.listDeliveries id status limit offset) .listing
  | .stats name => w.withRecord name fun id => w.read (w.store.deliveryStats id) .tally
  | .claim claimer limit leaseMs now =>
    w.withRecord claimer fun holder =>
      match Span.ofMillis? leaseMs with
      | some lease => w.written (w.store.claimDue (now.getD w.clock) limit holder lease) .deliveries
      | none => (.aborted, w)
  | .renew name claimer till =>
    w.withRecord name fun id => w.withRecord claimer fun holder => w.written (w.store.renewClaim id holder till) .flag
  | .release name claimer =>
    w.withRecord name fun id => w.withRecord claimer fun holder => w.written (w.store.releaseClaim id holder) .flag
  | .complete name claimer form =>
    w.withRecord name fun id => w.withRecord claimer fun holder =>
      match form.resolve w.find with
      | .ok c => w.written (w.store.completeAttempt id holder c) .delivery
      | .error .unknownName => (.unknown, w)
      | .error .outOfRange => (.aborted, w)
  | .releaseExpired now => w.written (w.store.releaseExpired (now.getD w.clock)) .count
  | .retry name now =>
    w.withRecord name fun id => w.written (w.store.retryDelivery id (now.getD w.clock)) fun d => .delivery (some d)
  | .cleanupOld cutoff => w.written (w.store.cleanupOld cutoff) .count
  | .script fallback replies =>
    let queued (name : String) : List Reply := (w.queues.lookup name).getD []
    let queues := replies.map (fun (name, rs) => (name, queued name ++ rs))
      ++ w.queues.filter fun q => (replies.lookup q.1).isNone
    (.ok, { w with fallback := fallback.getD w.fallback, queues })
  | .calls =>
    let sorted := w.calls.mergeSort fun a b =>
      w.callNumber a < w.callNumber b || (w.callNumber a == w.callNumber b && a.attempts.val ≤ b.attempts.val)
    (.calls sorted w.peak, { w with calls := [], peak := w.inFlight })
  | .shutdown value => (.ok, { w with shutdown := value })
  | .emit e =>
    match w.bus with
    | some b => (.ok, { w with bus := some { b with bus := b.bus.emit e } })
    | none => (.ok, w)
  | .dump => w.read w.dump .dump

end World

end Courier.Rehearsal
