import Courier.Rehearsal.World
set_option autoImplicit false

/-!
# Tasks in the background

A task does one thing at a time: a call to the store, the start or the end of a request, a look at a clock. A task that
can do nothing now waits for a time or for another task. Workers of one scan take turns.
-/

namespace Courier.Rehearsal

inductive Move (α : Type) where
  | blocked
  | moved (w : World) (task : α)
  | finished (w : World) (result : Except Dispatch.Error Report)
  | aborted (w : World)

namespace World

/-! ### The receiver -/

def takeQueued (w : World) (name : String) : Option (Reply × World) :=
  match w.queues.lookup name with
  | some (r :: rs) => some (r, { w with queues := (name, rs) :: w.queues.filter (·.1 ≠ name) })
  | _ => none

/-- The reply to a request: queued under the delivery, else under the webhook, else the one for all. -/
def takeReply (w : World) (delivery webhook : Uuid) : Reply × World :=
  match w.takeQueued (w.nameOf delivery) with
  | some x => x
  | none => (w.takeQueued (w.nameOf webhook)).getD (w.fallback, w)

def callReceiver (w : World) (d : Delivery) (x : Webhook) : Reply × World :=
  let call : Call := ⟨d.id, x.id, d.attempts, d.payload⟩
  { w with calls := w.calls ++ [call], inFlight := w.inFlight + 1, peak := max w.peak (w.inFlight + 1) }.takeReply d.id x.id

def answerCall (w : World) : Reply → Option Outcome × World
  | .mk outcome _ follow breaksDown =>
    let w := follow.foldl (fun w a => (w.perform a).2) w
    (if breaksDown then none else some outcome, { w with inFlight := w.inFlight - 1 })

/-- Requests whose answers nobody waits for any more. -/
def dropErrands (w : World) (errands : List Errand) : World := { w with inFlight := w.inFlight - errands.length }

/-! ### Workers -/

inductive WorkerMove where
  | blocked
  | moved (w : World) (errands : List Errand) (stage : Worker.Stage)
  | aborted (w : World)

def endErrand (w : World) (sch : Scheduler) (d : Delivery) (errands : List Errand) (reply : Reply) : WorkerMove :=
  match w.answerCall reply with
  | (none, w) => .aborted w
  | (some outcome, w) =>
    match Worker.answer sch d outcome w.clock with
    | .error _ => .aborted w
    | .ok stage => .moved w errands stage

def moveWorker (w : World) (sch : Scheduler) (stopping : Bool) (errands : List Errand) (k : Worker) : WorkerMove :=
  let d := k.delivery
  match k.stage with
  | .waiting =>
    match Worker.start sch d stopping w.clock w.store with
    | .error _ => .aborted w
    | .ok (stage, store) => .moved { w with store } errands stage
  | .renewed =>
    match Worker.look sch d (w.lookUp d.webhookId) with
    | .sending x =>
      let (reply, w) := w.callReceiver d x
      match reply with
      | .mk _ 0 _ _ => w.endErrand sch d errands reply
      | .mk _ ms _ _ => .moved w (errands ++ [⟨d.id, w.time + ms * nanosPerMilli, reply⟩]) (.sending x)
    | stage => .moved w errands stage
  | .sending _ =>
    match errands.find? (·.delivery = d.id) with
    | some e =>
      if e.due ≤ w.time then w.endErrand sch d (errands.filter (·.delivery ≠ d.id)) e.reply else .blocked
    | none => .blocked
  | .reporting c =>
    let (stage, store) := Worker.report sch d c w.store
    .moved { w with store } errands stage
  | .done _ => .blocked

def dropHeld (w : World) (scheduler delivery : Uuid) : World :=
  match w.station? scheduler with
  | some st => w.setStation { st with held := st.held.filter (· ≠ delivery) }
  | none => w

/-- Lets the first worker that can do something do it, and puts it behind the others. `passed` cannot, in reverse. -/
def moveFirst (w : World) (sch : Scheduler) (stopping : Bool) (run : Run) (scan : Scan) (passed : List Worker) :
    List Worker → Move Run
  | [] => .blocked
  | k :: rest =>
    match w.moveWorker sch stopping run.errands k with
    | .blocked => moveFirst w sch stopping run scan (k :: passed) rest
    | .aborted w => .aborted w
    | .moved w errands stage =>
      let scan := scan.advance sch.config.concurrency (passed.reverse ++ rest) k.delivery stage
      let w := match stage with
        | .done _ => w.dropHeld sch.id k.delivery.id
        | _ => w
      .moved w { run with scan := some scan, errands }

/-! ### Scans -/

def moveRun (w : World) (stopping : Bool) (run : Run) : Move Run :=
  match w.station? run.scheduler with
  | none => .aborted w
  | some st =>
    match run.scan with
    | none =>
      match Scan.claim st.scheduler w.clock w.store with
      | .error e => .finished w (.error (.store e))
      | .ok (batch, store) =>
        let w := { w with store }.setStation { st with held := st.held ++ batch.map fun (d : Delivery) => d.id }
        .moved w { run with scan := some ((Scan.ofBatch batch).fill st.scheduler.config.concurrency) }
    | some scan =>
      if scan.isDone then .finished w (.ok scan.report)
      else
        match w.moveFirst st.scheduler stopping run scan [] scan.active with
        | .aborted w => .aborted (w.dropErrands run.errands)
        | m => m

def Run.times (run : Run) : List Nat := run.errands.map (·.due)

/-! ### Loops -/

def setPhase (w : World) (id : Uuid) (p : Poller) (phase : Phase) : World :=
  match w.station? id with
  | some st => w.setStation { st with poller := some { p with phase } }
  | none => w

/-- Lets the loop of a scheduler do one thing; none if it can do nothing. -/
def movePoller (w : World) (st : Station) (p : Poller) : Option World :=
  let set (w : World) (phase : Phase) : World := w.setPhase st.scheduler.id p phase
  match p.phase with
  | .ended => none
  | .starting =>
    let period := st.scheduler.config.scanInterval.nanos
    some (set w (if period = 0 then .ended else .waiting ⟨w.time, period, true⟩))
  | .waiting ticker =>
    if p.stopping then some (set (w.setStation { st with wakeup := st.wakeup.cancel }) .ended)
    else if ticker.isDue w.time then
      some (set (w.setStation { st with wakeup := st.wakeup.cancel }) (.sweeping (ticker.tick w.time)))
    else
      match st.wakeup.poll with
      | (true, wakeup) => some (set (w.setStation { st with wakeup }) (.sweeping ticker))
      | (false, wakeup) =>
        if wakeup = st.wakeup then none else some (w.setStation { st with wakeup })
  | .sweeping ticker =>
    let next : Phase := .scanning ticker { scheduler := st.scheduler.id }
    match w.store.releaseExpired w.clock with
    | .ok (_, store) => some (set { w with store } next)
    | .error _ => some (set w next)
  | .scanning ticker run =>
    match w.moveRun p.stopping run with
    | .blocked => none
    | .moved w run => some (set w (.scanning ticker run))
    | .finished w _ => some (set w (.waiting ticker))
    | .aborted w => some (set w .ended)

def Poller.times (p : Poller) : List Nat :=
  match p.phase with
  | .waiting ticker => [roundUp ticker.next]
  | .scanning _ run => Run.times run
  | _ => []

/-! ### The other tasks -/

def moveBus (w : World) : Option World :=
  match w.bus with
  | none => none
  | some b =>
    match b.bus.receive with
    | none => none
    | some (e, bus) => some ({ w with bus := some { b with bus } }.dispatch b.ear e).2

def moveRetention (w : World) : Option World :=
  match w.retention with
  | none => none
  | some t =>
    if t.isAlive = false then none
    else if t.ticker.isNone ∧ t.intervalSeconds = 0 then some { w with retention := some { t with isAlive := false } }
    else
      let ticker := t.ticker.getD ⟨w.time, t.intervalSeconds * nanosPerSecond, false⟩
      if ticker.isDue w.time then
        let t := { t with ticker := some (ticker.tick w.time) }
        match Retention.run w.store w.clock t.days with
        | .error _ => some { w with retention := some { t with isAlive := false } }
        | .ok (.error _) => some { w with retention := some t }
        | .ok (.ok (_, store)) => some { w with store, retention := some t }
      else none

def moveStation (w : World) (id : Uuid) : Option World :=
  match w.station? id with
  | some st => st.poller.bind (w.movePoller st)
  | none => none

def goOn (acc : Bool × World) : Option World → Bool × World
  | some w => (true, w)
  | none => acc

def moveBackground (w : World) : Bool × World :=
  let ids := w.stations.map (·.scheduler.id)
  let acc := ids.foldl (fun acc id => goOn acc (acc.2.moveStation id)) (false, w)
  let acc := goOn acc acc.2.moveBus
  goOn acc acc.2.moveRetention

def backgroundTimes (w : World) : List Nat :=
  let loops := w.stations.flatMap fun st => match st.poller with | some p => Poller.times p | none => []
  match w.retention with
  | some ⟨_, _, some ticker, true⟩ => roundUp ticker.next :: loops
  | _ => loops

end World

end Courier.Rehearsal
