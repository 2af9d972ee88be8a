import Courier.Rehearsal.Task
set_option autoImplicit false

namespace Courier.Rehearsal

inductive Job where
  | sleep (deadline : Nat)
  | runs (runs : List (Run ⊕ Except Dispatch.Error Report))
  | stop (scheduler : Uuid) (deadline : Nat)
  | emit (event : Event)
  | drain

namespace World

def runAnswer : Except Dispatch.Error Report → Answer
  | .ok r => .report r
  | .error (.store .outOfRange) => .taskError
  | .error e => .dispatchError e

def handBack (holder : Uuid) (acc : Nat × Store) (id : Uuid) : Nat × Store :=
  match acc.2.releaseClaim id holder with
  | .ok (true, store) => (acc.1 + 1, store)
  | .ok (false, store) => (acc.1, store)
  | .error _ => acc

def releaseHeld (w : World) (st : Station) : Nat × World :=
  let (n, store) := st.held.foldl (handBack st.scheduler.id) (0, w.store)
  (n, { w with store }.setStation { st with held := [], poller := none, wakeup := st.wakeup.cancel })

def errandsOf (p : Poller) : List Errand :=
  match p.phase with
  | .scanning _ run => run.errands
  | _ => []

def ended? (w : World) : Job → Option (Answer × World)
  | .sleep t => if t ≤ w.time then some (.ok, w) else none
  | .runs rs =>
    let results := rs.filterMap fun r => r.getRight?
    if results.length = rs.length then
      match results with
      | [r] => some (runAnswer r, w)
      | _ =>
        match results.mapM id with
        | .ok reports => some (.reports reports, w)
        | .error e => some (runAnswer (.error e), w)
    else none
  | .stop id t =>
    match w.station? id with
    | none => some (.unknown, w)
    | some st =>
      match st.poller with
      | none => some (.unknown, w)
      | some p =>
        match p.phase with
        | .ended => some (.released 0, w.setStation { st with poller := none })
        | _ =>
          if t ≤ w.time then
            let (n, w) := (w.dropErrands (errandsOf p)).releaseHeld st
            some (.released n, w)
          else none
  | .emit e =>
    match w.bus with
    | none => some (.sendError e.type, w)
    | some b =>
      if b.bus.isOpen = false then some (.sendError e.type, w)
      else if b.bus.hasRoom then some (.ok, { w with bus := some { b with bus := b.bus.emit e } })
      else none
  | .drain =>
    match w.bus with
    | none => some (.ok, w)
    | some b => if b.bus.queue.isEmpty then some (.ok, { w with bus := none }) else none

inductive JobMove where
  | blocked
  | moved (w : World) (job : Job)
  | aborted (w : World)

/-- Lets every scan of a step do one thing. `done` holds those looked at, in reverse. -/
def moveRuns (w : World) (moved : Bool) (done : List (Run ⊕ Except Dispatch.Error Report)) :
    List (Run ⊕ Except Dispatch.Error Report) → JobMove
  | [] => if moved then .moved w (.runs done.reverse) else .blocked
  | .inr r :: rest => moveRuns w moved (.inr r :: done) rest
  | .inl run :: rest =>
    match w.moveRun w.shutdown run with
    | .blocked => moveRuns w moved (.inl run :: done) rest
    | .moved w run => moveRuns w true (.inl run :: done) rest
    | .finished w r => moveRuns w true (.inr r :: done) rest
    | .aborted w => .aborted (w.dropErrands ((done ++ rest).flatMap fun r => match r with | .inl x => x.errands | .inr _ => []))

def moveJob (w : World) : Job → JobMove
  | .runs rs => w.moveRuns false [] rs
  | _ => .blocked

def jobTimes : Job → List Nat
  | .sleep t => [t]
  | .stop _ t => [t]
  | .runs rs => rs.flatMap fun r => match r with | .inl run => Run.times run | .inr _ => []
  | _ => []

def advance? (w : World) (job : Job) : Option World :=
  (((jobTimes job ++ w.backgroundTimes).filter (w.time < ·)).min?).map fun t => { w with time := t }

/-- Waits for the end of a job. The fuel bounds what is done meanwhile. -/
def await : Nat → World → Job → Answer × World
  | 0, w, _ => (.unknown, w)
  | fuel + 1, w, job =>
    match w.ended? job with
    | some x => x
    | none =>
      match w.moveJob job with
      | .aborted w => (.aborted, w)
      | .moved w job => await fuel w.moveBackground.2 job
      | .blocked =>
        match w.moveBackground with
        | (true, w) => await fuel w job
        | (false, w) =>
          match w.advance? job with
          | some w => await fuel w job
          | none => (.unknown, w)

def patience : Nat := 100000000

def withStation (w : World) (name : String) (f : Station → Answer × World) : Answer × World :=
  match (w.names.lookup name).bind w.station? with
  | some st => f st
  | none => (.unknown, w)

def play (w : World) : Step → Answer × World
  | .act a => w.perform a
  | .scheduler name config =>
    let id := mint 3 w.schedulerCount
    (.ok, { w with
      schedulerCount := w.schedulerCount + 1
      names := (name, id) :: w.names
      stations := ⟨⟨id, config⟩, {}, [], none⟩ :: w.stations })
  | .run name => w.withStation name fun st => await patience w (.runs [.inl { scheduler := st.scheduler.id }])
  | .race a b =>
    w.withStation a fun x => w.withStation b fun y =>
      await patience w (.runs [.inl { scheduler := x.scheduler.id }, .inl { scheduler := y.scheduler.id }])
  | .start name wire =>
    w.withStation name fun st =>
      let w := w.setStation { st with poller := some ⟨.starting, false⟩ }
      (.ok, if wire then { w with ear := some (.scheduler st.scheduler.id) } else w)
  | .wake name => w.withStation name fun st => (.ok, w.notify (some (.scheduler st.scheduler.id)))
  | .stop name graceMs =>
    w.withStation name fun st =>
      let poller := st.poller.map fun p => { p with stopping := true }
      await patience (w.setStation { st with poller }) (.stop st.scheduler.id (w.time + graceMs * nanosPerMilli))
  | .sleep ms => await patience w (.sleep (w.time + ms * nanosPerMilli))
  | .bus capacity => (.ok, { w with bus := some ⟨.spawn (capacity.getD Bus.defaultCapacity), w.ear⟩ })
  | .emitAsync e => await patience w (.emit e)
  | .busClose => await patience w .drain
  | .busAbort => (.ok, { w with bus := w.bus.map fun b => { b with bus := b.bus.abort } })
  | .retentionRun days =>
    match Retention.run w.store w.clock days with
    | .error _ => (.aborted, w)
    | .ok (.error e) => (.dispatchError (.store e), w)
    | .ok (.ok (n, store)) => (.count n, { w with store })
  | .retentionStart days intervalSeconds => (.ok, { w with retention := some ⟨days, intervalSeconds, none, true⟩ })
  | .retentionStop => (.ok, { w with retention := none })

/-- Does steps one after another. The answers come last first. -/
def playAll (w : World) (answers : List Answer) : List Step → List Answer × World
  | [] => (answers, w)
  | s :: r =>
    let (a, w) := w.play s
    playAll w (a :: answers) r

end World

def play (clock wall : Instant) (steps : List Step) : List Answer × World :=
  let (answers, w) := World.playAll (.start clock wall) [] steps
  (answers.reverse, w)

end Courier.Rehearsal
