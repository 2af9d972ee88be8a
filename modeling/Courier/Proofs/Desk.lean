import Courier.Proofs.Errands
set_option autoImplicit false

/-!
# A scheduler that is started and stopped

A desk is a store and one scheduler that works in it. The loop of the scheduler hands its calls to a pool of threads and
waits for them one by one for each worker: handing a call over, its run and taking the answer in are three happenings,
and anything may come in between. Who stops the loop waits for its end or gives it up. Then all that was not taken in is
lost, but a call that was handed over still runs.
-/

namespace Courier

namespace Desk

inductive Line where
  | handed (errand : Errand)
  | answered (stage : Worker.Stage)

def Line.handed? : Line → Option Errand
  | handed errand => some errand
  | answered _ => none

inductive Loop where
  | resting
  | sweeping
  | claiming (now : Instant)
  | claimed (answer : Except Store.Error (List Delivery))
  | scanning (scan : Scan) (calls : Uuid → Option Line)
  /-- The calls that were handed over before the end and have not run yet. -/
  | halted (claim : Option Instant) (calls : Uuid → Option Errand)

inductive Stop where
  | unasked
  | asked
  | releasing (ids : List Uuid)
  | returned
  deriving DecidableEq

/-- Loops hold functions and cannot be compared, but whether one rests can be told. -/
instance (l : Loop) : Decidable (l = .resting) :=
  match l with
  | .resting => isTrue rfl
  | .sweeping | .claiming _ | .claimed _ | .scanning _ _ | .halted _ _ => isFalse nofun

def Loop.isOver : Loop → Bool
  | halted _ _ => true
  | _ => false

def Loop.ended : Loop → Loop
  | claiming now => halted (some now) fun _ => none
  | scanning _ calls => halted none fun id => (calls id).bind Line.handed?
  | halted claim calls => halted claim calls
  | _ => halted none fun _ => none

inductive Happening where
  | other (call : Store.Call)
  | wake
  | begin (now : Instant)
  | runClaim
  | unpack
  | hand (id : Uuid) (now : Instant)
  | run (id : Uuid)
  | take (id : Uuid)
  | answer (id : Uuid) (outcome : Outcome) (now : Instant)
  | finish
  | breakDown
  | leave
  | ask
  /-- The time of grace is over. -/
  | giveUp
  | release (id : Uuid)
  | depart

end Desk

structure Desk where
  store : Store
  held : List Uuid
  loop : Desk.Loop
  stop : Desk.Stop
  last : Option (Except Store.Error Report)

namespace Desk

def started (s : Store) : Desk := ⟨s, [], .resting, .unasked, none⟩

def stopping (k : Desk) : Bool :=
  match k.stop with
  | .unasked => false
  | _ => true

def turn? (k : Desk) (id : Uuid) : Option Worker :=
  match k.loop with
  | .scanning scan _ => scan.turn? id
  | _ => none

def call? (k : Desk) (id : Uuid) : Option Line :=
  match k.loop with
  | .scanning _ calls => calls id
  | _ => none

def step (sch : Scheduler) (k : Desk) : Happening → Desk
  | .other call => if call.Foreign sch.id k.store then { k with store := k.store.after call } else k
  | .wake =>
    match k.loop, k.stop with
    | .resting, .unasked => { k with loop := .sweeping }
    | _, _ => k
  | .begin now =>
    match k.loop with
    | .sweeping => { k with loop := .claiming now }
    | _ => k
  | .runClaim =>
    match k.loop with
    | .claiming now =>
      match Scan.claim sch now k.store with
      | .ok (batch, store) => { k with store, loop := .claimed (.ok batch) }
      | .error e => { k with loop := .claimed (.error e) }
    | .halted (some now) calls =>
      { k with store := k.store.wrote (Scan.claim sch now k.store), loop := .halted none calls }
    | _ => k
  | .unpack =>
    match k.loop with
    | .claimed (.ok batch) =>
      { k with
        held := k.held ++ batch.map (·.id)
        loop := .scanning ((Scan.ofBatch batch).fill sch.config.concurrency) fun _ => none }
    | .claimed (.error e) => { k with loop := .resting, last := some (.error e) }
    | _ => k
  | .hand id now =>
    match k.loop with
    | .scanning scan calls =>
      match scan.turn? id, calls id with
      | some w, none =>
        match w.errand sch k.stopping now with
        | .ok (some e) => { k with loop := .scanning scan (Function.update calls id (some (.handed e))) }
        | .ok none => k
        | .error _ => { k with loop := k.loop.ended }
      | _, _ => k
    | _ => k
  | .run id =>
    match k.loop with
    | .scanning scan calls =>
      match calls id with
      | some (.handed e) =>
        match e.run sch k.store with
        | some (stage, store) =>
          { k with store, loop := .scanning scan (Function.update calls id (some (.answered stage))) }
        | none => k
      | _ => k
    | .halted claim calls =>
      match calls id with
      | some e =>
        match e.run sch k.store with
        | some (_, store) => { k with store, loop := .halted claim (Function.update calls id none) }
        | none => k
      | none => k
    | _ => k
  | .take id =>
    match k.loop with
    | .scanning scan calls =>
      match scan.turn? id, calls id with
      | some w, some (.answered stage) =>
        { k with
          held := if stage.isOver then k.held.filter (· ≠ id) else k.held
          loop := .scanning (scan.moved sch.config.concurrency w.delivery stage) (Function.update calls id none) }
      | _, _ => k
    | _ => k
  | .answer id outcome now =>
    match k.loop with
    | .scanning scan calls =>
      match scan.turn? id with
      | some ⟨d, .sending _⟩ =>
        match Worker.answer sch d outcome now with
        | .ok stage => { k with loop := .scanning (scan.moved sch.config.concurrency d stage) calls }
        | .error _ => { k with loop := k.loop.ended }
      | _ => k
    | _ => k
  | .finish =>
    match k.loop with
    | .scanning scan _ => if scan.isDone then { k with loop := .resting, last := some (.ok scan.report) } else k
    | _ => k
  | .breakDown =>
    match k.loop with
    | .scanning _ _ => { k with loop := k.loop.ended }
    | _ => k
  | .leave =>
    match k.loop, k.stop with
    | .resting, .asked => { k with loop := k.loop.ended }
    | _, _ => k
  | .ask =>
    match k.stop with
    | .unasked => { k with stop := .asked }
    | _ => k
  | .giveUp =>
    match k.stop with
    | .asked => { k with loop := k.loop.ended, stop := .releasing k.held, held := [] }
    | _ => k
  | .release id =>
    match k.stop with
    | .releasing ids =>
      if id ∈ ids then
        { k with store := k.store.wrote (k.store.releaseClaim id sch.id), stop := .releasing (ids.filter (· ≠ id)) }
      else k
    | _ => k
  | .depart =>
    match k.stop, k.loop with
    | .asked, .halted _ _ => { k with stop := .returned }
    | .releasing [], .halted _ _ => { k with stop := .returned }
    | _, _ => k

def run (sch : Scheduler) (k : Desk) (hs : List Happening) : Desk := hs.foldl (step sch) k

/-! ### A scheduler to look at -/

namespace Sample
open Fleet.Sample

def due : Store := (Fleet.after crew (claimed.take 2)).store

def scheduler : Scheduler := crew.scheduler north

def claimed : List Happening := [.wake, .begin (second 1), .runClaim, .unpack]

def calls (now : Instant) : List Happening := [.hand parcel now, .run parcel, .take parcel]

end Sample

/-! ### What can happen -/

def Happening.breaks : Happening → Bool
  | hand _ _ | answer _ _ _ | breakDown => true
  | _ => false

/-- The happenings that change something, each with what it needs and what it changes. -/
inductive Happens (sch : Scheduler) (k : Desk) : Happening → Desk → Prop
  | nothing (e : Happening) : Happens sch k e k
  | called {call : Store.Call} (foreign : call.Foreign sch.id k.store) :
    Happens sch k (.other call) { k with store := k.store.after call }
  | woke (loop : k.loop = .resting) : Happens sch k .wake { k with loop := .sweeping }
  | began {now : Instant} (loop : k.loop = .sweeping) : Happens sch k (.begin now) { k with loop := .claiming now }
  | claimed {now : Instant} {batch : List Delivery} {store : Store} (loop : k.loop = .claiming now)
    (call : Scan.claim sch now k.store = .ok (batch, store)) :
    Happens sch k .runClaim { k with store, loop := .claimed (.ok batch) }
  | refused {now : Instant} {e : Store.Error} (loop : k.loop = .claiming now) :
    Happens sch k .runClaim { k with loop := .claimed (.error e) }
  | claimedLate {now : Instant} {calls : Uuid → Option Errand} (loop : k.loop = .halted (some now) calls) :
    Happens sch k .runClaim { k with store := k.store.wrote (Scan.claim sch now k.store), loop := .halted none calls }
  | unpacked {batch : List Delivery} (loop : k.loop = .claimed (.ok batch)) :
    Happens sch k .unpack { k with
      held := k.held ++ batch.map (·.id)
      loop := .scanning ((Scan.ofBatch batch).fill sch.config.concurrency) fun _ => none }
  | failed {e : Store.Error} (loop : k.loop = .claimed (.error e)) :
    Happens sch k .unpack { k with loop := .resting, last := some (.error e) }
  | handed {id : Uuid} {now : Instant} {scan : Scan} {calls : Uuid → Option Line} {w : Worker} {e : Errand}
    (loop : k.loop = .scanning scan calls) (turn : scan.turn? id = some w)
    (errand : w.errand sch k.stopping now = .ok (some e)) :
    Happens sch k (.hand id now) { k with loop := .scanning scan (Function.update calls id (some (.handed e))) }
  | broke {e : Happening} {scan : Scan} {calls : Uuid → Option Line} (loop : k.loop = .scanning scan calls)
    (breaks : e.breaks = true) : Happens sch k e { k with loop := k.loop.ended }
  | ran {id : Uuid} {scan : Scan} {calls : Uuid → Option Line} {e : Errand} {stage : Worker.Stage} {store : Store}
    (loop : k.loop = .scanning scan calls) (line : calls id = some (.handed e))
    (ran : e.run sch k.store = some (stage, store)) :
    Happens sch k (.run id)
      { k with store, loop := .scanning scan (Function.update calls id (some (.answered stage))) }
  | ranLate {id : Uuid} {claim : Option Instant} {calls : Uuid → Option Errand} {e : Errand} {stage : Worker.Stage}
    {store : Store} (loop : k.loop = .halted claim calls) (late : calls id = some e)
    (ran : e.run sch k.store = some (stage, store)) :
    Happens sch k (.run id) { k with store, loop := .halted claim (Function.update calls id none) }
  | took {id : Uuid} {scan : Scan} {calls : Uuid → Option Line} {w : Worker} {stage : Worker.Stage}
    (loop : k.loop = .scanning scan calls) (turn : scan.turn? id = some w)
    (line : calls id = some (.answered stage)) :
    Happens sch k (.take id) { k with
      held := if stage.isOver then k.held.filter (· ≠ id) else k.held
      loop := .scanning (scan.moved sch.config.concurrency w.delivery stage) (Function.update calls id none) }
  | answered {id : Uuid} {outcome : Outcome} {now : Instant} {scan : Scan} {calls : Uuid → Option Line} {d : Delivery}
    {hook : Webhook} {stage : Worker.Stage} (loop : k.loop = .scanning scan calls)
    (turn : scan.turn? id = some ⟨d, .sending hook⟩) (answer : Worker.answer sch d outcome now = .ok stage) :
    Happens sch k (.answer id outcome now)
      { k with loop := .scanning (scan.moved sch.config.concurrency d stage) calls }
  | finished {scan : Scan} {calls : Uuid → Option Line} (loop : k.loop = .scanning scan calls)
    (done : scan.isDone = true) : Happens sch k .finish { k with loop := .resting, last := some (.ok scan.report) }
  | left (loop : k.loop = .resting) : Happens sch k .leave { k with loop := k.loop.ended }
  | asked (stop : k.stop = .unasked) : Happens sch k .ask { k with stop := .asked }
  | gaveUp (stop : k.stop = .asked) :
    Happens sch k .giveUp { k with loop := k.loop.ended, stop := .releasing k.held, held := [] }
  | released {id : Uuid} {ids : List Uuid} (stop : k.stop = .releasing ids) :
    Happens sch k (.release id) { k with
      store := k.store.wrote (k.store.releaseClaim id sch.id)
      stop := .releasing (ids.filter (· ≠ id)) }
  | departed (stop : k.stop = .asked ∨ k.stop = .releasing []) (halted : k.loop.isOver = true) :
    Happens sch k .depart { k with stop := .returned }

theorem step_happens (sch : Scheduler) (k : Desk) (e : Happening) : Happens sch k e (k.step sch e) := by
  cases e with
  | other call =>
    rw [step]
    split
    · next foreign => exact .called foreign
    · exact .nothing _
  | wake =>
    rw [step]
    split
    · next loop stop => exact .woke loop
    · exact .nothing _
  | begin now =>
    rw [step]
    split
    · next loop => exact .began loop
    · exact .nothing _
  | runClaim =>
    rw [step]
    split
    · next loop =>
      split
      · next call => exact .claimed loop call
      · exact .refused loop
    · next loop => exact .claimedLate loop
    · exact .nothing _
  | unpack =>
    rw [step]
    split
    · next loop => exact .unpacked loop
    · next loop => exact .failed loop
    · exact .nothing _
  | hand id now =>
    rw [step]
    split
    · next loop =>
      split
      · next turn unhanded =>
        split
        · next errand => exact .handed loop turn errand
        · exact .nothing _
        · exact .broke loop rfl
      · exact .nothing _
    · exact .nothing _
  | run id =>
    rw [step]
    split
    · next loop =>
      split
      · next line =>
        split
        · next ran => exact .ran loop line ran
        · exact .nothing _
      · exact .nothing _
    · next loop =>
      split
      · next late =>
        split
        · next ran => exact .ranLate loop late ran
        · exact .nothing _
      · exact .nothing _
    · exact .nothing _
  | take id =>
    rw [step]
    split
    · next loop =>
      split
      · next turn line => exact .took loop turn line
      · exact .nothing _
    · exact .nothing _
  | answer id outcome now =>
    rw [step]
    split
    · next loop =>
      split
      · next turn =>
        split
        · next answer => exact .answered loop turn answer
        · exact .broke loop rfl
      · exact .nothing _
    · exact .nothing _
  | finish =>
    rw [step]
    split
    · next loop =>
      split
      · next done => exact .finished loop done
      · exact .nothing _
    · exact .nothing _
  | breakDown =>
    rw [step]
    split
    · next loop => exact .broke loop rfl
    · exact .nothing _
  | leave =>
    rw [step]
    split
    · next loop _ => exact .left loop
    · exact .nothing _
  | ask =>
    rw [step]
    split
    · next stop => exact .asked stop
    · exact .nothing _
  | giveUp =>
    rw [step]
    split
    · next stop => exact .gaveUp stop
    · exact .nothing _
  | release id =>
    rw [step]
    split
    · next stop =>
      split
      · exact .released stop
      · exact .nothing _
    · exact .nothing _
  | depart =>
    rw [step]
    split
    · next stop loop => exact .departed (.inl stop) (by rw [loop]; rfl)
    · next stop loop => exact .departed (.inr stop) (by rw [loop]; rfl)
    · exact .nothing _

end Desk

end Courier
