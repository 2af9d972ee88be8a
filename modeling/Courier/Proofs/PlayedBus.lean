import Courier.Proofs.PlayedMoves
import Courier.Proofs.Relay
import Courier.Proofs.RoutineCalls
set_option autoImplicit false

namespace Courier

/-- The two calls of a dispatch with nothing between them. -/
theorem Relay.look_write_eq {x : Relay} {e : Event} (held : x.phase = .called e) (r : Reading) :
    (x.step (.look r)).step .write =
      x.finish e r (x.store.wrote (Dispatch.run x.store e r.dueAt r.ids r.now)) := by
  unfold Dispatch.run
  rw [step, held]
  dsimp only
  split
  · next found ok =>
    rw [ok]
    rfl
  · next failed =>
    rw [failed]
    rfl

theorem Retention.run_cleans {s t : Store} {now : Instant} {days : Word64} {n : Nat}
    (ok : Retention.run s now days = .ok (.ok (n, t))) : ∃ cutoff, s.cleanupOld cutoff = .ok (n, t) := by
  unfold Retention.run at ok
  split at ok
  · cases ok
  · split at ok
    · cases ok
    · next cutoff _ => exact ⟨cutoff, Except.ok.inj ok⟩

namespace Rehearsal

/-! ### What leaves the bus alone -/

namespace World

variable {w v u : World}

def PassesBy (w v : World) : Prop :=
  v.bus = w.bus ∧ ∃ calls : List Store.Call, v.store = calls.foldl Store.after w.store

namespace PassesBy

theorem of_same (bus : v.bus = w.bus) (store : v.store = w.store) : w.PassesBy v := ⟨bus, [], store⟩

theorem refl (w : World) : w.PassesBy w := .of_same rfl rfl

theorem of_call (bus : v.bus = w.bus) (call : Store.Call) (store : v.store = w.store.after call) : w.PassesBy v :=
  ⟨bus, [call], store⟩

theorem of_ok {α : Type} {x : Except Store.Error (α × Store)} {a : α} (bus : v.bus = w.bus) (ok : x = .ok (a, v.store))
    (call : Store.Call) (made : w.store.after call = w.store.wrote x) : w.PassesBy v := by
  refine .of_call bus call ?_
  rw [made, ok]
  rfl

theorem of_becomes (bus : v.bus = w.bus) (becomes : w.store.MayBecome v.store) : w.PassesBy v := by
  obtain ⟨calls, -, made⟩ := becomes
  exact ⟨bus, calls, made.symm⟩

theorem dispatched (w : World) (ear : Option Ear) (e : Event) : w.PassesBy (w.dispatch ear e).2 := by
  obtain ⟨bus, store⟩ := w.dispatch_aside ear e
  refine .of_becomes bus ?_
  rw [store]
  unfold Dispatch.run
  split
  · exact .refl _
  · next found _ =>
    cases call : Dispatch.write w.store e w.clock found w.nextDeliveries w.wall with
    | error x => exact .refl _
    | ok r => exact Dispatch.write_becomes call

theorem answered (w : World) (ear : Option Ear) (e : Event) : w.PassesBy (dispatchAnswer (w.dispatch ear e)).2 := by
  have passes := dispatched w ear e
  revert passes
  cases w.dispatch ear e with
  | mk x v => cases x <;> exact id

theorem written {α : Type} (w : World) {x : Except Store.Error (α × Store)} (call : Store.Call)
    (made : w.store.after call = w.store.wrote x) (answer : α → Answer) : w.PassesBy (w.written x answer).2 := by
  refine .of_call ?_ call (made.symm ▸ ?_)
  all_goals
    unfold World.written
    split <;> rfl

theorem read {α : Type} (w : World) (x : Except Store.Error α) (answer : α → Answer) :
    w.PassesBy (w.read x answer).2 := by
  unfold World.read
  split <;> exact .refl w

theorem withRecord (w : World) (name : String) {f : Uuid → Answer × World} (passes : ∀ id, w.PassesBy (f id).2) :
    w.PassesBy (w.withRecord name f).2 := by
  unfold World.withRecord
  split
  · exact passes _
  · exact .refl w

theorem addWebhook (w : World) (r : Registration) : w.PassesBy (w.addWebhook r).2 := by
  unfold World.addWebhook
  dsimp only
  split
  · exact .refl w
  · next x store made =>
    exact .of_ok rfl made (.createWebhook r (mint 1 w.webhookCount) w.wall) rfl

theorem addDeliveries (w : World) (items : List OrderForm) : w.PassesBy (w.addDeliveries items).2 := by
  unfold World.addDeliveries
  split
  · exact .refl w
  · next orders _ =>
    split
    · exact .refl w
    · next ds store made =>
      exact .of_ok rfl made (.createDeliveries orders w.nextDeliveries w.wall) rfl

end PassesBy

/-- No step that is done at once does anything to the bus but to hand an event over. -/
theorem perform_passesBy (w : World) {a : Action} (other : ∀ e, a ≠ .emit e) : w.PassesBy (w.perform a).2 := by
  unfold perform
  cases a with
  | emit e => exact absurd rfl (other e)
  | clock | wall | script | calls | shutdown | noWakeup | dispatchUnserializable => exact .of_same rfl rfl
  | advance ms =>
    dsimp only
    split <;> exact .of_same rfl rfl
  | offline value => exact .of_call rfl (.switch !value) rfl
  | hideWebhook name => exact .withRecord w name fun id => .of_same rfl rfl
  | createWebhook f =>
    dsimp only
    split
    · exact .refl w
    · exact .addWebhook w _
  | createRaw r => exact .addWebhook w r
  | listWebhooks | matching | dump => exact .read w _ _
  | getWebhook name | getDelivery name | listDeliveries name | stats name =>
    exact .withRecord w name fun id => .read w _ _
  | updateWebhook name a => exact .withRecord w name fun id => .written w (.updateWebhook id a w.wall) rfl _
  | setActive name active =>
    exact .withRecord w name fun id => .written w (.updateWebhook id { active := some active } w.wall) rfl _
  | deleteWebhook name => exact .withRecord w name fun id => .written w (.deleteWebhook id) rfl _
  | dispatch | dispatchEvent => exact .answered w _ _
  | wakeupPending =>
    dsimp only
    split
    · exact .refl w
    · exact .of_same rfl rfl
    · split <;> exact .of_same rfl rfl
  | createDeliveries items => exact .addDeliveries w items
  | claim claimer limit leaseMs now =>
    refine .withRecord w claimer fun holder => ?_
    split
    · next lease _ => exact .written w (.claimDue (now.getD w.clock) limit holder lease) rfl _
    · exact .refl w
  | renew name claimer till =>
    exact .withRecord w name fun id => .withRecord w claimer fun holder => .written w (.renewClaim id holder till) rfl _
  | release name claimer =>
    exact .withRecord w name fun id => .withRecord w claimer fun holder => .written w (.releaseClaim id holder) rfl _
  | complete name claimer form =>
    refine .withRecord w name fun id => .withRecord w claimer fun holder => ?_
    split
    · next c _ => exact .written w (.completeAttempt id holder c) rfl _
    · exact .refl w
    · exact .refl w
  | releaseExpired now => exact .written w (.releaseExpired (now.getD w.clock)) rfl _
  | retry name now => exact .withRecord w name fun id => .written w (.retryDelivery id (now.getD w.clock)) rfl _
  | cleanupOld cutoff => exact .written w (.cleanupOld cutoff) rfl _

end World

end Rehearsal

namespace Relay

open Rehearsal

/-! ### What the relay does meanwhile -/

inductive Passes : World → List Move → World → Prop
  | aside {w v : World} {calls : List Store.Call} (bus : v.bus = w.bus)
    (store : v.store = calls.foldl Store.after w.store) : Passes w (calls.map .other) v
  | emit (w : World) (e : Event) : Passes w [.emit e] (w.perform (.emit e)).2
  | task {w v : World} (moved : w.moveBus = some v) :
    Passes w [.receive, .look ⟨w.clock, w.nextDeliveries, w.wall⟩, .write] v
  | trans {w v u : World} {moves later : List Move} (first : Passes w moves v) (next : Passes v later u) :
    Passes w (moves ++ later) u

/-- The relay has the bus and the store of the rehearsal. Nothing is in hand, and nobody waits in line. -/
structure Shows (x : Relay) (w : World) : Prop where
  bus : w.bus.map (·.bus) = some x.bus
  store : x.store = w.store
  phase : x.phase = .resting
  line : x.line = []
  alive : 0 < x.senders

namespace Shows

variable {x : Relay} {w v : World}

theorem others (shows : x.Shows w) {calls : List Store.Call} (bus : v.bus = w.bus)
    (store : v.store = calls.foldl Store.after w.store) : Shows ((calls.map .other).foldl step x) v := by
  induction calls generalizing x w with
  | nil => exact ⟨bus ▸ shows.bus, shows.store.trans store.symm, shows.phase, shows.line, shows.alive⟩
  | cons call calls ih =>
    have next : Shows (x.step (.other call)) { w with store := w.store.after call } :=
      ⟨shows.bus, congrArg (·.after call) shows.store, shows.phase, shows.line, shows.alive⟩
    exact ih next bus store

theorem emit (shows : x.Shows w) (e : Event) : Shows (x.step (.emit e)) (w.perform (.emit e)).2 := by
  obtain ⟨b, here, same⟩ := Option.map_eq_some_iff.mp shows.bus
  have emitted : (w.perform (.emit e)).2 = { w with bus := some { b with bus := x.bus.emit e } } := by
    unfold World.perform
    dsimp only
    rw [here, ← same]
  rw [emitted, Relay.step, shows.line]
  split
  · exact ⟨rfl, shows.store, shows.phase, shows.line, shows.alive⟩
  · next full =>
    have dropped : x.bus.emit e = x.bus := by
      unfold Bus.emit Bus.hasRoom
      rw [if_neg]
      rintro room
      obtain ⟨-, short⟩ := Bool.and_eq_true_iff.mp room
      exact full ⟨shows.alive, of_decide_eq_true short⟩
    exact ⟨congrArg some dropped, shows.store, shows.phase, shows.line, shows.alive⟩

/-- The task takes one event out and dispatches it. -/
theorem task (shows : x.Shows w) (moved : w.moveBus = some v) :
    Shows ([.receive, .look ⟨w.clock, w.nextDeliveries, w.wall⟩, .write].foldl step x) v := by
  obtain ⟨b, here, same⟩ := Option.map_eq_some_iff.mp shows.bus
  unfold World.moveBus at moved
  rw [here] at moved
  dsimp only at moved
  rw [same] at moved
  split at moved
  · cases moved
  · next e bus taken =>
    obtain rfl := Option.some.inj moved
    obtain ⟨kept, wrote⟩ := World.dispatch_aside { w with bus := some { b with bus } } b.ear e
    -- the relay takes the event and dispatches it without being interrupted
    have received : x.step .receive = { x with bus, phase := .called e, given := x.given ++ [e] } := by
      rw [Relay.step, shows.phase]
      dsimp only
      rw [taken]
    have dispatched := Relay.look_write_eq (x := x.step .receive) (e := e) (by rw [received])
      ⟨w.clock, w.nextDeliveries, w.wall⟩
    rw [received] at dispatched
    rw [List.foldl_cons, received, List.foldl_cons, List.foldl_cons, dispatched, List.foldl_nil]
    refine ⟨?_, ?_, rfl, shows.line, shows.alive⟩
    · rw [kept]
      rfl
    · rw [wrote]
      exact congrArg (fun s => s.wrote (Dispatch.run s e w.clock w.nextDeliveries w.wall)) shows.store

end Shows

theorem Passes.shows {w v : World} {moves : List Move} (passes : Passes w moves v) {x : Relay} (shows : x.Shows w) :
    Shows (moves.foldl step x) v := by
  induction passes generalizing x with
  | aside bus store => exact shows.others bus store
  | emit w e => exact shows.emit e
  | task moved => exact shows.task moved
  | trans first next ih ih' =>
    rw [List.foldl_append]
    exact ih' (ih shows)

end Relay

namespace Rehearsal

/-! ### Everything that is played -/

namespace World

variable {w v u : World}

/-- The relay can do what is done here to the world. -/
def Follows (w v : World) : Prop := ∃ moves, Relay.Passes w moves v

theorem PassesBy.follows (passes : w.PassesBy v) : w.Follows v := by
  obtain ⟨bus, calls, store⟩ := passes
  exact ⟨_, .aside bus store⟩

namespace Follows

theorem of_same (bus : v.bus = w.bus) (store : v.store = w.store) : w.Follows v := (PassesBy.of_same bus store).follows

theorem refl (w : World) : w.Follows w := .of_same rfl rfl

theorem trans (first : w.Follows v) (next : v.Follows u) : w.Follows u := by
  obtain ⟨moves, passes⟩ := first
  obtain ⟨later, passes'⟩ := next
  exact ⟨moves ++ later, passes.trans passes'⟩

theorem then_same (first : w.Follows v) (bus : u.bus = v.bus) (store : u.store = v.store) : w.Follows u :=
  first.trans (.of_same bus store)

theorem perform (w : World) (a : Action) : w.Follows (w.perform a).2 := by
  by_cases emits : ∃ e, a = .emit e
  · obtain ⟨e, rfl⟩ := emits
    exact ⟨_, .emit w e⟩
  · exact (w.perform_passesBy fun e same => emits ⟨e, same⟩).follows

theorem performAll (w : World) (actions : List Action) :
    w.Follows (actions.foldl (fun w a => (w.perform a).2) w) := by
  induction actions generalizing w with
  | nil => exact .refl w
  | cons a actions ih => exact (perform w a).trans (ih _)

end Follows

/-! ### Workers and scans -/

def WorkerMove.Follows (w : World) : WorkerMove → Prop
  | .blocked => True
  | .moved v _ _ | .aborted v => w.Follows v

theorem WorkerMove.Follows.after {m : WorkerMove} (next : m.Follows v) (first : w.Follows v) : m.Follows w := by
  cases m with
  | blocked => trivial
  | moved | aborted => exact first.trans next

theorem callReceiver_follows (w : World) (d : Delivery) (x : Webhook) : w.Follows (w.callReceiver d x).2 := by
  obtain ⟨calls, inFlight, peak, queues, same⟩ := w.callReceiver_eq d x
  exact same ▸ .of_same rfl rfl

theorem endErrand_follows (w : World) (sch : Scheduler) (d : Delivery) (errands : List Errand) (reply : Reply) :
    (w.endErrand sch d errands reply).Follows w := by
  obtain ⟨outcome, delayMs, follow, breaksDown⟩ := reply
  have after := (Follows.performAll w follow).then_same
    (u := (w.answerCall (.mk outcome delayMs follow breaksDown)).2) rfl rfl
  unfold endErrand
  split
  · next answered =>
    rw [answered] at after
    exact after
  · next answered =>
    rw [answered] at after
    split <;> exact after

theorem moveWorker_follows (w : World) (sch : Scheduler) (stopping : Bool) (errands : List Errand) (k : Worker) :
    (w.moveWorker sch stopping errands k).Follows w := by
  unfold moveWorker
  dsimp only
  split
  · split
    · exact Follows.refl w
    · next stage store started =>
      have passes : w.PassesBy { w with store } := .of_becomes rfl (Worker.start_becomes started)
      exact passes.follows
  · split
    · next x _ =>
      have called := w.callReceiver_follows k.delivery x
      split
      · exact (endErrand_follows _ _ _ _ _).after called
      · exact called
    · exact Follows.refl w
  · split
    · split
      · exact endErrand_follows _ _ _ _ _
      · trivial
    · trivial
  · next c _ =>
    rcases (Worker.report_over sch k.delivery c w.store).2 with same | ⟨o, written⟩
    · exact Follows.of_same rfl same
    · have passes : w.PassesBy { w with store := (Worker.report sch k.delivery c w.store).2 } :=
        .of_ok rfl written (.completeAttempt k.delivery.id sch.id c) rfl
      exact passes.follows
  · trivial

theorem dropHeld_same (w : World) (scheduler delivery : Uuid) :
    (w.dropHeld scheduler delivery).bus = w.bus ∧ (w.dropHeld scheduler delivery).store = w.store := by
  unfold dropHeld
  split <;> exact ⟨rfl, rfl⟩

def ScanFollows (w : World) : Move Run → Prop
  | .blocked => True
  | .moved v _ | .finished v _ | .aborted v => w.Follows v

theorem moveFirst_follows (w : World) (sch : Scheduler) (stopping : Bool) (run : Run) (scan : Scan)
    (passed ks : List Worker) : w.ScanFollows (w.moveFirst sch stopping run scan passed ks) := by
  rcases w.moveFirst_cases sch stopping run scan passed ks with
    blocked | ⟨before, k, after, -, ⟨v, aborted, same⟩ | ⟨v, errands, stage, moved, same⟩⟩
  · rw [blocked]
    trivial
  · have follows := w.moveWorker_follows sch stopping run.errands k
    rw [aborted] at follows
    rw [same]
    exact follows
  · have follows := w.moveWorker_follows sch stopping run.errands k
    rw [moved] at follows
    rw [same]
    change w.Follows (if _ then _ else _)
    split
    · obtain ⟨bus, store⟩ := v.dropHeld_same sch.id k.delivery.id
      exact Follows.then_same follows bus store
    · exact follows

theorem moveRun_follows (w : World) (stopping : Bool) (run : Run) : w.ScanFollows (w.moveRun stopping run) := by
  unfold moveRun
  split
  · exact Follows.refl w
  · next st _ =>
    split
    · split
      · exact Follows.refl w
      · next batch store claimed =>
        have passes : w.PassesBy { w with store } :=
          .of_ok rfl claimed (.claimDue w.clock st.scheduler.config.batchSize.val st.scheduler.id
            st.scheduler.config.lease) rfl
        exact passes.follows.then_same rfl rfl
    · next scan _ =>
      split
      · exact Follows.refl w
      · have follows := w.moveFirst_follows st.scheduler stopping run scan [] scan.active
        split
        · next aborted =>
          rw [aborted] at follows
          exact Follows.then_same follows rfl rfl
        · exact follows

/-! ### Tasks -/

theorem setStation_follows (w : World) (st : Station) : w.Follows (w.setStation st) := .of_same rfl rfl

theorem setPhase_follows (w : World) (id : Uuid) (p : Poller) (phase : Phase) : w.Follows (w.setPhase id p phase) := by
  unfold setPhase
  split
  · exact .of_same rfl rfl
  · exact .refl w

theorem movePoller_follows {st : Station} {p : Poller} (moved : w.movePoller st p = some v) : w.Follows v := by
  cases movePoller_polls moved with
  | starts => exact w.setPhase_follows _ _ _
  | leaves | ticks | wakes => exact (w.setStation_follows _).trans (setPhase_follows _ _ _ _)
  | rests => exact w.setStation_follows _
  | sweeps =>
    have passes : w.PassesBy { w with store := w.store.wrote (w.store.releaseExpired w.clock) } :=
      .of_call rfl (.releaseExpired w.clock) rfl
    exact passes.follows.trans (setPhase_follows _ _ _ _)
  | @scans _ run _ _ _ told | @finishes _ run _ _ _ told | @breaks _ run _ _ told =>
    have follows := w.moveRun_follows p.stopping run
    rw [told] at follows
    exact Follows.trans follows (setPhase_follows _ _ _ _)

theorem moveBus_follows (moved : w.moveBus = some v) : w.Follows v := ⟨_, .task moved⟩

theorem moveRetention_follows (moved : w.moveRetention = some v) : w.Follows v := by
  unfold moveRetention at moved
  split at moved
  · cases moved
  · next t _ =>
    split at moved
    · cases moved
    · split at moved
      · cases moved
        exact .of_same rfl rfl
      · dsimp only at moved
        split at moved
        · split at moved
          · cases moved
            exact .of_same rfl rfl
          · cases moved
            exact .of_same rfl rfl
          · next n store cleaned =>
            cases moved
            obtain ⟨cutoff, call⟩ := Retention.run_cleans cleaned
            have passes : w.PassesBy { w with store } := .of_ok rfl call (.cleanupOld cutoff) rfl
            exact passes.follows.then_same rfl rfl
        · cases moved

/-! ### Steps -/

theorem moveStation_follows {id : Uuid} (moved : w.moveStation id = some v) : w.Follows v := by
  unfold moveStation at moved
  split at moved
  · obtain ⟨p, -, moved⟩ := Option.bind_eq_some_iff.mp moved
    exact movePoller_follows moved
  · cases moved

theorem goOn_follows {acc : Bool × World} {x : Option World} (before : w.Follows acc.2)
    (moves : ∀ v, x = some v → acc.2.Follows v) : w.Follows (goOn acc x).2 := by
  cases x with
  | none => exact before
  | some v => exact before.trans (moves v rfl)

theorem moveBackground_follows (w : World) : w.Follows w.moveBackground.2 := by
  refine goOn_follows (goOn_follows ?_ fun v => moveBus_follows) fun v => moveRetention_follows
  refine List.foldlRecOn _ _ (motive := fun acc : Bool × World => w.Follows acc.2) (.refl w) fun acc before id _ => ?_
  exact goOn_follows before fun v => moveStation_follows

theorem releaseHeld_follows (w : World) (st : Station) : w.Follows (w.releaseHeld st).2 := by
  rw [releaseHeld_eq]
  have calls : st.held.foldl (fun s id => s.wrote (s.releaseClaim id st.scheduler.id)) w.store =
      (st.held.map (Store.Call.releaseClaim · st.scheduler.id)).foldl Store.after w.store := by
    rw [List.foldl_map]
    rfl
  have passes : w.PassesBy
      { w with store := st.held.foldl (fun s id => s.wrote (s.releaseClaim id st.scheduler.id)) w.store } :=
    ⟨rfl, _, calls⟩
  exact passes.follows.trans (setStation_follows _ _)

theorem ended_follows {job : Job} {a : Answer} (stays : job ≠ .drain) (ended : w.ended? job = some (a, v)) :
    w.Follows v := by
  unfold ended? at ended
  split at ended
  · split at ended
    · cases ended
      exact .refl w
    · cases ended
  · dsimp only at ended
    split at ended
    · split at ended
      · cases ended
        exact .refl w
      · split at ended
        · cases ended
          exact .refl w
        · cases ended
          exact .refl w
    · cases ended
  · split at ended
    · cases ended
      exact .refl w
    · next st _ =>
      split at ended
      · cases ended
        exact .refl w
      · split at ended
        · cases ended
          exact w.setStation_follows _
        · split at ended
          · cases ended
            next p _ _ _ _ =>
            have dropped : w.Follows (w.dropErrands (errandsOf p)) := .of_same rfl rfl
            exact dropped.trans (releaseHeld_follows _ st)
          · cases ended
  · next e =>
    split at ended
    · cases ended
      exact .refl w
    · next b here =>
      split at ended
      · cases ended
        exact .refl w
      · split at ended
        · cases ended
          have emits := Follows.perform w (.emit e)
          unfold World.perform at emits
          dsimp only at emits
          rw [here] at emits
          exact emits
        · cases ended
  · exact absurd rfl stays

def JobFollows (w : World) : JobMove → Prop
  | .blocked => True
  | .moved v job => w.Follows v ∧ job ≠ .drain
  | .aborted v => w.Follows v

theorem JobFollows.after {m : JobMove} (next : v.JobFollows m) (first : w.Follows v) : w.JobFollows m := by
  cases m with
  | blocked => trivial
  | moved => exact ⟨first.trans next.1, next.2⟩
  | aborted => exact Follows.trans first next

theorem moveRuns_follows (w : World) (moved : Bool) (done rs : List (Run ⊕ Except Dispatch.Error Report)) :
    w.JobFollows (w.moveRuns moved done rs) := by
  induction rs generalizing w moved done with
  | nil =>
    unfold moveRuns
    split
    · exact ⟨.refl w, Job.noConfusion⟩
    · trivial
  | cons r rest ih =>
    cases r with
    | inr result => exact ih w moved _
    | inl run =>
      have follows := w.moveRun_follows w.shutdown run
      unfold moveRuns
      split
      · exact ih w moved _
      · next told =>
        rw [told] at follows
        exact (ih _ _ _).after follows
      · next told =>
        rw [told] at follows
        exact (ih _ _ _).after follows
      · next told =>
        rw [told] at follows
        exact Follows.then_same follows rfl rfl

theorem moveJob_follows (w : World) (job : Job) : w.JobFollows (w.moveJob job) := by
  unfold moveJob
  split
  · exact w.moveRuns_follows _ _ _
  · trivial

theorem advance_follows {job : Job} (later : w.advance? job = some v) : w.Follows v := by
  unfold advance? at later
  obtain ⟨t, -, rfl⟩ := Option.map_eq_some_iff.mp later
  exact .of_same rfl rfl

theorem await_follows (fuel : Nat) (w : World) {job : Job} (stays : job ≠ .drain) :
    w.Follows (w.await fuel job).2 := by
  induction fuel generalizing w job with
  | zero => exact .refl w
  | succ fuel ih =>
    unfold await
    split
    · next x ended => exact ended_follows (a := x.1) stays ended
    · have played := w.moveJob_follows job
      split
      · next told =>
        rw [told] at played
        exact played
      · next v job' told =>
        rw [told] at played
        exact (played.1.trans (moveBackground_follows v)).trans (ih _ played.2)
      · have follows := w.moveBackground_follows
        split
        · next told =>
          rw [told] at follows
          exact follows.trans (ih _ stays)
        · next told =>
          rw [told] at follows
          split
          · next later => exact (follows.trans (advance_follows later)).trans (ih _ stays)
          · exact follows

def Keeps : Step → Prop
  | .bus _ | .busClose | .busAbort => False
  | _ => True

theorem withStation_follows (w : World) (name : String) {f : Station → Answer × World}
    (follows : ∀ st, w.Follows (f st).2) : w.Follows (w.withStation name f).2 := by
  unfold withStation
  split
  · exact follows _
  · exact .refl w

theorem play_follows (w : World) {s : Step} (keeps : Keeps s) : w.Follows (w.play s).2 := by
  unfold play
  cases s with
  | bus | busClose | busAbort => exact keeps.elim
  | act a => exact .perform w a
  | scheduler | retentionStart | retentionStop => exact .of_same rfl rfl
  | run name => exact w.withStation_follows name fun st => w.await_follows _ Job.noConfusion
  | race a b =>
    exact w.withStation_follows a fun x => w.withStation_follows b fun y => w.await_follows _ Job.noConfusion
  | start name wire =>
    refine w.withStation_follows name fun st => ?_
    dsimp only
    split <;> exact .of_same rfl rfl
  | wake name =>
    refine w.withStation_follows name fun st => ?_
    obtain ⟨bus, store⟩ := w.notify_aside (some (.scheduler st.scheduler.id))
    exact .of_same bus store
  | stop name graceMs =>
    exact w.withStation_follows name fun st => (w.setStation_follows _).trans (await_follows _ _ Job.noConfusion)
  | sleep | emitAsync => exact w.await_follows _ Job.noConfusion
  | retentionRun days =>
    dsimp only
    split
    · exact .refl w
    · exact .refl w
    · next n store cleaned =>
      obtain ⟨cutoff, call⟩ := Retention.run_cleans cleaned
      have passes : w.PassesBy { w with store } := .of_ok rfl call (.cleanupOld cutoff) rfl
      exact passes.follows

theorem playAll_follows (w : World) (answers : List Answer) {steps : List Step} (keeps : ∀ s ∈ steps, Keeps s) :
    w.Follows (w.playAll answers steps).2 := by
  induction steps generalizing w answers with
  | nil => exact .refl w
  | cons s steps ih =>
    unfold playAll
    have here := w.play_follows (keeps s List.mem_cons_self)
    exact here.trans (ih _ _ fun t ht => keeps t (List.mem_cons_of_mem _ ht))

/-- After any steps but those that start or close a bus, the relay has made moves to the same bus and store: of the
events that the bus accepted all are dispatched in order but for those that still wait there. -/
theorem played_in_order (w : World) (capacity : Option Nat) (answers : List Answer) {steps : List Step}
    (keeps : ∀ s ∈ steps, Keeps s) :
    let before := (w.play (.bus capacity)).2
    let after := (before.playAll answers steps).2
    ∃ moves, Relay.Passes before moves after ∧
      let x := Relay.after (capacity.getD Bus.defaultCapacity) w.store moves
      x.Shows after ∧ x.accepted = x.history.filterMap Relay.Entry.event? ++ x.bus.queue := by
  intro before after
  obtain ⟨moves, passes⟩ := before.playAll_follows answers keeps
  have start : (Relay.start (capacity.getD Bus.defaultCapacity) w.store).Shows before :=
    ⟨rfl, rfl, rfl, rfl, Nat.one_pos⟩
  have shows := passes.shows start
  refine ⟨moves, passes, shows, ?_⟩
  have sound := Relay.sound_after (capacity.getD Bus.defaultCapacity) w.store moves
  have given := sound.events
  rw [show (Relay.after _ _ moves).phase = .resting from shows.phase] at given
  rw [sound.order, ← given]
  exact congrArg (· ++ _) (List.append_nil _)

end World

end Rehearsal

end Courier
