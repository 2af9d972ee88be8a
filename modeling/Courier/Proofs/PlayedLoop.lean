import Courier.Proofs.PlayedWorkers
import Courier.Proofs.ScanEnd
import Courier.Proofs.Shutdown
import Mathlib.Logic.Relation
set_option autoImplicit false

/-!
# The loop of a scheduler in a rehearsal

The loop that is played makes each scan without a pause between its calls and their answers, and what a scheduler still
holds when it is given up is handed back in one go. A desk can do all of this as well. So what is known of desks,
whatever happens to them, holds of every loop that is played.
-/

namespace Courier

namespace Desk

open Rehearsal

def Loop.ofPhase : Phase → Loop
  | .starting | .waiting _ => .resting
  | .sweeping _ | .scanning _ ⟨_, none, _⟩ => .sweeping
  | .scanning _ ⟨_, some scan, _⟩ => .scanning scan fun _ => none
  | .ended => .halted none fun _ => none

/-- A scheduler holds nothing between its scans, and during a scan only what its workers are at. -/
def Tidy (h : Uuid) (held : List Uuid) : Phase → Prop
  | .starting | .waiting _ | .sweeping _ => held = []
  | .scanning _ ⟨holder, none, errands⟩ => holder = h ∧ errands = [] ∧ held = []
  | .scanning _ ⟨holder, some scan, errands⟩ =>
    holder = h ∧ (∀ e ∈ errands, e.reply.Plain) ∧ (scan.unfinished.map (·.delivery.id)).Nodup ∧ held.Nodup ∧
      ∀ id ∈ held, id ∈ scan.unfinished.map (·.delivery.id)
  | .ended => True

structure Stands (sch : Scheduler) (k : Desk) (w : World) (st : Station) : Prop where
  here : w.station? sch.id = some st
  scheduler : st.scheduler = sch
  store : k.store = w.store
  held : k.held = st.held
  distinct : (w.store.deliveries.map (·.id)).Nodup
  plain : w.Plain

structure Shows (sch : Scheduler) (k : Desk) (w : World) (st : Station) (p : Poller) : Prop
    extends Stands sch k w st where
  poller : st.poller = some p
  loop : k.loop = .ofPhase p.phase
  stop : k.stop = if p.stopping then .asked else .unasked
  tidy : Tidy sch.id st.held p.phase

variable {sch : Scheduler} {k : Desk} {w v : World} {st : Station} {p : Poller}

theorem Shows.stopping (shows : Shows sch k w st p) : k.stopping = p.stopping := by
  unfold Desk.stopping
  rw [shows.stop]
  cases p.stopping <;> rfl

theorem Stands.setStation (stands : Stands sch k w st) (k' : Desk) (st' : Station) (scheduler : st'.scheduler = sch)
    (store : k'.store = k.store) (held : k'.held = st'.held) : Stands sch k' (w.setStation st') st' where
  here := by
    obtain rfl := scheduler
    exact World.station?_setStation (by rw [stands.here]; rfl)
  scheduler := scheduler
  store := store.trans stands.store
  held := held
  distinct := stands.distinct
  plain := ⟨stands.plain.present, stands.plain.fallback, stands.plain.queued⟩

theorem Stands.setPhase (stands : Stands sch k w st) (p : Poller) (phase : Phase) (loop : k.loop = .ofPhase phase)
    (stop : k.stop = if p.stopping then .asked else .unasked) (tidy : Tidy sch.id st.held phase) :
    Shows sch k (w.setPhase sch.id p phase) { st with poller := some { p with phase } } { p with phase } := by
  obtain rfl := stands.scheduler
  rw [World.setPhase_eq stands.here]
  exact { toStands := stands.setStation _ _ rfl rfl stands.held, poller := rfl, loop, stop, tidy }

/-- Nothing happened to the loop. -/
theorem Shows.keeps (shows : Shows sch k w st p) {k' : Desk} {st' : Station} (stands : Stands sch k' v st')
    (poller : st'.poller = st.poller) (held : st'.held = st.held) (loop : k'.loop = k.loop) (stop : k'.stop = k.stop) :
    Shows sch k' v st' p where
  toStands := stands
  poller := poller.trans shows.poller
  loop := loop.trans shows.loop
  stop := stop.trans shows.stop
  tidy := held ▸ shows.tidy

theorem Works.stands {k' : Desk} (works : Works sch k k' w v) (stands : Stands sch k w st) :
    Stands sch { k with store := v.store } v st where
  here := by
    have here := stands.here
    unfold World.station? at here ⊢
    rw [works.stations]
    exact here
  scheduler := stands.scheduler
  store := rfl
  held := stands.held
  distinct := by
    rw [works.ids]
    exact stands.distinct
  plain := works.plain

/-- A worker whose work is over is taken off the list of claims. -/
theorem Works.reaches {n : Nat} {scan : Scan} {d : Delivery} {stage : Worker.Stage}
    (works : Works sch k (k.reached n scan d stage v.store) w v) (stands : Stands sch k w st) :
    Stands sch (k.reached n scan d stage v.store) (if stage.isOver then v.dropHeld sch.id d.id else v)
      { st with held := if stage.isOver then st.held.filter (· ≠ d.id) else st.held } := by
  have stands' := works.stands stands
  unfold reached
  cases stage.isOver with
  | false => exact { stands' with }
  | true =>
    have dropped : v.dropHeld sch.id d.id = v.setStation { st with held := st.held.filter (· ≠ d.id) } := by
      unfold World.dropHeld
      rw [stands'.here]
    simp only [if_true]
    rw [dropped]
    exact stands'.setStation _ _ stands.scheduler rfl (congrArg (List.filter _) stands.held)

/-- What a scheduler holds during a scan its workers are still at after one of them moved. -/
theorem tidy_moved {scan : Scan} {id : Uuid} {j : Worker} (turn : scan.turn? id = some j)
    (alone : (scan.unfinished.map (·.delivery.id)).Nodup) {held : List Uuid} (own : held.Nodup)
    (known : ∀ x ∈ held, x ∈ scan.unfinished.map (·.delivery.id)) {errands : List Rehearsal.Errand}
    (plain : ∀ e ∈ errands, e.reply.Plain) (h : Uuid) (n : Nat) (stage : Worker.Stage) (ticker : Ticker) :
    Tidy h (if stage.isOver then held.filter (· ≠ id) else held)
      (.scanning ticker ⟨h, some (scan.moved n j.delivery stage), errands⟩) := by
  obtain ⟨rest, old, new⟩ := Scan.ids_moved turn n stage
  have alone' := old.nodup_iff.mp alone
  have known' : ∀ x ∈ held, x ∈ id :: rest := fun x hx => old.mem_iff.mp (known x hx)
  refine ⟨rfl, plain, new.nodup_iff.mpr ?_, ?_, fun x hx => new.mem_iff.mpr ?_⟩
  · split
    · exact alone'.of_cons
    · exact alone'
  · split
    · exact own.filter _
    · exact own
  · split at hx
    · next ends =>
      obtain ⟨member, apart⟩ := List.mem_filter.mp hx
      rw [if_pos ends]
      exact (List.mem_cons.mp (known' x member)).resolve_left (of_decide_eq_true apart)
    · next going =>
      rw [if_neg going]
      exact known' x hx

inductive Comes (ticker : Ticker) : Rehearsal.Move Run → World → Phase → Prop
  | moved (v : World) (run : Run) : Comes ticker (.moved v run) v (.scanning ticker run)
  | finished (v : World) (result : Except Dispatch.Error Report) : Comes ticker (.finished v result) v (.waiting ticker)
  | aborted (v : World) : Comes ticker (.aborted v) v .ended

/-- The scan claims its batch. -/
theorem Shows.claims (shows : Shows sch k w st p) {ticker : Ticker} {run : Run}
    (phase : p.phase = .scanning ticker run) (unclaimed : run.scan = none) {phase' : Phase}
    (comes : Comes ticker (w.moveRun p.stopping run) v phase') :
    ∃ st', Shows sch (k.run sch [.begin w.clock, .runClaim, .unpack]) (v.setPhase sch.id p phase') st'
      { p with phase := phase' } ∧ st'.wakeup = st.wakeup := by
  obtain ⟨holder, scan, errands⟩ := run
  obtain rfl : scan = none := unclaimed
  obtain rfl := shows.scheduler
  have tidy := shows.tidy
  have loop := shows.loop
  rw [phase] at tidy loop
  obtain ⟨rfl, rfl, unheld⟩ := tidy
  have unheld' : k.held = [] := shows.held.trans unheld
  rw [run_claim loop]
  unfold World.moveRun at comes
  rw [shows.here] at comes
  dsimp only at comes
  rw [← shows.store] at comes
  cases call : Scan.claim st.scheduler w.clock k.store with
  | error e =>
    rw [call] at comes
    cases comes
    have stands : Stands st.scheduler { k with loop := .resting, last := some (.error e) } w st :=
      { shows.toStands with }
    exact ⟨_, stands.setPhase p (.waiting ticker) rfl shows.stop unheld, rfl⟩
  | ok r =>
    obtain ⟨batch, store⟩ := r
    rw [call] at comes
    cases comes
    obtain ⟨-, -, -, -, -, batched⟩ := Store.claimDue_ok call
    have distinct : (store.deliveries.map (·.id)).Nodup := by
      rw [Store.claimDue_ids call, shows.store]
      exact shows.distinct
    have own := batched (shows.store ▸ shows.distinct)
    have stands : Stands st.scheduler { k with store } { w with store } st :=
      ⟨shows.here, rfl, rfl, shows.held, distinct, shows.plain.present, shows.plain.fallback,
        shows.plain.queued⟩
    have claimed : Stands st.scheduler { k with
        store
        held := k.held ++ batch.map (·.id)
        loop := .scanning ((Scan.ofBatch batch).fill st.scheduler.config.concurrency) fun _ => none } _ _ :=
      stands.setStation _ { st with held := st.held ++ batch.map (·.id) } rfl rfl
        (congrArg (· ++ _) shows.held)
    refine ⟨_, claimed.setPhase p (.scanning ticker ⟨_, some _, []⟩) rfl shows.stop ?_, rfl⟩
    unfold Tidy
    dsimp only
    rw [Scan.unfinished_fill, Scan.unfinished_ofBatch, List.map_map, unheld, List.nil_append]
    exact ⟨rfl, fun e he => (by cases he), own, own, fun id hid => hid⟩

/-- The scan does something for one of its workers, or is over. -/
theorem Shows.scans (shows : Shows sch k w st p) {ticker : Ticker} {run : Run}
    (phase : p.phase = .scanning ticker run) {scan : Scan} (claimed : run.scan = some scan) {phase' : Phase}
    (comes : Comes ticker (w.moveRun p.stopping run) v phase') :
    ∃ hs st', (∀ h ∈ hs, Beacon.isWork h = true) ∧
      Shows sch (k.run sch hs) (v.setPhase sch.id p phase') st' { p with phase := phase' } ∧
        st'.wakeup = st.wakeup := by
  obtain ⟨holder, scan', errands⟩ := run
  obtain rfl : scan' = some scan := claimed
  obtain rfl := shows.scheduler
  have tidy := shows.tidy
  have loop := shows.loop
  rw [phase] at tidy loop
  obtain ⟨rfl, plain, alone, own, known⟩ := tidy
  unfold World.moveRun at comes
  rw [shows.here] at comes
  dsimp only at comes
  rw [← shows.stopping] at comes
  split at comes
  · next done =>
    cases comes
    have unheld : st.held = [] := by
      refine List.eq_nil_iff_forall_not_mem.mpr fun id hid => ?_
      have still := known id hid
      rw [scan.isDone_iff.mp done] at still
      cases still
    have stands : Stands st.scheduler { k with loop := .resting, last := some (.ok scan.report) } w st :=
      { shows.toStands with }
    have happens : k.run st.scheduler [.finish] = { k with loop := .resting, last := some (.ok scan.report) } := by
      change k.step st.scheduler .finish = _
      rw [step, loop]
      exact if_pos done
    have rests := stands.setPhase p (.waiting ticker) rfl shows.stop unheld
    rw [← happens] at rests
    exact ⟨[.finish], _, fun h hh => List.mem_singleton.mp hh ▸ rfl, rests, rfl⟩
  · have active := Scan.active_distinct alone
    rcases w.moveFirst_cases st.scheduler k.stopping ⟨st.scheduler.id, some scan, errands⟩ scan [] scan.active with
      blocked | ⟨before, j, after, split, ⟨v', aborted, same⟩ | ⟨v', errands', stage, moved, same⟩⟩
    · rw [blocked] at comes
      cases comes
    · have works : Showing st.scheduler k scan j.delivery w _ :=
        moveWorker_showing shows.store shows.plain loop active split plain
      rw [aborted] at works
      rw [same] at comes
      cases comes
      have works' : Works st.scheduler k k.broken w (v'.dropErrands errands) :=
        works.then_same rfl rfl ⟨works.plain.present, works.plain.fallback, works.plain.queued⟩
      have stands : Stands st.scheduler k.broken (v'.dropErrands errands) st :=
        { works'.stands shows.toStands with store := works'.store }
      have ended := stands.setPhase p .ended rfl shows.stop trivial
      obtain ⟨hs, work, happens⟩ := works'.happened
      rw [← happens] at ended
      exact ⟨hs, _, work, ended, rfl⟩
    · have works : Showing st.scheduler k scan j.delivery w _ :=
        moveWorker_showing shows.store shows.plain loop active split plain
      rw [moved] at works
      rw [same, List.reverse_nil, List.nil_append, ← Scan.moved_of_split active split] at comes
      cases comes
      obtain ⟨works, plain'⟩ := works
      obtain ⟨hs, work, happens⟩ := works.happened
      have turn := Scan.turn_of_split active split
      have stands := works.reaches shows.toStands
      have tidy := tidy_moved turn alone own known plain' st.scheduler.id st.scheduler.config.concurrency stage ticker
      have moved' := stands.setPhase p _ rfl shows.stop tidy
      rw [← happens] at moved'
      exact ⟨hs, _, work, moved', rfl⟩

def Happening.ofLoop : Happening → Bool
  | .other (.releaseExpired _) | .wake | .begin _ | .runClaim | .leave => true
  | h => Beacon.isWork h

theorem Happening.ofLoop_work {h : Happening} (work : Beacon.isWork h = true) : h.ofLoop = true := by
  cases h with
  | unpack | hand | run | take | answer | finish | breakDown => rfl
  | other | wake | begin | runClaim | leave | ask | giveUp | release | depart => cases work

theorem run_leave (rests : k.loop = .resting) (asked : k.stop = .asked) : k.run sch [.leave] = k.broken := by
  obtain ⟨store, held, loop, stop, last⟩ := k
  obtain rfl : loop = .resting := rests
  obtain rfl : stop = .asked := asked
  rfl

theorem run_wake (rests : k.loop = .resting) (unasked : k.stop = .unasked) :
    k.run sch [.wake] = { k with loop := .sweeping } := by
  obtain ⟨store, held, loop, stop, last⟩ := k
  obtain rfl : loop = .resting := rests
  obtain rfl : stop = .unasked := unasked
  rfl

theorem run_ask {stopping : Bool} (stop : k.stop = if stopping then .asked else .unasked) :
    k.run sch [.ask] = { k with stop := .asked } := by
  obtain ⟨store, held, loop, stop', last⟩ := k
  cases stopping with
  | false =>
    obtain rfl : stop' = .unasked := stop
    rfl
  | true =>
    obtain rfl : stop' = .asked := stop
    rfl

theorem run_other (call : Store.Call) (foreign : call.Foreign sch.id k.store) :
    k.run sch [.other call] = { k with store := k.store.after call } := if_pos foreign

/-- The loop ends its rest, unless it is being stopped. -/
theorem Shows.wakes (shows : Shows sch k w st p) {ticker : Ticker} (phase : p.phase = .waiting ticker)
    (going : p.stopping = false) (wakeup : Wakeup) (ticker' : Ticker) : Shows sch (k.run sch [.wake])
      ((w.setStation { st with wakeup }).setPhase sch.id p (.sweeping ticker'))
      { st with wakeup, poller := some { p with phase := .sweeping ticker' } }
      { p with phase := .sweeping ticker' } := by
  have loop := shows.loop
  have stop := shows.stop
  have tidy := shows.tidy
  rw [phase] at loop tidy
  rw [going] at stop
  rw [run_wake loop stop]
  have stands : Stands sch { k with loop := .sweeping } _ _ :=
    shows.toStands.setStation _ { st with wakeup } shows.scheduler rfl shows.held
  exact stands.setPhase p _ rfl shows.stop tidy

/-- Claims that ended are dropped before a scan. -/
theorem Shows.sweeps (shows : Shows sch k w st p) {ticker : Ticker} (phase : p.phase = .sweeping ticker) :
    Shows sch (k.run sch [.other (.releaseExpired w.clock)])
      (({ w with store := w.store.wrote (w.store.releaseExpired w.clock) } : World).setPhase sch.id p
        (.scanning ticker { scheduler := sch.id }))
      { st with poller := some { p with phase := .scanning ticker { scheduler := sch.id } } }
      { p with phase := .scanning ticker { scheduler := sch.id } } := by
  have loop := shows.loop
  have tidy := shows.tidy
  rw [phase] at loop tidy
  rw [run_other (.releaseExpired w.clock) trivial]
  have swept : k.store.after (.releaseExpired w.clock) = w.store.wrote (w.store.releaseExpired w.clock) := by
    rw [shows.store]
    rfl
  have sheds := Store.foreign_sheds (h := sch.id) (s := w.store) (.releaseExpired w.clock) trivial
  have stands : Stands sch { k with store := k.store.after (.releaseExpired w.clock) }
      { w with store := w.store.wrote (w.store.releaseExpired w.clock) } st :=
    ⟨shows.here, shows.scheduler, swept, shows.held, sheds.distinct shows.distinct, shows.plain.present,
      shows.plain.fallback, shows.plain.queued⟩
  exact stands.setPhase p _ loop shows.stop ⟨rfl, rfl, tidy⟩

theorem alone_ofLoop {h : Happening} (own : h.ofLoop = true) : ∀ g ∈ [h], Happening.ofLoop g = true :=
  fun _ hg => List.mem_singleton.mp hg ▸ own

/-- What happens to the desk when the scan makes a move. -/
theorem Shows.scanning (shows : Shows sch k w st p) {ticker : Ticker} {run : Run}
    (phase : p.phase = .scanning ticker run) {phase' : Phase}
    (comes : Comes ticker (w.moveRun p.stopping run) v phase') :
    ∃ hs st' p', Shows sch (k.run sch hs) (v.setPhase sch.id p phase') st' p' ∧ p'.stopping = p.stopping ∧
      ∀ h ∈ hs, Happening.ofLoop h = true := by
  cases claimed : run.scan with
  | none =>
    obtain ⟨st', next, -⟩ := shows.claims phase claimed comes
    refine ⟨_, st', _, next, rfl, fun h hh => ?_⟩
    simp only [List.mem_cons, List.not_mem_nil, or_false] at hh
    rcases hh with rfl | rfl | rfl <;> rfl
  | some scan =>
    obtain ⟨hs, st', work, next, -⟩ := shows.scans phase claimed comes
    exact ⟨hs, st', _, next, rfl, fun h hh => Happening.ofLoop_work (work h hh)⟩

/-- Whatever the loop does, the desk can do. -/
theorem Shows.polls (shows : Shows sch k w st p) (interval : sch.config.scanInterval.nanos ≠ 0)
    (moved : w.movePoller st p = some v) : ∃ hs st' p', Shows sch (k.run sch hs) v st' p' ∧
      p'.stopping = p.stopping ∧ ∀ h ∈ hs, Happening.ofLoop h = true := by
  obtain rfl := shows.scheduler
  have loop := shows.loop
  have tidy := shows.tidy
  cases World.movePoller_polls moved with
  | starts phase =>
    rw [phase] at loop tidy
    rw [if_neg interval]
    exact ⟨[], _, _, shows.toStands.setPhase p _ loop shows.stop tidy, rfl, fun h hh => (by cases hh)⟩
  | leaves phase asked =>
    rw [phase] at loop
    have stop := shows.stop
    rw [asked] at stop
    have stands : Stands st.scheduler k.broken _ _ :=
      shows.toStands.setStation _ { st with wakeup := st.wakeup.cancel } rfl rfl shows.held
    have left := stands.setPhase p .ended rfl shows.stop trivial
    rw [← run_leave loop stop] at left
    exact ⟨_, _, _, left, rfl, alone_ofLoop rfl⟩
  | ticks phase going | wakes phase going => exact ⟨_, _, _, shows.wakes phase going _ _, rfl, alone_ofLoop rfl⟩
  | rests phase going =>
    have stands := shows.toStands.setStation k { st with wakeup := st.wakeup.poll.2 } rfl rfl
      shows.held
    exact ⟨[], _, _, shows.keeps stands rfl rfl rfl rfl, rfl, fun h hh => (by cases hh)⟩
  | sweeps phase => exact ⟨_, _, _, shows.sweeps phase, rfl, alone_ofLoop rfl⟩
  | scans phase told => exact shows.scanning phase (told ▸ .moved _ _)
  | finishes phase told => exact shows.scanning phase (told ▸ .finished _ _)
  | breaks phase told => exact shows.scanning phase (told ▸ .aborted _)

/-! ### Courses of a rehearsal -/

/-- One thing that happens in a rehearsal: the loop makes a move, it is asked to stop, somebody else calls the store, or
nothing happens to the store and the station but that the loop may be woken. -/
inductive Turn (sch : Scheduler) (others : Store.Call → Prop) (w : World) : World → Prop
  | polls {st : Station} {p : Poller} {v : World} (here : w.station? sch.id = some st) (poller : st.poller = some p)
    (moved : w.movePoller st p = some v) : Turn sch others w v
  | asks {st : Station} {p : Poller} (here : w.station? sch.id = some st) (poller : st.poller = some p) :
    Turn sch others w (w.setStation { st with poller := some { p with stopping := true } })
  | calls {call : Store.Call} (allowed : others call) (foreign : call.Foreign sch.id w.store) :
    Turn sch others w { w with store := w.store.after call }
  | aside {v : World} (store : v.store = w.store) (plain : v.Plain)
    (station : ∀ st, w.station? sch.id = some st → ∃ wakeup, v.station? sch.id = some { st with wakeup }) :
    Turn sch others w v

def Expected (others : Store.Call → Prop) (h : Happening) : Prop :=
  h.ofLoop = true ∨ h = .ask ∨ ∃ call, others call ∧ h = .other call

variable {others : Store.Call → Prop}

theorem Shows.turn (shows : Shows sch k w st p) (interval : sch.config.scanInterval.nanos ≠ 0)
    (turn : Turn sch others w v) :
    ∃ hs st' p', Shows sch (k.run sch hs) v st' p' ∧ ∀ h ∈ hs, Expected others h := by
  cases turn with
  | polls here poller moved =>
    obtain rfl := Option.some.inj (shows.here.symm.trans here)
    obtain rfl := Option.some.inj (shows.poller.symm.trans poller)
    obtain ⟨hs, st', p', next, -, own⟩ := shows.polls interval moved
    exact ⟨hs, st', p', next, fun h hh => .inl (own h hh)⟩
  | asks here poller =>
    obtain rfl := Option.some.inj (shows.here.symm.trans here)
    obtain rfl := Option.some.inj (shows.poller.symm.trans poller)
    have stands : Stands sch { k with stop := .asked } _ _ :=
      shows.toStands.setStation _ { st with poller := some { p with stopping := true } } shows.scheduler rfl
        shows.held
    have asked : Shows sch { k with stop := .asked } _ _ { p with stopping := true } :=
      { toStands := stands, poller := rfl, loop := shows.loop, stop := rfl, tidy := shows.tidy }
    rw [← run_ask shows.stop] at asked
    exact ⟨_, _, _, asked, fun h hh => .inr (.inl (List.mem_singleton.mp hh))⟩
  | @calls call allowed foreign =>
    have foreign' : call.Foreign sch.id k.store := shows.store ▸ foreign
    have sheds := Store.foreign_sheds call foreign
    have stands : Stands sch { k with store := k.store.after call } { w with store := w.store.after call } st :=
      ⟨shows.here, shows.scheduler, congrArg (·.after call) shows.store, shows.held, sheds.distinct shows.distinct,
        shows.plain.present, shows.plain.fallback, shows.plain.queued⟩
    refine ⟨[.other call], st, p, ?_, fun h hh => .inr (.inr ⟨call, allowed, List.mem_singleton.mp hh⟩)⟩
    rw [run_other call foreign']
    exact shows.keeps stands rfl rfl rfl rfl
  | aside store plain station =>
    obtain ⟨wakeup, here⟩ := station st shows.here
    have stands : Stands sch k v { st with wakeup } :=
      ⟨here, shows.scheduler, shows.store.trans store.symm, shows.held, store ▸ shows.distinct, plain⟩
    exact ⟨[], _, p, shows.keeps stands rfl rfl rfl rfl, fun h hh => (by cases hh)⟩

/-- The desk can do all that happens in a rehearsal between the start of the loop and its end. -/
theorem Shows.course (shows : Shows sch k w st p) (interval : sch.config.scanInterval.nanos ≠ 0)
    (course : Relation.ReflTransGen (Turn sch others) w v) :
    ∃ hs st' p', Shows sch (k.run sch hs) v st' p' ∧ ∀ h ∈ hs, Expected others h := by
  induction course with
  | refl => exact ⟨[], st, p, shows, fun h hh => (by cases hh)⟩
  | tail _ turn ih =>
    obtain ⟨hs, st', p', before, expected⟩ := ih
    obtain ⟨more, st'', p'', after, expected'⟩ := before.turn interval turn
    refine ⟨hs ++ more, st'', p'', ?_, fun h hh => (List.mem_append.mp hh).elim (expected h) (expected' h)⟩
    rw [run, List.foldl_append]
    exact after

/-- A station whose loop can be started: no claim of its scheduler stands yet. -/
structure Fresh (sch : Scheduler) (w : World) (st : Station) : Prop where
  here : w.station? sch.id = some st
  scheduler : st.scheduler = sch
  unheld : st.held = []
  distinct : (w.store.deliveries.map (·.id)).Nodup
  unclaimed : ∀ d ∈ w.store.deliveries, d.claimedBy ≠ some sch.id
  plain : w.Plain
  interval : sch.config.scanInterval.nanos ≠ 0

def launched (w : World) (st : Station) : World := w.setStation { st with poller := some ⟨.starting, false⟩ }

/-- So it is with every scheduler that is new. -/
theorem fresh_scheduler (plain : w.Plain) (distinct : (w.store.deliveries.map (·.id)).Nodup)
    (unclaimed : ∀ d ∈ w.store.deliveries, d.claimedBy ≠ some (World.mint 3 w.schedulerCount)) (name : String)
    {config : SchedulerConfig} (interval : config.scanInterval.nanos ≠ 0) :
    Fresh ⟨World.mint 3 w.schedulerCount, config⟩ (w.play (.scheduler name config)).2
      ⟨⟨World.mint 3 w.schedulerCount, config⟩, {}, [], none⟩ where
  here := List.find?_cons_of_pos (by simp)
  scheduler := rfl
  unheld := rfl
  distinct := distinct
  unclaimed := unclaimed
  plain := ⟨plain.present, plain.fallback, plain.queued⟩
  interval := interval

theorem Fresh.shows (fresh : Fresh sch w st) : Shows sch (started w.store) (launched w st)
    { st with poller := some ⟨.starting, false⟩ } ⟨.starting, false⟩ := by
  have stands : Stands sch (started w.store) w st :=
    ⟨fresh.here, fresh.scheduler, rfl, fresh.unheld.symm, fresh.distinct, fresh.plain⟩
  exact {
    toStands := stands.setStation _ _ fresh.scheduler rfl fresh.unheld.symm
    poller := rfl
    loop := rfl
    stop := rfl
    tidy := fresh.unheld }

/-- Whenever the loop waits for its next scan the scheduler holds nothing, if the store could be reached all along. -/
theorem waits_unheld (fresh : Fresh sch w st) (online : w.store.online = true)
    (course : Relation.ReflTransGen (Turn sch fun call => ∀ b, call ≠ .switch b) (launched w st) v)
    {st' : Station} (there : v.station? sch.id = some st') {p' : Poller} (poller : st'.poller = some p')
    {ticker : Ticker} (waits : p'.phase = .waiting ticker) :
    (∀ d ∈ v.store.deliveries, d.claimedBy ≠ some sch.id) ∧ st'.held = [] := by
  obtain ⟨hs, st'', p'', shows, expected⟩ := fresh.shows.course fresh.interval course
  obtain rfl := Option.some.inj (shows.here.symm.trans there)
  obtain rfl := Option.some.inj (shows.poller.symm.trans poller)
  have steady : ∀ h ∈ hs, h.cutsOff = false := by
    intro h hh
    rcases expected h hh with own | rfl | ⟨call, kept, rfl⟩
    · cases h with
      | other call =>
        cases call with
        | switch b => cases own
        | _ => rfl
      | _ => rfl
    · rfl
    · cases call with
      | switch b => exact absurd rfl (kept b)
      | _ => rfl
  have rests : ((started w.store).run sch hs).loop = .resting := by
    have loop := shows.loop
    rw [waits] at loop
    exact loop
  have guards := (guards_started fresh.distinct fresh.unclaimed).run hs
  have nothing : (started w.store).strays sch hs = [] := strays_nothing online steady (by rw [rests]; rfl)
  rw [nothing, List.append_nil] at guards
  obtain ⟨unclaimed', unheld'⟩ := guards.rests_unheld rests
  rw [shows.store] at unclaimed'
  exact ⟨unclaimed', shows.held ▸ unheld'⟩

/-! ### Stopping -/

theorem run_depart (stop : k.stop = .asked ∨ k.stop = .releasing []) (halted : k.loop.isOver = true) :
    k.run sch [.depart] = { k with stop := .returned } := by
  obtain ⟨store, held, loop, stop', last⟩ := k
  cases loop with
  | halted claim calls =>
    rcases stop with rfl | rfl <;> rfl
  | resting | sweeping | claiming | claimed | scanning => cases halted

theorem run_releases {ids : List Uuid} (distinct : ids.Nodup) (stop : k.stop = .releasing ids) :
    k.run sch (ids.map .release) = { k with
      store := ids.foldl (fun s id => s.wrote (s.releaseClaim id sch.id)) k.store
      stop := .releasing [] } := by
  induction ids generalizing k with
  | nil => rw [← stop]; rfl
  | cons id ids ih =>
    rw [List.nodup_cons] at distinct
    have others : (id :: ids).filter (· ≠ id) = ids := by
      rw [List.filter_cons_of_neg (by simp)]
      refine List.filter_eq_self.mpr fun x hx => decide_eq_true ?_
      rintro rfl
      exact distinct.1 hx
    have released : k.step sch (.release id) =
        { k with store := k.store.wrote (k.store.releaseClaim id sch.id), stop := .releasing ids } := by
      rw [step, stop]
      dsimp only
      rw [if_pos List.mem_cons_self, others]
    change (k.step sch (.release id)).run sch (ids.map .release) = _
    rw [released, ih distinct.2 rfl]
    rfl

/-- Giving the loop up from the end of the time of grace to the return. -/
theorem run_giveUp (stop : k.stop = .asked) (distinct : k.held.Nodup) :
    k.run sch (.giveUp :: (k.held.map .release ++ [.depart])) = { k with
      store := k.held.foldl (fun s id => s.wrote (s.releaseClaim id sch.id)) k.store
      held := []
      loop := k.loop.ended
      stop := .returned } := by
  have gaveUp : k.step sch .giveUp = { k with loop := k.loop.ended, stop := .releasing k.held, held := [] } := by
    rw [step, stop]
  change (k.step sch .giveUp).run sch (k.held.map .release ++ [.depart]) = _
  rw [gaveUp, run, List.foldl_append]
  change run sch (run sch _ (k.held.map .release)) [.depart] = _
  rw [run_releases distinct rfl, run_depart (.inr rfl) (Loop.ended_over _)]

theorem Shows.held_distinct (shows : Shows sch k w st p) (going : p.phase ≠ .ended) : st.held.Nodup := by
  have tidy := shows.tidy
  cases phase : p.phase with
  | ended => exact absurd phase going
  | starting | waiting | sweeping =>
    rw [phase] at tidy
    rw [show st.held = [] from tidy]
    exact .nil
  | scanning ticker run =>
    rw [phase] at tidy
    obtain ⟨holder, scan, errands⟩ := run
    cases scan with
    | none =>
      rw [show st.held = [] from tidy.2.2]
      exact .nil
    | some scan => exact tidy.2.2.2.1

/-- Who stopped the loop returns when it ended, or gives it up and hands back what it held. -/
theorem Shows.stops (shows : Shows sch k w st p) (asked : p.stopping = true) {t : Nat} {a : Answer}
    (ended : w.ended? (.stop sch.id t) = some (a, v)) :
    ∃ hs, (k.run sch hs).stop = .returned ∧ (k.run sch hs).store = v.store := by
  have stop := shows.stop
  rw [asked] at stop
  unfold World.ended? at ended
  dsimp only at ended
  rw [shows.here] at ended
  dsimp only at ended
  rw [shows.poller] at ended
  dsimp only at ended
  split at ended
  · next halted =>
    cases ended
    have loop := shows.loop
    rw [halted] at loop
    refine ⟨[.depart], ?_⟩
    rw [run_depart (.inl stop) (by rw [loop]; rfl)]
    exact ⟨rfl, shows.store⟩
  · next going =>
    split at ended
    · cases ended
      have distinct := shows.held_distinct going
      refine ⟨.giveUp :: (k.held.map .release ++ [.depart]), ?_⟩
      rw [run_giveUp stop (shows.held ▸ distinct)]
      refine ⟨rfl, ?_⟩
      rw [World.releaseHeld_eq, shows.held, shows.store, shows.scheduler]
      rfl
    · cases ended

/-- Whenever a loop that was started over a store without its claims is stopped, all that its scheduler still holds is
among what it lost sight of. -/
theorem stop_leaves_strays (fresh : Fresh sch w st)
    (course : Relation.ReflTransGen (Turn sch others) (launched w st) v)
    {st' : Station} (there : v.station? sch.id = some st') {p' : Poller} (poller : st'.poller = some p')
    (asked : p'.stopping = true) {t : Nat} {a : Answer} {u : World}
    (ended : v.ended? (.stop sch.id t) = some (a, u)) :
    ∃ hs, ((started w.store).run sch hs).stop = .returned ∧ ((started w.store).run sch hs).store = u.store ∧
      ∀ d ∈ u.store.deliveries, d.claimedBy = some sch.id → d.id ∈ (started w.store).strays sch hs := by
  obtain ⟨hs, st'', p'', shows, -⟩ := fresh.shows.course fresh.interval course
  obtain rfl := Option.some.inj (shows.here.symm.trans there)
  obtain rfl := Option.some.inj (shows.poller.symm.trans poller)
  obtain ⟨more, returned, store⟩ := shows.stops asked ended
  have whole : (started w.store).run sch (hs ++ more) = ((started w.store).run sch hs).run sch more := List.foldl_append
  rw [← whole] at returned store
  have guards := (guards_started fresh.distinct fresh.unclaimed).run (hs ++ more)
  have left := guards.returned_holds returned
  rw [store] at left
  exact ⟨hs ++ more, returned, store, left⟩

end Desk

end Courier
