import Courier.Proofs.ExpiredClaims
import Courier.Proofs.PlayedLoop
set_option autoImplicit false

namespace Courier

theorem Store.releaseExpired_first (s : Store) : s.wrote (s.releaseExpired .first) = s := by
  have good : ∀ d : Delivery, hasExpired .first d = false := by
    intro d
    refine Bool.eq_false_iff.mpr (not_hasExpired_iff.mpr fun till _ => ?_)
    have later := till.first_le
    rw [Instant.le_def]
    dsimp only [Instant.first]
    omega
  unfold releaseExpired whenOnline
  split
  · simp [wrote, good]
  · rfl

namespace Beacon

open Rehearsal

variable {sch : Scheduler} {x : Beacon} {w v : World} {st : Station} {p : Poller}

structure Shows (sch : Scheduler) (x : Beacon) (w : World) (st : Station) (p : Poller) : Prop where
  desk : Desk.Shows sch x.desk w st p
  wakeup : x.wakeup = st.wakeup
  going : p.stopping = false

theorem run_works {hs : List Desk.Happening} (work : ∀ h ∈ hs, isWork h = true) :
    x.run sch (hs.map .work) = { x with desk := x.desk.run sch hs } := by
  induction hs generalizing x with
  | nil => rfl
  | cons h hs ih =>
    have first : x.step sch (.work h) = { x with desk := x.desk.step sch h } := if_pos (work h List.mem_cons_self)
    change (x.step sch (.work h)).run sch (hs.map .work) = _
    rw [first, ih fun g hg => work g (List.mem_cons_of_mem _ hg)]
    rfl

/-- Claims are not dropped twice: the sweep before a scan has been made, and no claim ends before the first instant. -/
theorem run_claims (sweeping : x.desk.loop = .sweeping) (now : Instant) :
    x.run sch [.sweep .first now, .claim, .work .unpack] =
      { x with desk := x.desk.run sch [.begin now, .runClaim, .unpack], scans := x.scans + 1 } := by
  have swept : x.step sch (.sweep .first now) = { x with desk := x.desk.step sch (.begin now) } := by
    rw [step, sweeping]
    dsimp only
    unfold withStore
    rw [Store.releaseExpired_first]
  have claiming : (x.desk.step sch (.begin now)).loop = .claiming now := begin_loop sch sweeping x.desk.store
  have claimed : (x.step sch (.sweep .first now)).step sch .claim =
      { x with desk := (x.desk.step sch (.begin now)).step sch .runClaim, scans := x.scans + 1 } := by
    rw [swept, step]
    dsimp only
    rw [claiming]
  change ((x.step sch (.sweep .first now)).step sch .claim).step sch (.work .unpack) = _
  rw [claimed]
  rfl

theorem Shows.rests (shows : Shows sch x w st p) {ticker : Ticker} (phase : p.phase = .waiting ticker) :
    x.desk.loop = .resting ∧ x.desk.stop = .unasked := by
  have loop := shows.desk.loop
  have stop := shows.desk.stop
  rw [phase] at loop
  rw [shows.going] at stop
  exact ⟨loop, stop⟩

/-- The rest of the loop is over, whatever ended it. -/
theorem Shows.wakes (shows : Shows sch x w st p) {ticker : Ticker} (phase : p.phase = .waiting ticker)
    (wakeup : Wakeup) (ticker' : Ticker) : Shows sch (x.wake wakeup)
      ((w.setStation { st with wakeup }).setPhase sch.id p (.sweeping ticker'))
      { st with wakeup, poller := some { p with phase := .sweeping ticker' } }
      { p with phase := .sweeping ticker' } := by
  obtain ⟨loop, stop⟩ := shows.rests phase
  have desk := shows.desk.wakes phase shows.going wakeup ticker'
  rw [Desk.run_wake loop stop] at desk
  exact ⟨desk, rfl, shows.going⟩

def claims : Phase → Bool
  | .scanning _ ⟨_, none, _⟩ => true
  | _ => false

/-- The moves of the beacon that a move of the scan comes to. -/
theorem Shows.scans (shows : Shows sch x w st p) {ticker : Ticker} {run : Run} (phase : p.phase = .scanning ticker run)
    {phase' : Phase} (comes : Desk.Comes ticker (w.moveRun p.stopping run) v phase') :
    ∃ moves st' p', Shows sch (x.run sch moves) (v.setPhase sch.id p phase') st' p' ∧
      (x.run sch moves).scans = x.scans + (claims p.phase).toNat := by
  have loop := shows.desk.loop
  rw [phase] at loop ⊢
  obtain ⟨holder, claimed, errands⟩ := run
  cases claimed with
  | none =>
    obtain ⟨st', next, wakeup⟩ := shows.desk.claims phase rfl comes
    refine ⟨[.sweep .first w.clock, .claim, .work .unpack], st', { p with phase := phase' }, ?_⟩
    rw [run_claims loop]
    exact ⟨⟨next, shows.wakeup.trans wakeup.symm, shows.going⟩, rfl⟩
  | some scan =>
    obtain ⟨hs, st', work, next, wakeup⟩ := shows.desk.scans phase rfl comes
    refine ⟨hs.map .work, st', { p with phase := phase' }, ?_⟩
    rw [run_works work]
    exact ⟨⟨next, shows.wakeup.trans wakeup.symm, shows.going⟩, rfl⟩

theorem run_tick (rests : x.desk.loop = .resting) : x.run sch [.tick] = x.wake x.wakeup.cancel := by
  change x.step sch .tick = _
  rw [step, rests]

theorem run_look (rests : x.desk.loop = .resting) : x.run sch [.look] =
    if x.wakeup.poll.1 then x.wake x.wakeup.poll.2 else { x with wakeup := x.wakeup.poll.2 } := by
  change x.step sch .look = _
  rw [step, rests]

/-- Whatever the loop does, the beacon can do, and it counts the claims. -/
theorem Shows.polls (shows : Shows sch x w st p) (interval : sch.config.scanInterval.nanos ≠ 0)
    (moved : w.movePoller st p = some v) : ∃ moves st' p', Shows sch (x.run sch moves) v st' p' ∧
      (x.run sch moves).scans = x.scans + (claims p.phase).toNat := by
  obtain rfl := shows.desk.scheduler
  cases World.movePoller_polls moved with
  | starts phase =>
    have loop := shows.desk.loop
    have tidy := shows.desk.tidy
    rw [phase] at loop tidy
    rw [if_neg interval]
    refine ⟨[], _, _, ⟨shows.desk.toStands.setPhase p _ loop shows.desk.stop tidy, shows.wakeup, shows.going⟩, ?_⟩
    rw [phase]
    rfl
  | leaves phase asked => cases shows.going.symm.trans asked
  | @ticks ticker phase =>
    have ticked : x.run st.scheduler [.tick] = x.wake st.wakeup.cancel := shows.wakeup ▸ run_tick (shows.rests phase).1
    have awake := shows.wakes phase st.wakeup.cancel (ticker.tick w.time)
    rw [← ticked] at awake
    refine ⟨_, _, _, awake, ?_⟩
    rw [ticked, phase]
    rfl
  | @wakes ticker phase going rings =>
    have woken : x.run st.scheduler [.look] = x.wake st.wakeup.poll.2 := by
      rw [run_look (shows.rests phase).1, shows.wakeup]
      exact if_pos rings
    have awake := shows.wakes phase st.wakeup.poll.2 ticker
    rw [← woken] at awake
    refine ⟨_, _, _, awake, ?_⟩
    rw [woken, phase]
    rfl
  | rests phase going silent =>
    have slept : x.run st.scheduler [.look] = { x with wakeup := st.wakeup.poll.2 } := by
      rw [run_look (shows.rests phase).1, shows.wakeup]
      exact if_neg (by rw [silent]; exact Bool.false_ne_true)
    have stands := shows.desk.toStands.setStation x.desk { st with wakeup := st.wakeup.poll.2 } rfl rfl
      shows.desk.held
    have rested : Shows st.scheduler { x with wakeup := st.wakeup.poll.2 } _ _ p :=
      ⟨shows.desk.keeps stands rfl rfl rfl rfl, rfl, shows.going⟩
    rw [← slept] at rested
    refine ⟨_, _, _, rested, ?_⟩
    rw [slept, phase]
    rfl
  | sweeps phase =>
    have swept := shows.desk.sweeps phase
    rw [Desk.run_other (.releaseExpired w.clock) trivial] at swept
    refine ⟨[.other (.releaseExpired w.clock)], _, _, ⟨swept, shows.wakeup, shows.going⟩, ?_⟩
    rw [phase]
    rfl
  | scans phase told => exact shows.scans phase (told ▸ .moved _ _)
  | finishes phase told => exact shows.scans phase (told ▸ .finished _ _)
  | breaks phase told => exact shows.scans phase (told ▸ .aborted _)

/-! ### Dispatches -/

def dispatching (x : Beacon) (e : Event) (dueAt : Instant) (ids : Nat → Uuid) (now : Instant) : List Move :=
  [.call e, .find x.calls.length, .create x.calls.length dueAt ids now, .notify x.calls.length]

def add (x : Beacon) (stage : Stage) : Beacon := { x with calls := x.calls ++ [stage] }

theorem get_add (x : Beacon) (stage : Stage) : (x.add stage).calls[x.calls.length]? = some stage :=
  List.getElem?_concat_length

theorem set_add (x : Beacon) (stage stage' : Stage) : (x.add stage).set x.calls.length stage' = x.add stage' := by
  unfold add set
  simp

theorem notify_add (x : Beacon) (created : List Delivery) (n : Nat) :
    (x.add (.written created n)).step sch (.notify x.calls.length) =
      { x.add (.returned created n) with wakeup := x.wakeup.notify } := by
  rw [step, get_add]
  dsimp only
  rw [set_add]
  rfl

theorem desk_add (x : Beacon) (stage : Stage) : (x.add stage).desk = x.desk := rfl

/-- What a dispatch comes to by its first call, after so many scans. -/
def Stage.ofTargets (e : Event) (scans : Nat) : Except Dispatch.Error (List Webhook) → Stage
  | .error err => .failed err
  | .ok [] => .returned [] scans
  | .ok (w :: ws) => .found e (w :: ws)

theorem find_add (x : Beacon) (e : Event) : (x.add (.called e)).step sch (.find x.calls.length) =
    x.add (.ofTargets e x.scans (Dispatch.targets x.desk.store e)) := by
  rw [step, get_add]
  dsimp only
  rw [desk_add]
  rcases Dispatch.targets x.desk.store e with err | _ | ⟨w, ws⟩ <;> exact set_add x _ _

theorem create_failed {e : Event} {dueAt now : Instant} {ws : List Webhook} {ids : Nat → Uuid} {err : Dispatch.Error}
    (failed : Dispatch.write x.desk.store e dueAt ws ids now = .error err) :
    (x.add (.found e ws)).step sch (.create x.calls.length dueAt ids now) = x.add (.failed err) := by
  rw [step, get_add]
  dsimp only
  rw [desk_add, failed]
  exact set_add x _ _

theorem create_written {e : Event} {dueAt now : Instant} {ws : List Webhook} {ids : Nat → Uuid} {ds : List Delivery}
    {s : Store} (written : Dispatch.write x.desk.store e dueAt ws ids now = .ok (ds, s)) :
    (x.add (.found e ws)).step sch (.create x.calls.length dueAt ids now) =
      (x.withStore s).add (.written ds x.scans) := by
  rw [step, get_add]
  dsimp only
  rw [desk_add, written]
  exact set_add (x.withStore s) _ _

/-- A dispatch that is over stays as it is. -/
theorem over_stays (sch : Scheduler) (x : Beacon) {stage : Stage}
    (past : (∃ err, stage = .failed err) ∨ ∃ created n, stage = .returned created n)
    (dueAt : Instant) (ids : Nat → Uuid) (now : Instant) :
    (x.add stage).step sch (.create x.calls.length dueAt ids now) = x.add stage ∧
      (x.add stage).step sch (.notify x.calls.length) = x.add stage := by
  constructor <;>
  · rw [step, get_add]
    rcases past with ⟨err, rfl⟩ | ⟨created, n, rfl⟩ <;> rfl

theorem run_dispatching (x : Beacon) (e : Event) (dueAt : Instant) (ids : Nat → Uuid) (now : Instant) :
    x.run sch (x.dispatching e dueAt ids now) =
      match Dispatch.run x.desk.store e dueAt ids now with
      | .error err => x.add (.failed err)
      | .ok (created, s) =>
        { (x.withStore s).add (.returned created x.scans) with
          wakeup := if created.isEmpty then x.wakeup else x.wakeup.notify } := by
  change (((x.add (.called e)).step sch (.find x.calls.length)).step sch
    (.create x.calls.length dueAt ids now)).step sch (.notify x.calls.length) = _
  unfold Dispatch.run
  cases found : Dispatch.targets x.desk.store e with
  | error err =>
    obtain ⟨uncreated, silent⟩ := over_stays sch x (.inl ⟨err, rfl⟩) dueAt ids now
    rw [find_add, found, Stage.ofTargets, uncreated, silent]
  | ok webhooks =>
    cases webhooks with
    | nil =>
      obtain ⟨uncreated, silent⟩ := over_stays sch x (.inr ⟨[], x.scans, rfl⟩) dueAt ids now
      rw [find_add, found, Stage.ofTargets, uncreated, silent]
      rfl
    | cons w webhooks =>
      rw [find_add, found, Stage.ofTargets]
      dsimp only
      cases written : Dispatch.write x.desk.store e dueAt (w :: webhooks) ids now with
      | error err => rw [create_failed written, (over_stays sch x (.inl ⟨err, rfl⟩) dueAt ids now).2]
      | ok r =>
        obtain ⟨ds, s⟩ := r
        have some : ds.isEmpty = false := by
          obtain ⟨-, -, rfl, -⟩ := Dispatch.write_ok written
          rfl
        dsimp only
        rw [create_written written, some]
        exact notify_add (x.withStore s) ds x.scans

/-- A dispatch that wakes the loop is the steps of the beacon, and what it returns is returned there. -/
theorem Shows.dispatches (shows : Shows sch x w st p) (e : Event)
    (distinct : ((w.dispatch (some (.scheduler sch.id)) e).2.store.deliveries.map (·.id)).Nodup) :
    let y := x.run sch (x.dispatching e w.clock w.nextDeliveries w.wall)
    (∃ st', Shows sch y (w.dispatch (some (.scheduler sch.id)) e).2 st' p) ∧
      ∀ ds, (w.dispatch (some (.scheduler sch.id)) e).1 = .ok ds → .returned ds x.scans ∈ y.calls := by
  intro y
  have ends : y = _ := run_dispatching x e w.clock w.nextDeliveries w.wall
  rw [shows.desk.store] at ends
  cases ran : Dispatch.run w.store e w.clock w.nextDeliveries w.wall with
  | error err =>
    rw [ran] at ends
    rw [ends, World.dispatch_error ran]
    exact ⟨⟨st, shows.desk, shows.wakeup, shows.going⟩, fun ds ok => by cases ok⟩
  | ok r =>
    obtain ⟨ds, s⟩ := r
    rw [(w.dispatch_aside _ e).2, ran] at distinct
    rw [ran] at ends
    rw [ends, World.dispatch_ok ran]
    have stands : Desk.Stands sch { x.desk with store := s } (({ w with store := s } : World).nameDeliveries ds.length)
        st :=
      ⟨shows.desk.here, shows.desk.scheduler, rfl, shows.desk.held, distinct, shows.desk.plain.present,
        shows.desk.plain.fallback, shows.desk.plain.queued⟩
    refine ⟨?_, ?_⟩
    · dsimp only
      split
      · exact ⟨st, shows.desk.keeps stands rfl rfl rfl rfl, shows.wakeup, shows.going⟩
      · have woken : (({ w with store := s } : World).nameDeliveries ds.length).notify (some (.scheduler sch.id)) =
            (({ w with store := s } : World).nameDeliveries ds.length).setStation
              { st with wakeup := st.wakeup.notify } := by
          unfold World.notify
          dsimp only
          rw [stands.here]
        rw [woken]
        have stands' := stands.setStation { x.desk with store := s } { st with wakeup := st.wakeup.notify }
          shows.desk.scheduler rfl shows.desk.held
        exact ⟨_, shows.desk.keeps stands' rfl rfl rfl rfl, congrArg Wakeup.notify shows.wakeup, shows.going⟩
    · rintro _ ⟨⟩
      exact List.mem_append_right _ List.mem_cons_self

theorem mem_set {i : Nat} {old new stage : Stage} (there : x.calls[i]? = some old) (other : stage ≠ old)
    (mem : stage ∈ x.calls) : stage ∈ (x.set i new).calls := by
  obtain ⟨j, here⟩ := List.getElem?_of_mem mem
  have apart : i ≠ j := by
    rintro rfl
    exact other (Option.some.inj (here.symm.trans there))
  exact List.mem_of_getElem? ((List.getElem?_set_ne apart).trans here)

/-- What a dispatch returned is not taken back. -/
theorem returned_step {ds : List Delivery} {n : Nat} (returned : .returned ds n ∈ x.calls) (m : Move) :
    .returned ds n ∈ (x.step sch m).calls := by
  cases m with
  | call e => exact List.mem_append_left _ returned
  | find i =>
    rw [step]
    split
    · next called =>
      split <;> exact mem_set called Stage.noConfusion returned
    · exact returned
  | create i dueAt ids now =>
    rw [step]
    split
    · next found =>
      split
      · exact mem_set found Stage.noConfusion returned
      · exact mem_set (x := x.withStore _) found Stage.noConfusion returned
    · exact returned
  | notify i =>
    rw [step]
    split
    · next written => exact mem_set written Stage.noConfusion returned
    · exact returned
  | look =>
    rw [step]
    split
    · split <;> exact returned
    · exact returned
  | tick | sweep | claim | work =>
    rw [step]
    split <;> exact returned
  | other call => exact returned

theorem returned_run {ds : List Delivery} {n : Nat} (returned : .returned ds n ∈ x.calls) (moves : List Move) :
    .returned ds n ∈ (run sch x moves).calls := by
  induction moves generalizing x with
  | nil => exact returned
  | cons m moves ih => exact ih (returned_step returned m)

/-! ### Courses of a rehearsal -/

/-- One thing that happens while the scheduler is not stopped, and whether it is that the loop claims: the loop makes a
move, an event is dispatched and wakes the loop, somebody else calls the store, or nothing happens to the store and the
station. -/
inductive Turn (sch : Scheduler) : Bool → World → World → Prop
  | polls {w v : World} {st : Station} {p : Poller} (here : w.station? sch.id = some st) (poller : st.poller = some p)
    (moved : w.movePoller st p = some v) : Turn sch (claims p.phase) w v
  | dispatches {w : World} (e : Event)
    (distinct : ((w.dispatch (some (.scheduler sch.id)) e).2.store.deliveries.map (·.id)).Nodup) :
    Turn sch false w (w.dispatch (some (.scheduler sch.id)) e).2
  | calls {w : World} {call : Store.Call} (foreign : call.Foreign sch.id w.store) :
    Turn sch false w { w with store := w.store.after call }
  | aside {w v : World} (store : v.store = w.store) (plain : v.Plain)
    (station : v.station? sch.id = w.station? sch.id) : Turn sch false w v

theorem scans_dispatching (x : Beacon) (e : Event) (dueAt : Instant) (ids : Nat → Uuid) (now : Instant) :
    (x.run sch (x.dispatching e dueAt ids now)).scans = x.scans := by
  rw [run_dispatching]
  cases Dispatch.run x.desk.store e dueAt ids now with
  | error => rfl
  | ok => rfl

theorem Shows.turn (shows : Shows sch x w st p) (interval : sch.config.scanInterval.nanos ≠ 0) {claimed : Bool}
    (turn : Turn sch claimed w v) : ∃ moves st' p', Shows sch (x.run sch moves) v st' p' ∧
      (x.run sch moves).scans = x.scans + claimed.toNat := by
  cases turn with
  | polls here poller moved =>
    obtain rfl := Option.some.inj (shows.desk.here.symm.trans here)
    obtain rfl := Option.some.inj (shows.desk.poller.symm.trans poller)
    exact shows.polls interval moved
  | dispatches e distinct =>
    obtain ⟨⟨st', next⟩, -⟩ := shows.dispatches e distinct
    exact ⟨_, st', p, next, scans_dispatching x e _ _ _⟩
  | @calls _ call foreign =>
    have sheds := Store.foreign_sheds call foreign
    have stands : Desk.Stands sch { x.desk with store := x.desk.store.after call }
        { w with store := w.store.after call } st :=
      ⟨shows.desk.here, shows.desk.scheduler, congrArg (·.after call) shows.desk.store, shows.desk.held,
        sheds.distinct shows.desk.distinct, shows.desk.plain.present, shows.desk.plain.fallback,
        shows.desk.plain.queued⟩
    exact ⟨[.other call], st, p, ⟨shows.desk.keeps stands rfl rfl rfl rfl, shows.wakeup, shows.going⟩, rfl⟩
  | aside store plain station =>
    have stands : Desk.Stands sch x.desk v st :=
      ⟨station.trans shows.desk.here, shows.desk.scheduler, shows.desk.store.trans store.symm, shows.desk.held,
        store ▸ shows.desk.distinct, plain⟩
    exact ⟨[], st, p, ⟨shows.desk.keeps stands rfl rfl rfl rfl, shows.wakeup, shows.going⟩, rfl⟩

/-- What happens while the scheduler is not stopped, with the number of claims that the loop makes. -/
inductive Course (sch : Scheduler) (w : World) : Nat → World → Prop
  | start : Course sch w 0 w
  | turn {n : Nat} {claimed : Bool} {v u : World} (before : Course sch w n v) (turn : Turn sch claimed v u) :
    Course sch w (n + claimed.toNat) u

theorem Shows.course (shows : Shows sch x w st p) (interval : sch.config.scanInterval.nanos ≠ 0) {n : Nat}
    (course : Course sch w n v) : ∃ moves st' p', Shows sch (x.run sch moves) v st' p' ∧
      (x.run sch moves).scans = x.scans + n := by
  induction course with
  | start => exact ⟨[], st, p, shows, rfl⟩
  | turn _ turn ih =>
    obtain ⟨moves, st', p', before, scans⟩ := ih
    obtain ⟨more, st'', p'', after, scans'⟩ := before.turn interval turn
    refine ⟨moves ++ more, st'', p'', ?_⟩
    rw [run, List.foldl_append]
    refine ⟨after, scans'.trans ?_⟩
    rw [scans, Nat.add_assoc]

theorem Shows.awake (shows : Shows sch x w st p) (awake : x.Awake) :
    (∃ ticker, p.phase = .sweeping ticker) ∨ claims p.phase = true := by
  have loop := shows.desk.loop
  obtain sweeping | ⟨now, claiming⟩ := awake
  · rw [sweeping] at loop
    cases phase : p.phase with
    | starting | waiting | ended =>
      rw [phase] at loop
      cases loop
    | sweeping ticker => exact .inl ⟨ticker, rfl⟩
    | scanning ticker run =>
      obtain ⟨holder, scan, errands⟩ := run
      cases scan with
      | none => exact .inr rfl
      | some scan =>
        rw [phase] at loop
        cases loop
  · rw [claiming] at loop
    unfold Desk.Loop.ofPhase at loop
    split at loop <;> cases loop

/-- A dispatch that returned deliveries is heard: whatever happens after it, the loop has claimed since, or it is about
to claim or ends its next rest at once. -/
theorem dispatched_wakes (fresh : Desk.Fresh sch w st) (quiet : st.wakeup = {}) {m : Nat}
    (before : Course sch (Desk.launched w st) m v) {e : Event}
    (distinct : ((v.dispatch (some (.scheduler sch.id)) e).2.store.deliveries.map (·.id)).Nodup) {ds : List Delivery}
    (ok : (v.dispatch (some (.scheduler sch.id)) e).1 = .ok ds) (filled : ds ≠ []) {u : World} {n : Nat}
    (after : Course sch (v.dispatch (some (.scheduler sch.id)) e).2 n u)
    {st' : Station} (there : u.station? sch.id = some st') {p' : Poller} (poller : st'.poller = some p') :
    0 < n ∨ (∃ ticker, p'.phase = .sweeping ticker) ∨ claims p'.phase = true ∨ st'.wakeup.poll.1 = true := by
  have starts : Shows sch (start w.store) (Desk.launched w st) _ ⟨.starting, false⟩ := ⟨fresh.shows, quiet.symm, rfl⟩
  obtain ⟨moves, st₁, p₁, shows₁, -⟩ := starts.course fresh.interval before
  obtain ⟨⟨st₂, shows₂⟩, called⟩ := shows₁.dispatches e distinct
  obtain ⟨more, st₃, p₃, shows₃, scans⟩ := shows₂.course fresh.interval after
  obtain rfl := Option.some.inj (shows₃.desk.here.symm.trans there)
  obtain rfl := Option.some.inj (shows₃.desk.poller.symm.trans poller)
  rw [scans_dispatching] at scans
  have heard : Heard (start w.store) := fun _ none => by cases none
  have next {x : Beacon} (heard : Heard x) (moves : List Move) : Heard (x.run sch moves) := heard_run heard moves
  have fits := next (next (next heard moves) _) more _ (returned_run (called ds ok) more)
  obtain claimed | awake | rings := fits.2 filled
  · rw [scans] at claimed
    exact .inl (Nat.pos_of_lt_add_right claimed)
  · exact .inr ((shows₃.awake awake).imp_right .inl)
  · exact .inr (.inr (.inr (shows₃.wakeup ▸ rings)))

end Beacon

end Courier
