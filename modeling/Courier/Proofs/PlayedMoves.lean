import Courier.Rehearsal.Session
import Courier.Proofs.Calls
set_option autoImplicit false

namespace Courier.Rehearsal.World

variable {w v : World} {st : Station} {p : Poller}

/-- The station of a scheduler is the one that was put there last. -/
theorem station?_setStation {w : World} {st : Station} (here : (w.station? st.scheduler.id).isSome) :
    (w.setStation st).station? st.scheduler.id = some st := by
  unfold station? at here
  unfold station? setStation
  dsimp only
  generalize w.stations = stations at here
  induction stations with
  | nil => cases here
  | cons x xs ih =>
    rw [List.map_cons]
    by_cases same : x.scheduler.id = st.scheduler.id
    · rw [if_pos same, List.find?_cons_of_pos (by simp)]
    · rw [if_neg same, List.find?_cons_of_neg (by simpa using same)]
      rw [List.find?_cons_of_neg (by simpa using same)] at here
      exact ih here

theorem setPhase_eq (here : w.station? st.scheduler.id = some st) (p : Poller) (phase : Phase) :
    w.setPhase st.scheduler.id p phase = w.setStation { st with poller := some { p with phase } } := by
  unfold setPhase
  rw [here]

/-! ### Dispatches -/

theorem notify_aside (w : World) (ear : Option Ear) : (w.notify ear).bus = w.bus ∧ (w.notify ear).store = w.store := by
  unfold notify
  split
  · exact ⟨rfl, rfl⟩
  · exact ⟨rfl, rfl⟩
  · split <;> exact ⟨rfl, rfl⟩

theorem dispatch_aside (w : World) (ear : Option Ear) (e : Event) : (w.dispatch ear e).2.bus = w.bus ∧
    (w.dispatch ear e).2.store = w.store.wrote (Dispatch.run w.store e w.clock w.nextDeliveries w.wall) := by
  unfold dispatch
  split
  · next failed => exact ⟨rfl, by rw [failed]; rfl⟩
  · next ds store ok =>
    rw [ok]
    dsimp only
    split
    · exact ⟨rfl, rfl⟩
    · exact notify_aside _ ear

theorem dispatch_ok {ear : Option Ear} {e : Event} {ds : List Delivery} {s : Store}
    (ok : Dispatch.run w.store e w.clock w.nextDeliveries w.wall = .ok (ds, s)) :
    w.dispatch ear e = (.ok ds, if ds.isEmpty then ({ w with store := s } : World).nameDeliveries ds.length
      else (({ w with store := s } : World).nameDeliveries ds.length).notify ear) := by
  unfold dispatch
  rw [ok]

theorem dispatch_error {ear : Option Ear} {e : Event} {err : Dispatch.Error}
    (failed : Dispatch.run w.store e w.clock w.nextDeliveries w.wall = .error err) :
    w.dispatch ear e = (.error err, w) := by
  unfold dispatch
  rw [failed]

/-! ### The receiver -/

theorem takeQueued_eq {w v : World} {name : String} {r : Reply} (taken : w.takeQueued name = some (r, v)) :
    ∃ rs, w.queues.lookup name = some (r :: rs) ∧
      v = { w with queues := (name, rs) :: w.queues.filter (·.1 ≠ name) } := by
  unfold takeQueued at taken
  split at taken
  · next r rs queued =>
    cases taken
    exact ⟨rs, queued, rfl⟩
  · cases taken

theorem takeReply_eq (w : World) (delivery webhook : Uuid) :
    ∃ queues, (w.takeReply delivery webhook).2 = { w with queues } := by
  unfold takeReply
  split
  · next x taken =>
    obtain ⟨rs, -, same⟩ := takeQueued_eq (r := x.1) (v := x.2) taken
    exact ⟨_, same⟩
  · cases taken : w.takeQueued (w.nameOf webhook) with
    | none => exact ⟨w.queues, rfl⟩
    | some x =>
      obtain ⟨rs, -, same⟩ := takeQueued_eq (r := x.1) (v := x.2) taken
      exact ⟨_, same⟩

theorem callReceiver_eq (w : World) (d : Delivery) (x : Webhook) : ∃ calls inFlight peak queues,
    (w.callReceiver d x).2 = { w with calls, inFlight, peak, queues } := by
  obtain ⟨queues, same⟩ := takeReply_eq { w with
    calls := w.calls ++ [⟨d.id, x.id, d.attempts, d.payload⟩]
    inFlight := w.inFlight + 1
    peak := max w.peak (w.inFlight + 1) } d.id x.id
  exact ⟨_, _, _, queues, same⟩

/-! ### Workers and loops -/

/-- The first worker that is not blocked moves, unless it breaks down. -/
theorem moveFirst_cases (w : World) (sch : Scheduler) (stopping : Bool) (run : Run) (scan : Scan)
    (passed ks : List Worker) : w.moveFirst sch stopping run scan passed ks = .blocked ∨
      ∃ before k after, ks = before ++ k :: after ∧
        ((∃ v, w.moveWorker sch stopping run.errands k = .aborted v ∧
          w.moveFirst sch stopping run scan passed ks = .aborted v) ∨
        ∃ v errands stage, w.moveWorker sch stopping run.errands k = .moved v errands stage ∧
          w.moveFirst sch stopping run scan passed ks =
            .moved (if stage.isOver then v.dropHeld sch.id k.delivery.id else v) { run with
              scan := some (scan.advance sch.config.concurrency (passed.reverse ++ (before ++ after)) k.delivery stage)
              errands }) := by
  induction ks generalizing passed with
  | nil => exact .inl rfl
  | cons k rest ih =>
    unfold moveFirst
    split
    · rcases ih (k :: passed) with blocked | ⟨before, j, after, rfl, moves⟩
      · exact .inl blocked
      · refine .inr ⟨k :: before, j, after, rfl, ?_⟩
        rw [List.reverse_cons, List.append_assoc] at moves
        exact moves
    · next v aborted => exact .inr ⟨[], k, rest, rfl, .inl ⟨v, aborted, rfl⟩⟩
    · next v errands stage moved =>
      refine .inr ⟨[], k, rest, rfl, .inr ⟨v, errands, stage, moved, ?_⟩⟩
      cases stage <;> rfl

inductive Polls (w : World) (st : Station) (p : Poller) : World → Prop
  | starts (phase : p.phase = .starting) : Polls w st p (w.setPhase st.scheduler.id p
      (if st.scheduler.config.scanInterval.nanos = 0 then .ended
        else .waiting ⟨w.time, st.scheduler.config.scanInterval.nanos, true⟩))
  | leaves {ticker : Ticker} (phase : p.phase = .waiting ticker) (stopping : p.stopping = true) :
    Polls w st p ((w.setStation { st with wakeup := st.wakeup.cancel }).setPhase st.scheduler.id p .ended)
  | ticks {ticker : Ticker} (phase : p.phase = .waiting ticker) (going : p.stopping = false) :
    Polls w st p ((w.setStation { st with wakeup := st.wakeup.cancel }).setPhase st.scheduler.id p
      (.sweeping (ticker.tick w.time)))
  | wakes {ticker : Ticker} (phase : p.phase = .waiting ticker) (going : p.stopping = false)
    (rings : st.wakeup.poll.1 = true) :
    Polls w st p ((w.setStation { st with wakeup := st.wakeup.poll.2 }).setPhase st.scheduler.id p (.sweeping ticker))
  | rests {ticker : Ticker} (phase : p.phase = .waiting ticker) (going : p.stopping = false)
    (silent : st.wakeup.poll.1 = false) : Polls w st p (w.setStation { st with wakeup := st.wakeup.poll.2 })
  | sweeps {ticker : Ticker} (phase : p.phase = .sweeping ticker) :
    Polls w st p (({ w with store := w.store.wrote (w.store.releaseExpired w.clock) } : World).setPhase
      st.scheduler.id p (.scanning ticker { scheduler := st.scheduler.id }))
  | scans {ticker : Ticker} {run run' : Run} {v : World} (phase : p.phase = .scanning ticker run)
    (moved : w.moveRun p.stopping run = .moved v run') :
    Polls w st p (v.setPhase st.scheduler.id p (.scanning ticker run'))
  | finishes {ticker : Ticker} {run : Run} {v : World} {result : Except Dispatch.Error Report}
    (phase : p.phase = .scanning ticker run) (finished : w.moveRun p.stopping run = .finished v result) :
    Polls w st p (v.setPhase st.scheduler.id p (.waiting ticker))
  | breaks {ticker : Ticker} {run : Run} {v : World} (phase : p.phase = .scanning ticker run)
    (aborted : w.moveRun p.stopping run = .aborted v) : Polls w st p (v.setPhase st.scheduler.id p .ended)

theorem movePoller_polls (moved : w.movePoller st p = some v) : Polls w st p v := by
  unfold movePoller at moved
  dsimp only at moved
  split at moved
  · cases moved
  · next phase =>
    cases moved
    exact .starts phase
  · next ticker phase =>
    split at moved
    · next stopping =>
      cases moved
      exact .leaves phase stopping
    · next going =>
      have going := Bool.eq_false_iff.mpr going
      split at moved
      · cases moved
        exact .ticks phase going
      · split at moved
        · next wakeup polled =>
          cases moved
          have wakes := Polls.wakes (w := w) phase going (congrArg Prod.fst polled)
          rw [polled] at wakes
          exact wakes
        · next wakeup polled =>
          split at moved
          · cases moved
          · cases moved
            have rests := Polls.rests (w := w) phase going (congrArg Prod.fst polled)
            rw [polled] at rests
            exact rests
  · next ticker phase =>
    have sweeps : Polls w st p _ := .sweeps phase
    split at moved
    · next swept =>
      cases moved
      rw [swept] at sweeps
      exact sweeps
    · next failed =>
      cases moved
      rw [failed] at sweeps
      exact sweeps
  · next ticker run phase =>
    split at moved
    · cases moved
    · next told =>
      cases moved
      exact .scans phase told
    · next told =>
      cases moved
      exact .finishes phase told
    · next told =>
      cases moved
      exact .breaks phase told

theorem handBack_store (holder : Uuid) (acc : Nat × Store) (id : Uuid) :
    (handBack holder acc id).2 = acc.2.wrote (acc.2.releaseClaim id holder) := by
  unfold handBack
  split
  all_goals
    next told => rw [told]; rfl

/-- What is held is handed back one by one, whether the store can be reached or not. -/
theorem releaseHeld_eq (w : World) (st : Station) : (w.releaseHeld st).2 =
    ({ w with
      store := st.held.foldl (fun s id => s.wrote (s.releaseClaim id st.scheduler.id)) w.store } : World).setStation
      { st with held := [], poller := none, wakeup := st.wakeup.cancel } := by
  have released (ids : List Uuid) (acc : Nat × Store) : (ids.foldl (handBack st.scheduler.id) acc).2 =
      ids.foldl (fun s id => s.wrote (s.releaseClaim id st.scheduler.id)) acc.2 := by
    induction ids generalizing acc with
    | nil => rfl
    | cons id ids ih => rw [List.foldl_cons, List.foldl_cons, ih, handBack_store]
  unfold releaseHeld
  dsimp only
  rw [released]

end Courier.Rehearsal.World
