import Courier.Proofs.Beacon
import Courier.Proofs.Custody
import Courier.Proofs.PlayedMoves
set_option autoImplicit false

namespace Courier

namespace Scan

variable {scan : Scan} {k : Worker} {before after : List Worker}

theorem active_distinct (distinct : (scan.unfinished.map (·.delivery.id)).Nodup) :
    (scan.active.map (·.delivery.id)).Nodup := by
  refine distinct.sublist ((List.Sublist.map _) ?_)
  exact List.sublist_append_left _ _

variable (distinct : (scan.active.map (·.delivery.id)).Nodup) (split : scan.active = before ++ k :: after)
include distinct split

theorem others_apart : ∀ j ∈ before ++ after, j.delivery.id ≠ k.delivery.id := by
  intro j hj same
  rw [split] at distinct
  rw [(List.perm_middle.map fun j : Worker => j.delivery.id).nodup_iff, List.map_cons, List.nodup_cons] at distinct
  exact distinct.1 (List.mem_map.mpr ⟨j, hj, same⟩)

theorem turn_of_split : scan.turn? k.delivery.id = some k := by
  have apart := others_apart distinct split
  unfold turn?
  rw [split, List.find?_append, List.find?_cons_of_pos (by simp)]
  rw [List.find?_eq_none.mpr fun j hj => by simpa using apart j (List.mem_append_left _ hj)]
  rfl

theorem moved_of_split (n : Nat) (stage : Worker.Stage) :
    scan.moved n k.delivery stage = scan.advance n (before ++ after) k.delivery stage := by
  have apart := others_apart distinct split
  unfold moved
  rw [split, List.eraseP_append_right _ fun j hj => by simpa using apart j (List.mem_append_left _ hj),
    List.eraseP_cons_of_pos (by simp)]

omit distinct split in
theorem advance_going (scan : Scan) (n : Nat) (others : List Worker) (d : Delivery) {stage : Worker.Stage}
    (going : stage.isOver = false) :
    scan.advance n others d stage = { scan with active := others ++ [⟨d, stage⟩] } := by
  cases stage with
  | done => cases going
  | waiting | renewed | sending | reporting => rfl

/-- A worker that got to two stages in a row stands where it would after the second alone. -/
theorem moved_moved (n : Nat) {stage : Worker.Stage} (going : stage.isOver = false) :
    let next := scan.moved n k.delivery stage
    next.turn? k.delivery.id = some ⟨k.delivery, stage⟩ ∧
      ∀ last, next.moved n k.delivery last = scan.moved n k.delivery last := by
  intro next
  have apart := others_apart distinct split
  have stands : next = { scan with active := (before ++ after) ++ [⟨k.delivery, stage⟩] } :=
    (moved_of_split distinct split n stage).trans (advance_going scan n _ _ going)
  have split' : next.active = (before ++ after) ++ ⟨k.delivery, stage⟩ :: [] := by rw [stands]
  have distinct' : (next.active.map (·.delivery.id)).Nodup := by
    rw [split] at distinct
    rw [split', (List.perm_middle.map fun j : Worker => j.delivery.id).nodup_iff, List.append_nil]
    rw [(List.perm_middle.map fun j : Worker => j.delivery.id).nodup_iff] at distinct
    exact distinct
  refine ⟨turn_of_split distinct' split', fun last => ?_⟩
  rw [moved_of_split distinct split n last]
  have again := moved_of_split distinct' split' n last
  rw [List.append_nil] at again
  rw [show next.moved n k.delivery last = _ from again, stands]
  cases last <;> rfl

omit distinct split in
/-- A worker whose work is over leaves; the others stay. -/
theorem ids_moved {id : Uuid} (turn : scan.turn? id = some k) (n : Nat) (stage : Worker.Stage) : ∃ rest,
    (scan.unfinished.map (·.delivery.id)).Perm (id :: rest) ∧
      ((scan.moved n k.delivery stage).unfinished.map (·.delivery.id)).Perm
        (if stage.isOver then rest else id :: rest) := by
  obtain ⟨rest, old, new⟩ := unfinished_moved turn n stage
  have same := id_of_turn turn
  refine ⟨rest.map (·.delivery.id), same ▸ old.map _, ?_⟩
  refine (new.map _).trans (.of_eq ?_)
  split
  · rfl
  · rw [← same]
    rfl

end Scan

/-- The call of a worker that starts is handed over just if it does not leave the range of dates. -/
theorem Worker.errand_start (sch : Scheduler) (d : Delivery) (stopping : Bool) (now : Instant) (s : Store) :
    match start sch d stopping now s with
    | .ok _ => errand sch ⟨d, .waiting⟩ stopping now = .ok (some (.start d stopping now))
    | .error _ => errand sch ⟨d, .waiting⟩ stopping now = .error ⟨⟩ := by
  unfold start errand
  cases stopping with
  | true =>
    rw [if_pos rfl, if_neg fun going => Bool.noConfusion going.1]
    cases s.releaseClaim d.id sch.id <;> rfl
  | false =>
    rw [if_neg Bool.false_ne_true]
    cases claimEnd? sch.config now with
    | none => rfl
    | some till =>
      dsimp only
      rw [if_neg fun none => Bool.noConfusion none.2]
      cases s.renewClaim d.id sch.id till with
      | error e => rfl
      | ok r =>
        obtain ⟨b, t⟩ := r
        cases b <;> rfl

namespace Errand

theorem run_ids {sch : Scheduler} {s t : Store} {stage : Worker.Stage} {e : Errand}
    (ran : e.run sch s = some (stage, t)) : t.deliveries.map (·.id) = s.deliveries.map (·.id) := by
  cases e with
  | start d stopping now =>
    cases Worker.start_ok (toOption_eq_some.mp ran) with
    | handedBack call =>
      refine (Store.releaseClaim_ok call).2.1.keys_eq ?_
      rintro x y (rfl | ⟨-, rfl⟩) <;> rfl
    | renewed _ call | lost call =>
      refine (Store.renewClaim_ok call).2.1.keys_eq ?_
      rintro x y (rfl | ⟨-, rfl⟩) <;> rfl
    | failed => rfl
  | look d =>
    cases ran
    rfl
  | report d change =>
    have reported : Worker.report sch d change s = (stage, t) := Option.some.inj ran
    have wrote := (Worker.report_over sch d change s).2
    rw [reported] at wrote
    rcases wrote with same | ⟨o, call⟩
    · exact congrArg _ (congrArg Store.deliveries same)
    · refine (Store.completeAttempt_ok call).2.1.keys_eq ?_
      rintro x y (rfl | ⟨-, rfl⟩) <;> rfl

end Errand

namespace Desk

variable {sch : Scheduler} {k : Desk} {scan : Scan} {calls : Uuid → Option Line} {id : Uuid} {now : Instant}

/-- A call of a worker from its start to its end with nothing between. -/
theorem run_call (loop : k.loop = .scanning scan fun _ => none) {w : Worker} (turn : scan.turn? id = some w)
    {e : Errand} (errand : w.errand sch k.stopping now = .ok (some e)) {stage : Worker.Stage} {t : Store}
    (ran : e.run sch k.store = some (stage, t)) :
    k.run sch [.hand id now, .run id, .take id] = { k with
      store := t
      held := if stage.isOver then k.held.filter (· ≠ id) else k.held
      loop := .scanning (scan.moved sch.config.concurrency w.delivery stage) fun _ => none } := by
  have handed : k.step sch (.hand id now) =
      { k with loop := .scanning scan (Function.update (fun _ => none) id (some (.handed e))) } := by
    rw [step, loop]
    dsimp only
    rw [turn]
    dsimp only
    rw [errand]
  have answered : (k.step sch (.hand id now)).step sch (.run id) =
      { k with store := t, loop := .scanning scan (Function.update (fun _ => none) id (some (.answered stage))) } := by
    rw [handed, step]
    dsimp only
    rw [Function.update_self]
    dsimp only
    rw [ran]
    dsimp only
    rw [Function.update_idem]
  change ((k.step sch (.hand id now)).step sch (.run id)).step sch (.take id) = _
  rw [answered, step]
  dsimp only
  rw [turn, Function.update_self, Function.update_idem, Function.update_eq_self]

theorem run_claim (loop : k.loop = .sweeping) : k.run sch [.begin now, .runClaim, .unpack] =
    match Scan.claim sch now k.store with
    | .ok (batch, store) => { k with
      store
      held := k.held ++ batch.map (·.id)
      loop := .scanning ((Scan.ofBatch batch).fill sch.config.concurrency) fun _ => none }
    | .error e => { k with loop := .resting, last := some (.error e) } := by
  have began : k.step sch (.begin now) = { k with loop := .claiming now } := by rw [step, loop]
  change ((k.step sch (.begin now)).step sch .runClaim).step sch .unpack = _
  rw [began, step]
  dsimp only
  cases Scan.claim sch now k.store <;> rfl

theorem run_answer (loop : k.loop = .scanning scan calls) {d : Delivery} {hook : Webhook}
    (turn : scan.turn? id = some ⟨d, .sending hook⟩) {outcome : Outcome} {stage : Worker.Stage}
    (answer : Worker.answer sch d outcome now = .ok stage) : k.run sch [.answer id outcome now] =
      { k with loop := .scanning (scan.moved sch.config.concurrency d stage) calls } := by
  change k.step sch (.answer id outcome now) = _
  rw [step, loop]
  dsimp only
  rw [turn]
  dsimp only
  rw [answer]

def broken (k : Desk) : Desk := { k with loop := .halted none fun _ => none }

theorem run_answer_broken (loop : k.loop = .scanning scan fun _ => none) {d : Delivery} {hook : Webhook}
    (turn : scan.turn? id = some ⟨d, .sending hook⟩) {outcome : Outcome} {e : OutOfRange}
    (answer : Worker.answer sch d outcome now = .error e) : k.run sch [.answer id outcome now] = k.broken := by
  change k.step sch (.answer id outcome now) = _
  rw [step, loop]
  dsimp only
  rw [turn]
  dsimp only
  rw [answer]
  rfl

theorem run_hand_broken (loop : k.loop = .scanning scan fun _ => none) {w : Worker} (turn : scan.turn? id = some w)
    {e : OutOfRange} (errand : w.errand sch k.stopping now = .error e) : k.run sch [.hand id now] = k.broken := by
  change k.step sch (.hand id now) = _
  rw [step, loop]
  dsimp only
  rw [turn]
  dsimp only
  rw [errand]
  rfl

theorem run_breakDown (loop : k.loop = .scanning scan fun _ => none) : k.run sch [.breakDown] = k.broken := by
  change k.step sch .breakDown = _
  rw [step, loop]
  rfl

end Desk

/-! ### Workers -/

namespace Rehearsal

/-- The receiver answers and does nothing else. -/
def Reply.Plain : Reply → Prop
  | .mk _ _ follow _ => follow = []

structure World.Plain (w : World) : Prop where
  present : w.vanished = []
  fallback : w.fallback.Plain
  queued : ∀ q ∈ w.queues, ∀ r ∈ q.2, r.Plain

namespace World

variable {w v u : World}

theorem takeQueued_plain (plain : w.Plain) {name : String} {r : Reply} (taken : w.takeQueued name = some (r, v)) :
    r.Plain ∧ v.Plain := by
  obtain ⟨rs, queued, rfl⟩ := takeQueued_eq taken
  obtain ⟨before, after, same, -⟩ := List.lookup_eq_some_iff.mp queued
  have mem : (name, r :: rs) ∈ w.queues := same ▸ List.mem_append_right _ List.mem_cons_self
  refine ⟨plain.queued _ mem r List.mem_cons_self, plain.present, plain.fallback, fun q hq x hx => ?_⟩
  rcases List.mem_cons.mp hq with rfl | old
  · exact plain.queued _ mem x (List.mem_cons_of_mem _ hx)
  · exact plain.queued q (List.mem_filter.mp old).1 x hx

theorem callReceiver_plain (plain : w.Plain) (d : Delivery) (x : Webhook) :
    (w.callReceiver d x).1.Plain ∧ (w.callReceiver d x).2.Plain := by
  unfold callReceiver
  dsimp only
  generalize hcalled : ({ w with
    calls := w.calls ++ [⟨d.id, x.id, d.attempts, d.payload⟩]
    inFlight := w.inFlight + 1
    peak := max w.peak (w.inFlight + 1) } : World) = called
  have still : called.Plain := hcalled ▸ ⟨plain.present, plain.fallback, plain.queued⟩
  unfold takeReply
  split
  · next r taken => exact takeQueued_plain (r := r.1) (v := r.2) still taken
  · cases taken : called.takeQueued (called.nameOf x.id) with
    | none => exact ⟨still.fallback, still⟩
    | some r => exact takeQueued_plain (r := r.1) (v := r.2) still taken

end World

end Rehearsal

namespace Desk

open Rehearsal

/-- While the world came from one state to the other the desk did too, by work of its scan. All else is the same. -/
structure Works (sch : Scheduler) (k k' : Desk) (w v : World) : Prop where
  store : k'.store = v.store
  stations : v.stations = w.stations
  plain : v.Plain
  ids : v.store.deliveries.map (·.id) = w.store.deliveries.map (·.id)
  happened : ∃ hs, (∀ h ∈ hs, Beacon.isWork h = true) ∧ k.run sch hs = k'

theorem Works.trans {sch : Scheduler} {k k' k'' : Desk} {w v u : World} (first : Works sch k k' w v)
    (next : Works sch k' k'' v u) : Works sch k k'' w u where
  store := next.store
  stations := next.stations.trans first.stations
  plain := next.plain
  ids := next.ids.trans first.ids
  happened := by
    obtain ⟨hs, work, rfl⟩ := first.happened
    obtain ⟨hs', work', rfl⟩ := next.happened
    exact ⟨hs ++ hs', fun h hh => (List.mem_append.mp hh).elim (work h) (work' h), List.foldl_append⟩

def reached (k : Desk) (n : Nat) (scan : Scan) (d : Delivery) (stage : Worker.Stage) (s : Store) : Desk :=
  { k with
    store := s
    held := if stage.isOver then k.held.filter (· ≠ d.id) else k.held
    loop := .scanning (scan.moved n d stage) fun _ => none }

def Showing (sch : Scheduler) (k : Desk) (scan : Scan) (d : Delivery) (w : World) : World.WorkerMove → Prop
  | .blocked => True
  | .moved v errands stage =>
    Works sch k (k.reached sch.config.concurrency scan d stage v.store) w v ∧ ∀ e ∈ errands, e.reply.Plain
  | .aborted v => Works sch k k.broken w v

theorem works_broken {sch : Scheduler} {k : Desk} {w v : World} (store : k.store = w.store) {h : Happening}
    (work : Beacon.isWork h = true) (happens : k.run sch [h] = k.broken) (same : v.store = w.store)
    (stations : v.stations = w.stations) (still : v.Plain) : Works sch k k.broken w v where
  store := store.trans same.symm
  stations := stations
  plain := still
  ids := by rw [same]
  happened := ⟨[h], fun x hx => List.mem_singleton.mp hx ▸ work, happens⟩

theorem Works.then_same {sch : Scheduler} {k k' : Desk} {w v u : World} (works : Works sch k k' w v)
    (store : u.store = v.store) (stations : u.stations = v.stations) (plain : u.Plain) : Works sch k k' w u where
  store := works.store.trans store.symm
  stations := stations.trans works.stations
  plain := plain
  ids := store ▸ works.ids
  happened := works.happened

theorem Showing.after {sch : Scheduler} {k k' : Desk} {w v : World} {scan scan' : Scan} {d : Delivery}
    {m : World.WorkerMove} (showing : Showing sch k' scan' d v m) (first : Works sch k k' w v)
    (again : ∀ stage s,
      k'.reached sch.config.concurrency scan' d stage s = k.reached sch.config.concurrency scan d stage s)
    (broken : k'.broken = k.broken) : Showing sch k scan d w m := by
  cases m with
  | blocked => trivial
  | moved => exact ⟨first.trans (again _ _ ▸ showing.1), showing.2⟩
  | aborted => exact first.trans (broken ▸ showing)

section Worker

variable {sch : Scheduler} {k : Desk} {w : World} {scan : Scan} {errands : List Rehearsal.Errand} {d : Delivery}
  (store : k.store = w.store) (plain : w.Plain) (loop : k.loop = .scanning scan fun _ => none)
include store plain loop

theorem works_call {stage stage' : Worker.Stage} (turn : scan.turn? d.id = some ⟨d, stage⟩) {e : Courier.Errand}
    (now : Instant) {t : Store} (errand : Worker.errand sch ⟨d, stage⟩ k.stopping now = .ok (some e))
    (ran : e.run sch w.store = some (stage', t)) :
    Works sch k (k.reached sch.config.concurrency scan d stage' t) w { w with store := t } where
  store := rfl
  stations := rfl
  plain := ⟨plain.present, plain.fallback, plain.queued⟩
  ids := Errand.run_ids ran
  happened := by
    refine ⟨_, ?_, run_call loop turn errand (by rw [store]; exact ran)⟩
    intro h hh
    simp only [List.mem_cons, List.not_mem_nil, or_false] at hh
    rcases hh with rfl | rfl | rfl <;> rfl

variable (sch) in
/-- A request comes to its end. -/
theorem endErrand_showing {hook : Webhook} (turn : scan.turn? d.id = some ⟨d, .sending hook⟩) {reply : Reply}
    (plain' : reply.Plain) (others : ∀ e ∈ errands, e.reply.Plain) :
    Showing sch k scan d w (w.endErrand sch d errands reply) := by
  obtain ⟨outcome, delayMs, follow, breaksDown⟩ := reply
  obtain rfl : follow = [] := plain'
  have still : ({ w with inFlight := w.inFlight - 1 } : World).Plain := ⟨plain.present, plain.fallback, plain.queued⟩
  unfold World.endErrand World.answerCall
  cases breaksDown with
  | true => exact works_broken store rfl (run_breakDown loop) rfl rfl still
  | false =>
    dsimp only [List.foldl_nil]
    rw [if_neg Bool.false_ne_true]
    dsimp only
    cases answer : Worker.answer sch d outcome w.clock with
    | error e => exact works_broken store rfl (run_answer_broken loop turn answer) rfl rfl still
    | ok stage =>
      refine ⟨⟨rfl, rfl, still, rfl, [.answer d.id outcome w.clock], ?_, ?_⟩, others⟩
      · exact fun h hh => List.mem_singleton.mp hh ▸ rfl
      · obtain ⟨change, -, rfl⟩ := Worker.answer_ok answer
        rw [run_answer loop turn answer]
        unfold reached
        rw [← store]
        rfl

/-- The webhook is looked up, and if it is to be sent to, the request is made at once. -/
theorem look_showing (alone : (scan.active.map (·.delivery.id)).Nodup) {before after : List Worker}
    (split : scan.active = before ++ ⟨d, .renewed⟩ :: after) (others : ∀ e ∈ errands, e.reply.Plain) :
    Showing sch k scan d w (w.moveWorker sch k.stopping errands ⟨d, .renewed⟩) := by
  have turn := Scan.turn_of_split alone split
  unfold World.moveWorker
  dsimp only
  have found : w.lookUp d.webhookId = w.store.getWebhook d.webhookId := by
    unfold World.lookUp
    rw [plain.present]
    cases w.store.getWebhook d.webhookId <;> rfl
  have looked : Works sch k (k.reached _ scan d (Worker.look sch d (w.store.getWebhook d.webhookId)) w.store) w w :=
    works_call store plain loop turn (e := .look d) w.clock rfl rfl
  rw [← found] at looked
  cases stage : Worker.look sch d (w.lookUp d.webhookId) with
  | sending hook =>
    rw [stage] at looked
    have sent : Works sch k (k.reached sch.config.concurrency scan d (.sending hook) w.store) w
        (w.callReceiver d hook).2 := by
      obtain ⟨calls, inFlight, peak, queues, same⟩ := w.callReceiver_eq d hook
      exact looked.then_same (by rw [same]) (by rw [same]) (World.callReceiver_plain plain d hook).2
    have asked := (World.callReceiver_plain plain d hook).1
    obtain ⟨turn', again⟩ := Scan.moved_moved alone split sch.config.concurrency
      (show (Worker.Stage.sending hook).isOver = false from rfl)
    dsimp only
    generalize w.callReceiver d hook = called at sent asked
    obtain ⟨⟨outcome, delayMs, follow, breaksDown⟩, v⟩ := called
    cases delayMs with
    | zero =>
      refine (endErrand_showing sch sent.store sent.plain rfl turn' asked others).after sent (fun last s => ?_) ?_
      · unfold reached
        rw [again last]
        rfl
      · unfold broken reached
        rw [← store]
        rfl
    | succ ms =>
      refine ⟨sent.store ▸ sent, fun e he => ?_⟩
      rcases List.mem_append.mp he with old | new
      · exact others e old
      · exact List.mem_singleton.mp new ▸ asked
  | waiting | renewed | reporting | done =>
    rw [stage] at looked
    exact ⟨looked, others⟩

/-- A worker makes its next call, or sends its request, or waits for the answer. -/
theorem moveWorker_showing (alone : (scan.active.map (·.delivery.id)).Nodup) {before after : List Worker} {j : Worker}
    (split : scan.active = before ++ j :: after) (others : ∀ e ∈ errands, e.reply.Plain) :
    Showing sch k scan j.delivery w (w.moveWorker sch k.stopping errands j) := by
  have turn := Scan.turn_of_split alone split
  obtain ⟨d, stage⟩ := j
  unfold World.moveWorker
  cases stage with
  | waiting =>
    dsimp only
    have handed := Worker.errand_start sch d k.stopping w.clock w.store
    cases started : Worker.start sch d k.stopping w.clock w.store with
    | error e =>
      rw [started] at handed
      exact works_broken store rfl (run_hand_broken loop turn handed) rfl rfl plain
    | ok r =>
      rw [started] at handed
      exact ⟨works_call store plain loop turn w.clock handed (toOption_eq_some.mpr started), others⟩
  | renewed => exact look_showing store plain loop alone split others
  | sending hook =>
    dsimp only
    split
    · next e found =>
      split
      · exact endErrand_showing sch store plain loop turn (others e (List.mem_of_find?_eq_some found)) fun x hx =>
          others x (List.mem_filter.mp hx).1
      · trivial
    · trivial
  | reporting c =>
    dsimp only
    exact ⟨works_call store plain loop turn (e := .report d c) w.clock rfl rfl, others⟩
  | done r => trivial

end Worker

end Desk

end Courier
