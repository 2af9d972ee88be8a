import Courier.Proofs.Custody
import Courier.Proofs.Links
set_option autoImplicit false

namespace Courier

namespace Store

theorem wrote_online {ε α : Type} {s : Store} {x : Except ε (α × Store)}
    (ok : ∀ a t, x = .ok (a, t) → t.online = s.online) : (s.wrote x).online = s.online := by
  cases x with
  | ok r => exact ok r.1 r.2 rfl
  | error e => rfl

theorem after_online {s : Store} {call : Call} (unswitched : ∀ online, call ≠ .switch online) :
    (s.after call).online = s.online := by
  cases call with
  | createWebhook => exact wrote_online fun _ _ ok => (createWebhook_ok ok).2.1
  | updateWebhook => exact wrote_online fun _ _ ok => (updateWebhook_ok ok).2.1
  | deleteWebhook => exact wrote_online fun _ _ ok => (deleteWebhook_ok ok).1
  | createDeliveries => exact wrote_online fun _ _ ok => (createDeliveries_ok ok).1.online
  | claimDue => exact wrote_online fun _ _ ok => (claimDue_ok ok).1.online
  | renewClaim => exact wrote_online fun _ _ ok => (renewClaim_ok ok).1.online
  | completeAttempt => exact wrote_online fun _ _ ok => (completeAttempt_ok ok).1.online
  | releaseClaim => exact wrote_online fun _ _ ok => (releaseClaim_ok ok).1.online
  | releaseExpired => exact wrote_online fun _ _ ok => (releaseExpired_ok ok).1.online
  | retryDelivery => exact wrote_online fun _ _ ok => (retryDelivery_ok ok).1.online
  | cleanupOld => exact wrote_online fun _ _ ok => (cleanupOld_ok ok).1.online
  | switch online => exact absurd rfl (unswitched online)

end Store

theorem Errand.run_online {sch : Scheduler} {s t : Store} {stage : Worker.Stage} {e : Errand}
    (ran : e.run sch s = some (stage, t)) : t.online = s.online := by
  cases e with
  | start d stopping now => exact (Fleet.start_frames (toOption_eq_some.mp ran)).online
  | look d =>
    cases ran
    rfl
  | report d change =>
    have reported : Worker.report sch d change s = (stage, t) := Option.some.inj ran
    have frames := Fleet.report_frames sch d change s
    rw [reported] at frames
    exact frames.online

namespace Desk

def Happening.cutsOff : Happening → Bool
  | other (.switch online) => !online
  | _ => false

variable {sch : Scheduler} {k : Desk} {lost : List Uuid} {e : Happening}

theorem online_step (online : k.store.online = true) (steady : e.cutsOff = false) :
    (k.step sch e).store.online = true := by
  have happens := step_happens sch k e
  generalize k.step sch e = next at happens
  cases happens with
  | @called call foreign =>
    by_cases switch : ∃ b, call = .switch b
    · obtain ⟨b, rfl⟩ := switch
      simpa [Happening.cutsOff, Store.after, Store.setOnline] using steady
    · exact (Store.after_online fun b hb => switch ⟨b, hb⟩).trans online
  | claimed _ call => exact (Store.claimDue_ok call).1.online.trans online
  | claimedLate => exact (Store.wrote_online fun _ _ call => (Store.claimDue_ok call).1.online).trans online
  | ran _ _ ran => exact (Errand.run_online ran).trans online
  | ranLate _ _ ran => exact (Errand.run_online ran).trans online
  | released => exact (Store.wrote_online fun _ _ call => (Store.releaseClaim_ok call).1.online).trans online
  | nothing | woke | began | refused | unpacked | failed | handed | broke | took | answered | finished | left | asked
  | gaveUp | departed => exact online

theorem over_step (halted : k.loop.isOver = true) (e : Happening) : (k.step sch e).loop.isOver = true := by
  have happens := step_happens sch k e
  generalize k.step sch e = next at happens
  cases happens with
  | nothing | called | asked | released | departed => exact halted
  | claimedLate | ranLate => rfl
  | gaveUp => exact Loop.ended_over _
  | woke loop | began loop | claimed loop | refused loop | unpacked loop | failed loop | handed loop | broke loop
  | ran loop | took loop | answered loop | finished loop | left loop =>
    rw [loop] at halted
    cases halted

theorem over_run (halted : k.loop.isOver = true) (hs : List Happening) : (k.run sch hs).loop.isOver = true := by
  induction hs generalizing k with
  | nil => exact halted
  | cons e hs ih => exact ih (over_step halted e)

/-- Nothing is lost while the store can be reached and the loop goes on. -/
theorem loses_nothing (online : k.store.online = true) (going : (k.step sch e).loop.isOver = false) :
    k.loses sch e = [] := by
  have going' : k.loop.isOver = false := by
    refine Bool.eq_false_iff.mpr fun halted => ?_
    cases (over_step halted e).symm.trans going
  have unfallen : k.fallen (k.step sch e) = [] := by simp [fallen, going]
  cases e with
  | hand | answer | breakDown => exact unfallen
  | run | release => simp [loses, online]
  | runClaim =>
    rw [loses]
    split
    · next loop =>
      rw [loop] at going'
      cases going'
    · rfl
  | giveUp =>
    rw [loses]
    split
    · next stop loop =>
      rw [step, stop] at going
      cases (Loop.ended_over k.loop).symm.trans going
    · rfl
  | other | wake | begin | unpack | take | finish | leave | ask | depart => rfl

theorem strays_nothing {hs : List Happening} (online : k.store.online = true) (steady : ∀ e ∈ hs, e.cutsOff = false)
    (going : (k.run sch hs).loop.isOver = false) : k.strays sch hs = [] := by
  induction hs generalizing k with
  | nil => rfl
  | cons e hs ih =>
    have online' : (k.step sch e).store.online = true := online_step online (steady e List.mem_cons_self)
    have rest := ih online' (fun e he => steady e (List.mem_cons_of_mem _ he)) going
    have going' : (k.step sch e).loop.isOver = false := by
      refine Bool.eq_false_iff.mpr fun halted => ?_
      cases (over_run halted hs).symm.trans going
    rw [strays, loses_nothing online going', rest]
    rfl

/-! ### Reports -/

/-- Every delivery that was claimed is under way or counted, and no failure is counted unless something is lost. -/
structure Counts (k : Desk) (lost : List Uuid) : Prop where
  scanning : ∀ scan calls, k.loop = .scanning scan calls →
    scan.results.length + scan.unfinished.length = scan.claimed ∧ (lost = [] → .failed ∉ scan.results)
  last : ∀ r, k.last = some (.ok r) → r.sum = r.claimed ∧ (lost = [] → r.errors = 0)

theorem Counts.grows (counts : Counts k lost) (more : List Uuid) : Counts k (lost ++ more) where
  scanning scan calls loop := by
    obtain ⟨all, unfailed⟩ := counts.scanning scan calls loop
    exact ⟨all, fun none => unfailed (List.append_eq_nil_iff.mp none).1⟩
  last r hlast := by
    obtain ⟨all, unfailed⟩ := counts.last r hlast
    exact ⟨all, fun none => unfailed (List.append_eq_nil_iff.mp none).1⟩

/-- A change to the desk that is no end of a worker and no end of a scan. -/
theorem Counts.same (counts : Counts k lost) {next : Desk} (last : next.last = k.last)
    (loop : ∀ scan calls, next.loop = .scanning scan calls → ∃ calls', k.loop = .scanning scan calls') :
    Counts next lost where
  scanning scan calls hloop := by
    obtain ⟨calls', hloop'⟩ := loop scan calls hloop
    exact counts.scanning scan calls' hloop'
  last r hlast := counts.last r (last ▸ hlast)

theorem Loop.ended_ne_scanning (loop : Loop) (scan : Scan) (calls : Uuid → Option Line) :
    loop.ended ≠ .scanning scan calls := by
  cases loop <;> simp [Loop.ended]

theorem Counts.moved (counts : Counts k lost) {scan : Scan} {calls calls' : Uuid → Option Line}
    (loop : k.loop = .scanning scan calls) {id : Uuid} {w : Worker} (turn : scan.turn? id = some w)
    {stage : Worker.Stage} (well : lost = [] → stage ≠ .done .failed) {n : Nat} {held : List Uuid} :
    Counts { k with held, loop := .scanning (scan.moved n w.delivery stage) calls' } lost where
  scanning scan' calls'' hloop := by
    obtain ⟨all, unfailed⟩ := counts.scanning scan calls loop
    cases hloop
    obtain ⟨rest, before, after⟩ := Scan.unfinished_moved turn n stage
    have results := scan.results_moved n w.delivery stage
    have under := before.length_eq
    have left := after.length_eq
    refine ⟨?_, fun none failed => ?_⟩
    · rw [results, scan.claimed_moved, left, ← all, under]
      cases stage with
      | done =>
        simp [Worker.Stage.isOver, Worker.Stage.result?]
        omega
      | waiting | renewed | sending | reporting => simp [Worker.Stage.isOver, Worker.Stage.result?]
    · rw [results] at failed
      rcases List.mem_append.mp failed with old | new
      · exact unfailed none old
      · cases stage with
        | done r =>
          obtain rfl : Worker.Result.failed = r := by simpa [Worker.Stage.result?] using new
          exact well none rfl
        | waiting | renewed | sending | reporting => cases new
  last := counts.last

theorem Counts.step (counts : Counts k lost) (guards : Guards sch k lost) (e : Happening) :
    Counts (k.step sch e) (lost ++ k.loses sch e) := by
  refine Counts.grows ?_ _
  have fits := guards.loop
  have happens := step_happens sch k e
  generalize k.step sch e = next at happens
  cases happens with
  | nothing => exact counts
  | called | asked | released | departed => exact counts.same rfl fun scan calls loop => ⟨calls, loop⟩
  | woke | began | claimed | refused | claimedLate | ranLate => exact counts.same rfl fun _ _ loop => by cases loop
  | broke | left | gaveUp => exact counts.same rfl fun _ _ loop => absurd loop (Loop.ended_ne_scanning _ _ _)
  | unpacked loop =>
    refine ⟨fun scan calls hloop => ?_, counts.last⟩
    cases hloop
    rw [Scan.unfinished_fill, Scan.unfinished_ofBatch, List.length_map]
    exact ⟨Nat.zero_add _, fun _ failed => by cases failed⟩
  | failed loop => exact ⟨fun _ _ hloop => (by cases hloop), fun r hlast => (by cases hlast)⟩
  | handed loop | ran loop =>
    refine counts.same rfl fun scan calls hloop => ?_
    cases hloop
    exact ⟨_, loop⟩
  | @took id scan calls w stage loop turn line =>
    rw [loop] at fits
    obtain ⟨-, ended⟩ := fits.2.2 id _ line
    refine counts.moved loop turn fun none failed => ?_
    rcases ended .failed failed with gone | ⟨well, -⟩
    · rw [none] at gone
      cases gone
    · exact well rfl
  | answered loop turn answer =>
    obtain ⟨change, -, rfl⟩ := Worker.answer_ok answer
    exact counts.moved loop turn fun _ failed => by cases failed
  | @finished scan calls loop done =>
    obtain ⟨all, unfailed⟩ := counts.scanning scan calls loop
    refine ⟨fun _ _ hloop => (by cases hloop), fun r hlast => ?_⟩
    cases hlast
    rw [scan.isDone_iff.mp done] at all
    rw [scan.report_eq]
    refine ⟨(Report.of_sum _ _).trans all, fun none => List.count_eq_zero.mpr (unfailed none)⟩

theorem Counts.run (counts : Counts k lost) (guards : Guards sch k lost) (hs : List Happening) :
    Counts (k.run sch hs) (lost ++ k.strays sch hs) := by
  induction hs generalizing k lost with
  | nil => exact (List.append_nil lost).symm ▸ counts
  | cons e hs ih =>
    have rest := ih (counts.step guards e) (guards.step e)
    rw [List.append_assoc] at rest
    exact rest

theorem counts_started (s : Store) : Counts (started s) [] where
  scanning scan calls loop := by cases loop
  last r last := by cases last

/-- A scheduler that lost sight of nothing holds nothing between its scans. -/
theorem Guards.rests_unheld (guards : Guards sch k []) (rests : k.loop = .resting) :
    (∀ d ∈ k.store.deliveries, d.claimedBy ≠ some sch.id) ∧ k.held = [] := by
  have fits := guards.loop
  rw [rests] at fits
  refine ⟨fun d hd held => ?_, fits⟩
  have holds : k.store.Holds sch.id d.id := ⟨d, hd, Store.isHeld_iff.mpr ⟨rfl, held⟩⟩
  have custody := guards.custody d.id holds
  have stop := guards.stop
  rw [rests] at custody stop
  rcases stop with unasked | asked | halted
  · rw [unasked] at custody
    simp [Loop.custody, Stop.custody] at custody
  · rw [asked] at custody
    simp [Loop.custody, Stop.custody] at custody
  · cases halted

/-- When a scan is over, the scheduler holds nothing and its report is complete. -/
theorem scan_leaves_no_claim (sch : Scheduler) {s : Store} (online : s.online = true)
    (distinct : (s.deliveries.map (·.id)).Nodup)
    (unclaimed : ∀ d ∈ s.deliveries, d.claimedBy ≠ some sch.id) {hs : List Happening}
    (steady : ∀ e ∈ hs, e.cutsOff = false) (rests : ((started s).run sch hs).loop = .resting) :
    (∀ d ∈ ((started s).run sch hs).store.deliveries, d.claimedBy ≠ some sch.id) ∧
      ((started s).run sch hs).held = [] ∧
      ∀ r, ((started s).run sch hs).last = some (.ok r) →
        r.claimed = r.delivered + r.retrying + r.dead + r.released + r.errors ∧ r.errors = 0 := by
  have start := guards_started distinct unclaimed
  have guards := start.run hs
  have counts := (counts_started s).run start hs
  have nothing : (started s).strays sch hs = [] := strays_nothing online steady (by rw [rests]; rfl)
  rw [nothing, List.append_nil] at guards counts
  obtain ⟨unclaimed', unheld⟩ := guards.rests_unheld rests
  refine ⟨unclaimed', unheld, fun r last => ?_⟩
  obtain ⟨all, unfailed⟩ := counts.last r last
  exact ⟨all.symm, unfailed rfl⟩

namespace Sample
open Fleet.Sample

def handedBack : Desk := (started due).run scheduler (Sample.claimed ++ [.ask] ++ calls (second 1) ++ [.finish])

theorem handedBack_rests : handedBack.loop = .resting := by decide +kernel

end Sample

theorem scan_leaves_no_claim_handedBack :
    (∀ d ∈ Sample.handedBack.store.deliveries, d.claimedBy ≠ some Sample.scheduler.id) ∧
      Sample.handedBack.held = [] ∧ ∃ r, Sample.handedBack.last = some (.ok r) ∧ r.claimed = 1 ∧ r.released = 1 ∧
        r.claimed = r.delivered + r.retrying + r.dead + r.released + r.errors ∧ r.errors = 0 := by
  obtain ⟨unclaimed, unheld, report⟩ := scan_leaves_no_claim Sample.scheduler (s := Sample.due)
    (by decide +kernel) (by decide +kernel) (by decide +kernel) (by decide +kernel) Sample.handedBack_rests
  have last : Sample.handedBack.last = some (.ok ⟨1, 0, 0, 0, 1, 0⟩) := by decide +kernel
  exact ⟨unclaimed, unheld, _, last, rfl, rfl, report _ last⟩

end Desk

end Courier
