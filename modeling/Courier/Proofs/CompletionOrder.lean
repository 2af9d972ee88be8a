import Courier.Proofs.Bench
set_option autoImplicit false

namespace Courier

namespace Scene

variable {c : Scene} {ws : List Webhook} {s t : Store} {batch : List Delivery} {ts : List Turn}
  {ends : List (Delivery × Worker.Result)} {b : Bench} {d : Delivery}

variable (c) in
def settled (ws : List Webhook) (batch : List Delivery) (d : Delivery) : Delivery :=
  if d.id ∈ batch.map (·.id) then c.concluded ws d else d

theorem settled_id (d : Delivery) : (c.settled ws batch d).id = d.id := by
  unfold settled
  split
  · exact concluded_id d
  · rfl

/-! ### Rows and report at the end -/

variable (c) in
def closedBy (ws : List Webhook) (batch : List Delivery) (f : Delivery → Worker.Result) (d : Delivery) : Delivery :=
  if d.id ∈ batch.map (·.id) then c.close ws d (f d) else d

theorem Ends.calm {d : Delivery} {r : Worker.Result} (ends : c.Ends ws d false true r) :
    ∃ change, c.verdict ws d = some change ∧ r = Worker.resultOf (c.concluded ws d) := by
  cases ends with
  | handedBack h => cases h
  | failed h => cases h
  | concluded h => exact ⟨_, h, by rw [concluded_eq h]⟩

section Complete

variable (stands : c.Stands s batch ts ends b)
include stands

theorem ended_batch (idle : b.scan.unfinished = []) : (ends.map (·.1)).Perm batch := by
  have parts := stands.parts
  rwa [idle, List.map_nil, List.append_nil] at parts

section Fates

variable (idle : b.scan.unfinished = []) {f : Delivery → Worker.Result} (fates : ∀ e ∈ ends, e.2 = f e.1)
include idle fates

theorem rows_closedBy (claims : c.Claims s batch) :
    b.store.deliveries = s.deliveries.map (c.closedBy s.webhooks batch f) := by
  have whole := ended_batch stands idle
  rw [stands.rows]
  refine List.map_congr_left fun d hd => ?_
  unfold closedBy
  split
  · rename_i member
    obtain ⟨x, hx, same⟩ := List.mem_map.mp member
    obtain ⟨e, he, rfl⟩ := List.mem_map.mp (whole.mem_iff.mpr hx)
    have found : ∃ y, ends.find? (·.1.id = d.id) = some y := by
      rw [← Option.isSome_iff_exists, List.find?_isSome]
      exact ⟨e, he, by simpa using same⟩
    obtain ⟨y, hy⟩ := found
    have hid : y.1.id = d.id := by simpa using List.find?_some hy
    have hmem : y ∈ ends := List.mem_of_find?_eq_some hy
    have stored := claims.stored _ (whole.mem_iff.mp (List.mem_map_of_mem hmem))
    have itself : y.1 = d := List.inj_on_of_nodup_map claims.distinct stored.row hd hid
    rw [closed, hy, Option.map_some, Option.getD_some, fates y hmem, itself]
  · rename_i outside
    refine closed_open fun e he same => outside ?_
    have member : e.1 ∈ batch := whole.mem_iff.mp (List.mem_map_of_mem he)
    exact same ▸ List.mem_map_of_mem member

theorem report_fates : b.scan.report = .of batch.length (batch.map f) := by
  have results : ends.map (·.2) = (ends.map (·.1)).map f := by
    rw [List.map_map]
    exact List.map_congr_left fates
  rw [Scan.report_eq, stands.claimed, stands.results, results]
  exact Report.of_perm ((ended_batch stands idle).map _)

end Fates

variable (calm : ∀ u ∈ ts, u.stopping = false ∧ u.online = true)
include calm

theorem ended_calm : ∀ e ∈ ends, ∃ change,
    c.verdict s.webhooks e.1 = some change ∧ e.2 = Worker.resultOf (c.concluded s.webhooks e.1) := by
  intro e he
  obtain ⟨u, hu, -, how⟩ := stands.ended e he
  obtain ⟨unasked, reached⟩ := calm u hu
  rw [unasked, reached] at how
  exact how.calm

theorem fates_calm : ∀ e ∈ ends, e.2 = Worker.resultOf (c.concluded s.webhooks e.1) := by
  intro e he
  obtain ⟨-, -, how⟩ := ended_calm stands calm e he
  exact how

variable (idle : b.scan.unfinished = [])
include idle

theorem rows_settled (claims : c.Claims s batch) :
    b.store.deliveries = s.deliveries.map (c.settled s.webhooks batch) := by
  have fates := fates_calm stands calm
  rw [rows_closedBy (f := fun d => Worker.resultOf (c.concluded s.webhooks d)) stands idle fates claims]
  refine List.map_congr_left fun d _ => ?_
  rw [closedBy, close_resultOf]
  rfl

theorem verdict_settled : ∀ d ∈ batch, ∃ change, c.verdict s.webhooks d = some change := by
  intro d hd
  obtain ⟨e, he, rfl⟩ := List.mem_map.mp ((ended_batch stands idle).mem_iff.mpr hd)
  obtain ⟨change, hverdict, -⟩ := ended_calm stands calm e he
  exact ⟨change, hverdict⟩

theorem report_settled :
    b.scan.report = .of batch.length (batch.map fun d => Worker.resultOf (c.concluded s.webhooks d)) :=
  report_fates stands idle (fates_calm stands calm)

end Complete

/-! ### What a report says about the rows -/

def ended (batch : List Delivery) (s : Store) (status : Status) : Nat :=
  s.deliveries.countP fun d => d.id ∈ batch.map (·.id) ∧ d.status = status

theorem concluded_listed {change : Change} (h : c.verdict ws d = some change) :
    (c.concluded ws d).status = .pending ∨ (c.concluded ws d).status = .delivered ∨
      (c.concluded ws d).status = .dead := by
  rw [concluded_eq h]
  cases verdict_writes h with
  | attempt call =>
    obtain ⟨n, -, ⟨-, rfl⟩ | ⟨-, -, due, rfl⟩ | ⟨-, rfl⟩⟩ := Change.afterAttempt_ok call
    · exact .inr (.inl rfl)
    · exact .inl rfl
    · exact .inr (.inr rfl)
  | noAttempt => exact .inr (.inr rfl)

/-- The rows of the batch are its deliveries, in another order. -/
theorem batch_rows (claims : c.Claims s batch) : (s.deliveries.filter (·.id ∈ batch.map (·.id))).Perm batch := by
  refine (List.perm_ext_iff_of_nodup ?_ claims.ids.of_map).mpr fun d => ?_
  · exact claims.distinct.of_map.filter _
  · rw [List.mem_filter, decide_eq_true_eq]
    constructor
    · rintro ⟨hd, member⟩
      obtain ⟨x, hx, same⟩ := List.mem_map.mp member
      have itself : x = d := List.inj_on_of_nodup_map claims.distinct (claims.stored x hx).row hd same
      exact itself ▸ hx
    · intro hd
      exact ⟨(claims.stored d hd).row, List.mem_map_of_mem hd⟩

theorem count_settled (claims : c.Claims s batch) (status : Status) (result : Worker.Result)
    (agrees : ∀ d ∈ batch,
      Worker.resultOf (c.concluded s.webhooks d) = result ↔ (c.concluded s.webhooks d).status = status) :
    (batch.map fun d => Worker.resultOf (c.concluded s.webhooks d)).count result =
      ended batch { s with deliveries := s.deliveries.map (c.settled s.webhooks batch) } status := by
  have rows := batch_rows claims
  calc (batch.map fun d => Worker.resultOf (c.concluded s.webhooks d)).count result
      = batch.countP fun d => (c.concluded s.webhooks d).status = status := by
        rw [List.count, List.countP_map]
        refine List.countP_congr fun d hd => ?_
        simpa using agrees d hd
    _ = (s.deliveries.filter (·.id ∈ batch.map (·.id))).countP fun d => (c.concluded s.webhooks d).status = status :=
        (rows.countP_eq _).symm
    _ = ended batch { s with deliveries := s.deliveries.map (c.settled s.webhooks batch) } status := by
        unfold ended
        rw [List.countP_filter, List.countP_map]
        refine List.countP_congr fun d _ => ?_
        simp only [Function.comp_apply, settled_id, Bool.and_eq_true, decide_eq_true_eq]
        rw [and_comm]
        refine and_congr_right fun member => ?_
        rw [settled, if_pos member]

theorem report_rows (claims : c.Claims s batch)
    (verdicts : ∀ d ∈ batch, ∃ change, c.verdict s.webhooks d = some change) :
    let t := { s with deliveries := s.deliveries.map (c.settled s.webhooks batch) }
    Report.of batch.length (batch.map fun d => Worker.resultOf (c.concluded s.webhooks d)) =
      ⟨batch.length, ended batch t .delivered, ended batch t .pending, ended batch t .dead, 0, 0⟩ := by
  intro t
  have listed : ∀ d ∈ batch, (c.concluded s.webhooks d).status = .pending ∨
      (c.concluded s.webhooks d).status = .delivered ∨ (c.concluded s.webhooks d).status = .dead := by
    intro d hd
    obtain ⟨change, hverdict⟩ := verdicts d hd
    exact concluded_listed hverdict
  have unreached : ∀ r : Worker.Result, r = .released ∨ r = .failed →
      (batch.map fun d => Worker.resultOf (c.concluded s.webhooks d)).count r = 0 := by
    intro r hr
    refine List.count_eq_zero.mpr fun member => ?_
    obtain ⟨d, -, rfl⟩ := List.mem_map.mp member
    obtain ⟨unreleased, unfailed⟩ := Worker.resultOf_ne (c.concluded s.webhooks d)
    exact hr.elim unreleased unfailed
  have delivered := count_settled claims .delivered .delivered fun d hd => by
    rcases listed d hd with h | h | h <;> simp [Worker.resultOf, h]
  have retrying := count_settled claims .pending .retrying fun d hd => by
    rcases listed d hd with h | h | h <;> simp [Worker.resultOf, h]
  have dead := count_settled claims .dead .dead fun d hd => by
    rcases listed d hd with h | h | h <;> simp [Worker.resultOf, h]
  rw [Report.of, delivered, retrying, dead, unreached _ (.inl rfl), unreached _ (.inr rfl)]

/-! ### The scan from its claim on -/

variable (c) in
def taken (d : Delivery) : Delivery :=
  { d with claimedBy := some c.scheduler.id, claimedUntil := Worker.claimEnd? c.scheduler.config c.now }

theorem claim_total (online : s.online = true) (dates : c.InRange s) :
    ∃ batch t, Scan.claim c.scheduler c.now s = .ok (batch, t) := by
  obtain ⟨till, lease⟩ := Option.isSome_iff_exists.mp dates.lease
  unfold Scan.claim Store.claimDue
  rw [Store.whenOnline_eq _ online, show c.now.add? c.scheduler.config.lease = some till from lease]
  exact ⟨_, _, rfl⟩

section Claimed

variable (call : Scan.claim c.scheduler c.now s = .ok (batch, t))
include call

theorem claims_of_claim (distinct : (s.deliveries.map (·.id)).Nodup) : c.Claims t batch := by
  obtain ⟨-, till, lease, -, members, ids⟩ := Store.claimDue_ok call
  refine ⟨(Store.claimDue_ids call).symm ▸ distinct, ids distinct, fun x hx => ?_⟩
  obtain ⟨row, d, -, claimable, rfl⟩ := members x hx
  exact ⟨row, rfl, lease.symm, (Delivery.isClaimable_iff.mp claimable).1⟩

theorem taken_claimed (distinct : (s.deliveries.map (·.id)).Nodup) (hd : d ∈ s.deliveries)
    (inside : d.id ∈ batch.map (·.id)) : c.taken d ∈ batch := by
  obtain ⟨-, till, lease, -, members, -⟩ := Store.claimDue_ok call
  obtain ⟨x, hx, same⟩ := List.mem_map.mp inside
  obtain ⟨-, y, hy, -, rfl⟩ := members x hx
  have itself : y = d := List.inj_on_of_nodup_map distinct hy hd same
  have claimed : y.apply (.claim c.scheduler.id till) = c.taken d := by
    rw [itself, taken, Worker.claimEnd?, lease]
    rfl
  exact claimed ▸ hx

theorem inRange_claimed (dates : c.InRange s) : c.InRange t := by
  obtain ⟨-, till, -, rows, -, -⟩ := Store.claimDue_ok call
  refine ⟨dates.lease, fun e he below => ?_⟩
  obtain ⟨d, hd, kept⟩ | added := rows.origin he
  · have attempts : e.attempts = d.attempts := by
      rcases kept with rfl | ⟨-, rfl, -⟩
      · rfl
      · rfl
    rw [attempts] at below ⊢
    exact dates.attempts d hd below
  · exact added.elim

theorem outside_claimed :
    t.deliveries.filter (·.id ∉ batch.map (·.id)) = s.deliveries.filter (·.id ∉ batch.map (·.id)) := by
  obtain ⟨-, till, -, rows, -, -⟩ := Store.claimDue_ok call
  refine rows.filter_eq ?_
  rintro d e (rfl | ⟨-, rfl, member⟩)
  · exact ⟨rfl, fun _ => rfl⟩
  · have inside : d.id ∈ batch.map (·.id) := List.mem_map.mpr ⟨_, member, rfl⟩
    refine ⟨rfl, fun outside => ?_⟩
    exact absurd inside (by simpa using outside)

end Claimed

/-- Maps of the rows that agree where something holds of the identifier leave the same rows there. -/
theorem rows_agree {f g : Delivery → Delivery} (ids : ∀ d, (f d).id = d.id) (ids' : ∀ d, (g d).id = d.id)
    {p : Uuid → Prop} [DecidablePred p] (agree : ∀ d, p d.id → f d = g d) (ds : List Delivery) :
    (ds.map f).filter (p ·.id) = (ds.map g).filter (p ·.id) := by
  have kept : ∀ h : Delivery → Delivery, (∀ d, (h d).id = d.id) →
      (fun d : Delivery => decide (p d.id)) ∘ h = fun d => decide (p d.id) := by
    intro h same
    funext d
    simp only [Function.comp_apply, same]
  rw [List.filter_map, List.filter_map, kept f ids, kept g ids']
  refine List.map_congr_left fun d hd => agree d ?_
  simpa using (List.mem_filter.mp hd).2

/-- Rows that are not in the batch are left alone by a map that is about the batch only. -/
theorem outside_kept {f : Delivery → Delivery} (ids : ∀ d, (f d).id = d.id)
    (outside : ∀ d, d.id ∉ batch.map (·.id) → f d = d) (ds : List Delivery) :
    (ds.map f).filter (·.id ∉ batch.map (·.id)) = ds.filter (·.id ∉ batch.map (·.id)) := by
  have same := rows_agree (g := id) (p := (· ∉ batch.map (·.id))) ids (fun _ => rfl) outside ds
  rwa [List.map_id] at same

theorem outside_settled (ds : List Delivery) :
    (ds.map (c.settled ws batch)).filter (·.id ∉ batch.map (·.id)) = ds.filter (·.id ∉ batch.map (·.id)) :=
  outside_kept settled_id (fun _ outside => if_neg outside) ds

theorem Completes.settles {n : Nat} (claims : c.Claims s batch) (online : s.online = true)
    (completes : c.Completes n batch s b) :
    b.store = { s with deliveries := s.deliveries.map (c.settled s.webhooks batch) } ∧
      b.scan.report = .of batch.length (batch.map fun d => Worker.resultOf (c.concluded s.webhooks d)) ∧
      ∀ d ∈ batch, ∃ change, c.verdict s.webhooks d = some change := by
  obtain ⟨ids, hrun, done⟩ := completes
  obtain ⟨ends, stands⟩ := (Stands.opened n batch s).run claims hrun
  have calm : ∀ u ∈ [] ++ ids.map Turn.calm, u.stopping = false ∧ u.online = true := by
    intro u hu
    obtain ⟨id, -, rfl⟩ := List.mem_map.mp hu
    exact ⟨rfl, rfl⟩
  have idle := b.scan.isDone_iff.mp done
  have reached : b.store.online = s.online := by
    rw [online]
    exact stands.online online fun u hu => (calm u hu).2
  refine ⟨?_, report_settled stands calm idle, verdict_settled stands calm idle⟩
  have rows := rows_settled stands calm idle claims
  have webhooks := stands.webhooks
  cases hstore : b.store with
  | mk ws ds reach =>
    rw [hstore] at rows webhooks reached
    dsimp only at rows webhooks reached
    rw [rows, webhooks, reached]

/-- However a scan is worked off, the store and the report are those of a scan with room for one worker only. With room
for the whole batch the workers may start in any order. -/
theorem completion_order_irrelevant (c : Scene) {s : Store} (online : s.online = true)
    (distinct : (s.deliveries.map (·.id)).Nodup) (dates : c.InRange s) :
    ∃ batch claimed one, Scan.claim c.scheduler c.now s = .ok (batch, claimed) ∧ c.Completes 1 batch claimed one ∧
      (∀ n, 1 ≤ n → ∃ many, c.Completes n batch claimed many) ∧
      (∀ n many, c.Completes n batch claimed many → many.store = one.store ∧ many.scan.report = one.scan.report) ∧
      one.store.webhooks = s.webhooks ∧ one.store.deliveries.map (·.id) = s.deliveries.map (·.id) ∧
      one.store.deliveries.filter (·.id ∉ batch.map (·.id)) = s.deliveries.filter (·.id ∉ batch.map (·.id)) ∧
      one.scan.report = ⟨batch.length, ended batch one.store .delivered, ended batch one.store .pending,
        ended batch one.store .dead, 0, 0⟩ := by
  obtain ⟨batch, claimed, call⟩ := claim_total online dates
  have claims := claims_of_claim call distinct
  have reached : claimed.online = true := (Store.claimDue_ok call).1.online.trans online
  have completes : ∀ n, 1 ≤ n → ∃ b, c.Completes n batch claimed b := by
    intro n pos
    obtain ⟨ids, b, hrun, done⟩ := (Stands.opened n batch claimed).completes pos claims (inRange_claimed call dates)
      (Fleet.waiting_fill pos _)
    exact ⟨b, ids, hrun, done⟩
  obtain ⟨one, hone⟩ := completes 1 (Nat.le_refl 1)
  obtain ⟨store, report, verdicts⟩ := hone.settles claims reached
  refine ⟨batch, claimed, one, call, hone, completes, fun n many hmany => ?_, ?_, ?_, ?_, ?_⟩
  · obtain ⟨store', report', -⟩ := hmany.settles claims reached
    exact ⟨store'.trans store.symm, report'.trans report.symm⟩
  · rw [store]
    exact (Store.claimDue_ok call).1.webhooks
  · rw [store, ← Store.claimDue_ids call]
    refine List.map_map.trans (List.map_congr_left fun d _ => settled_id d)
  · rw [store, ← outside_claimed call]
    exact outside_settled claimed.deliveries
  · rw [store, report]
    exact report_rows claims verdicts

namespace Sample
open Fleet.Sample

def letter : Uuid := .ofNat 5

def written : Store :=
  let found := [registration.toWebhook hook (second 0)]
  (Fleet.initial.run crew
    [.createWebhook registration hook (second 0),
      .dispatch ⟨"page.published", second 0, .null⟩ (second 0) found (fun _ => parcel) (second 0),
      .dispatch ⟨"page.hidden", second 0, .null⟩ (second 1) found (fun _ => letter) (second 0)]).store

def scene : Scene where
  scheduler := crew.scheduler north
  now := second 1
  receiver d _ := if d.id = letter then thanked else unavailable

theorem first_attempt (o : Outcome) :
    ∃ change, Change.afterAttempt (.ofNat 0) o scene.scheduler.config.policy scene.now = .ok change := by
  obtain ⟨verdict, code, body, error⟩ := o
  cases verdict
  all_goals exact ⟨_, rfl⟩

theorem inRange : scene.InRange written where
  lease := by decide +kernel
  attempts d hd _ o := by
    have untried : ∀ d ∈ written.deliveries, d.attempts = .ofNat 0 := by decide +kernel
    rw [untried d hd]
    exact first_attempt o

theorem due_written : written.due scene.now = written.deliveries.zipIdx.filter fun x => x.1.isClaimable scene.now :=
  List.mergeSort_of_pairwise (by decide +kernel)

def turns : List Uuid := [parcel, letter, letter, parcel, letter, letter, parcel, parcel]

end Sample

theorem completion_order_irrelevant_interleaved :
    ∃ batch claimed one, Scan.claim Sample.scene.scheduler Sample.scene.now Sample.written = .ok (batch, claimed) ∧
      Sample.scene.Completes 1 batch claimed one ∧
      (∀ n many, Sample.scene.Completes n batch claimed many →
        many.store = one.store ∧ many.scan.report = one.scan.report) ∧
      one.scan.report = ⟨2, 1, 1, 0, 0, 0⟩ := by
  obtain ⟨batch, claimed, one, call, completes, -, same, -⟩ :=
    completion_order_irrelevant Sample.scene (s := Sample.written) rfl (by decide +kernel) Sample.inRange
  refine ⟨batch, claimed, one, call, completes, same, ?_⟩
  have run : ((Scan.claim Sample.scene.scheduler Sample.scene.now Sample.written).toOption.bind fun r =>
      (Sample.scene.run 2 (opened 2 r.1 r.2) (Sample.turns.map .calm)).map fun b => (b.scan.isDone, b.scan.report)) =
      some (true, ⟨2, 1, 1, 0, 0, 0⟩) := by
    unfold Scan.claim Store.claimDue
    rw [Sample.due_written]
    decide +kernel
  rw [call] at run
  obtain ⟨many, hmany, hpair⟩ := Option.map_eq_some_iff.mp run
  obtain ⟨done, report⟩ := Prod.mk.inj hpair
  rw [← (same 2 many ⟨Sample.turns, hmany, done⟩).2]
  exact report

end Scene

end Courier
