import Courier.Proofs.CompletionOrder
set_option autoImplicit false

/-!
# Calls that do not reach the store

Each call of a worker to the store may get through or not. A delivery all of whose calls get through ends as if every
call of the scan did. A delivery with a call that does not get through is left as it was claimed, even if its request
went out before, and it can be claimed again once the claim is over.
-/

namespace Courier

inductive Worker.StoreCall where
  | release
  | renew
  | look
  | complete
  deriving DecidableEq

namespace Scene

/-- Which workers find the scheduler stopping, and which calls reach the store. -/
structure Weather where
  stopping : Uuid → Bool
  reaches : Uuid → Worker.StoreCall → Bool

namespace Weather

variable (w : Weather) (id : Uuid)

def clear : Weather := { w with reaches := fun _ _ => true }

/-- The calls for a delivery in their order; the first that does not get through is the last that is made. -/
def calls : List Worker.StoreCall := if w.stopping id then [.release] else [.renew, .look, .complete]

def Spares : Prop := ∀ call ∈ w.calls id, w.reaches id call = true

instance : Decidable (w.Spares id) := inferInstanceAs (Decidable (∀ call ∈ w.calls id, w.reaches id call = true))

/-- The call that a worker makes in its next turn; the turn in which the request is answered has none. -/
def call? (k : Worker) : Option Worker.StoreCall :=
  match k.stage with
  | .waiting => some (if w.stopping k.delivery.id then .release else .renew)
  | .renewed => some .look
  | .sending _ => none
  | .reporting _ => some .complete
  | .done _ => none

def turn (k : Worker) : Turn where
  delivery := k.delivery.id
  stopping := w.stopping k.delivery.id
  online := (w.call? k).all (w.reaches k.delivery.id)

variable {w id}

theorem calls_stopping (asked : w.stopping id = true) : w.calls id = [.release] := by
  simp [calls, asked]

theorem calls_working (unasked : w.stopping id = false) : w.calls id = [.renew, .look, .complete] := by
  simp [calls, unasked]

theorem not_spares {call : Worker.StoreCall} (made : call ∈ w.calls id) (lost : w.reaches id call = false) :
    ¬ w.Spares id := by
  intro spared
  rw [spared call made] at lost
  cases lost

theorem clear_spares (w : Weather) (id : Uuid) : w.clear.Spares id := fun _ _ => rfl

theorem clear_turn (k : Worker) (unasked : w.stopping k.delivery.id = false) :
    w.clear.turn k = .calm k.delivery.id := by
  unfold turn Turn.calm
  rw [show w.clear.stopping k.delivery.id = false from unasked]
  cases w.clear.call? k <;> rfl

end Weather

variable {c : Scene} {w : Weather} {ws : List Webhook} {s t : Store} {batch : List Delivery} {ts : List Turn}
  {ends : List (Delivery × Worker.Result)} {n : Nat} {b b' : Bench} {d : Delivery} {stage next : Worker.Stage}

variable (c) in
def resultIn (w : Weather) (ws : List Webhook) (d : Delivery) : Worker.Result :=
  if w.Spares d.id then
    if w.stopping d.id then .released else Worker.resultOf (c.concluded ws d)
  else .failed

variable (c) in
def Weathers (w : Weather) (n : Nat) (batch : List Delivery) (s : Store) (b : Bench) : Prop :=
  ∃ ids : List Uuid, c.play n w.turn (opened n batch s) ids = some b ∧ b.scan.isDone = true

/-- When no worker is asked to stop and all calls get through, nothing is in the way. -/
theorem weathers_clear (unasked : ∀ id, w.stopping id = false) :
    c.Weathers w.clear n batch s b ↔ c.Completes n batch s b := by
  have calm : w.clear.turn = fun k => .calm k.delivery.id := by
    funext k
    exact Weather.clear_turn k (unasked k.delivery.id)
  unfold Weathers Completes
  simp only [calm, play_calm]

theorem resultIn_spared (spared : w.Spares d.id) : c.resultIn w ws d = c.resultIn w.clear ws d := by
  have clear := w.clear_spares d.id
  have asked : w.clear.stopping d.id = w.stopping d.id := rfl
  simp only [resultIn, spared, clear, if_true, asked]

theorem resultIn_unspared (unspared : ¬ w.Spares d.id) : c.resultIn w ws d = .failed := if_neg unspared

theorem resultIn_failed : c.resultIn w ws d = .failed ↔ ¬ w.Spares d.id := by
  refine ⟨fun failed spared => ?_, resultIn_unspared⟩
  have unfailed := (Worker.resultOf_ne (c.concluded ws d)).2
  simp only [resultIn, spared, if_true] at failed
  split at failed
  · cases failed
  · exact unfailed failed

/-! ### One turn -/

variable (c) in
/-- The calls that the worker has behind it got through, or it ended as it must. -/
def Fares (w : Weather) (ws : List Webhook) (k : Worker) : Prop :=
  match k.stage with
  | .waiting => True
  | .renewed => w.stopping k.delivery.id = false ∧ w.reaches k.delivery.id .renew = true
  | .sending _ | .reporting _ =>
    w.stopping k.delivery.id = false ∧ w.reaches k.delivery.id .renew = true ∧ w.reaches k.delivery.id .look = true
  | .done r => r = c.resultIn w ws k.delivery

theorem fares_failed {call : Worker.StoreCall} (made : call ∈ w.calls d.id) (lost : w.reaches d.id call = false) :
    c.Fares w ws ⟨d, .done .failed⟩ :=
  (resultIn_unspared (Weather.not_spares made lost)).symm

theorem look_fares (fares : c.Fares w ws ⟨d, .renewed⟩) (reach : s.online = (w.turn ⟨d, .renewed⟩).online) :
    c.Fares w ws ⟨d, Worker.look c.scheduler d (s.getWebhook d.webhookId)⟩ := by
  obtain ⟨unasked, renewed⟩ := fares
  simp only [Weather.turn, Weather.call?, Option.all_some] at reach
  cases reached : w.reaches d.id .look with
  | false =>
    rw [look_offline (reach.trans reached)]
    exact fares_failed (by simp [Weather.calls_working unasked]) reached
  | true =>
    rw [look_online (reach.trans reached)]
    rcases judge_cases c s.webhooks d with ⟨hook, hjudge, -⟩ | ⟨reason, hjudge⟩
    · rw [hjudge]
      exact ⟨unasked, renewed, reached⟩
    · rw [hjudge]
      exact ⟨unasked, renewed, reached⟩

section Turn

variable (distinct : (s.deliveries.map (·.id)).Nodup) (has : c.Has s d)
include distinct has

theorem start_fares (reach : s.online = (w.turn ⟨d, .waiting⟩).online)
    (h : Worker.start c.scheduler d (w.stopping d.id) c.now s = .ok (next, t)) : c.Fares w ws ⟨d, next⟩ := by
  simp only [Weather.turn, Weather.call?, Option.all_some] at reach
  cases asked : w.stopping d.id with
  | true =>
    have calls := Weather.calls_stopping asked
    simp only [asked, if_true] at h reach
    cases reached : w.reaches d.id .release with
    | false =>
      have stopped := (start_offline (reach.trans reached) h).1
      rw [stopped]
      exact fares_failed (by simp [calls]) reached
    | true =>
      have spared : w.Spares d.id := by simp [Weather.Spares, calls, reached]
      rw [start_stopping distinct has (reach.trans reached)] at h
      cases h
      change Worker.Result.released = c.resultIn w ws d
      simp [resultIn, spared, asked]
  | false =>
    have calls := Weather.calls_working asked
    simp only [asked, Bool.false_eq_true, if_false] at h reach
    cases reached : w.reaches d.id .renew with
    | false =>
      have stopped := (start_offline (reach.trans reached) h).1
      rw [stopped]
      exact fares_failed (by simp [calls]) reached
    | true =>
      have renewed := (start_renews distinct has (reach.trans reached) h).1
      rw [renewed]
      exact ⟨asked, reached⟩

theorem report_fares {change : Change} (course : c.verdict ws d = some change)
    (fares : c.Fares w ws ⟨d, .reporting change⟩) (reach : s.online = (w.turn ⟨d, .reporting change⟩).online) :
    c.Fares w ws ⟨d, (Worker.report c.scheduler d change s).1⟩ := by
  obtain ⟨unasked, renewed, looked⟩ := fares
  have calls := Weather.calls_working unasked
  simp only [Weather.turn, Weather.call?, Option.all_some] at reach
  cases reached : w.reaches d.id .complete with
  | false =>
    rw [report_offline (reach.trans reached)]
    exact fares_failed (by simp [calls]) reached
  | true =>
    have spared : w.Spares d.id := by
      rw [Weather.Spares, calls]
      simpa using ⟨renewed, looked, reached⟩
    rw [report_online distinct has (reach.trans reached)]
    change Worker.resultOf (d.apply change) = c.resultIn w ws d
    rw [resultIn, if_pos spared, if_neg (Bool.eq_false_iff.mp unasked), concluded_eq course]

theorem turn_fares (course : c.OnCourse ws ⟨d, stage⟩) (fares : c.Fares w ws ⟨d, stage⟩)
    (reach : s.online = (w.turn ⟨d, stage⟩).online)
    (h : c.turn ⟨d, stage⟩ (w.stopping d.id) s = some (next, t)) : c.Fares w ws ⟨d, next⟩ := by
  cases stage with
  | waiting => exact start_fares distinct has reach (toOption_eq_some.mp h)
  | renewed =>
    cases h
    exact look_fares fares reach
  | sending hook =>
    -- no call is made in this turn, so nothing new is asked of the weather
    obtain ⟨next, hanswer, hpair⟩ := Option.map_eq_some_iff.mp h
    cases hpair
    obtain ⟨change, -, rfl⟩ := Worker.answer_ok (toOption_eq_some.mp hanswer)
    exact fares
  | reporting change =>
    have hreport : Worker.report c.scheduler d change s = (next, t) := Option.some.inj h
    have reported := report_fares distinct has course fares reach
    rwa [hreport] at reported
  | done => cases h

end Turn

/-! ### A whole scan -/

variable (c) in
structure Braves (w : Weather) (ws : List Webhook) (ends : List (Delivery × Worker.Result)) (b : Bench) : Prop where
  going : ∀ k ∈ b.scan.unfinished, c.Fares w ws k
  ended : ∀ e ∈ ends, e.2 = c.resultIn w ws e.1

theorem braves_opened (n : Nat) (batch : List Delivery) (s : Store) : c.Braves w ws [] (opened n batch s) where
  going k hk := by
    change k ∈ (Scan.fill (.ofBatch batch) n).unfinished at hk
    rw [Scan.unfinished_fill, Scan.unfinished_ofBatch] at hk
    obtain ⟨d, -, rfl⟩ := List.mem_map.mp hk
    exact trivial
  ended e he := by cases he

theorem Braves.prompt (claims : c.Claims s batch) (stands : c.Stands s batch ts ends b)
    (braves : c.Braves w s.webhooks ends b) {id : Uuid} (h : c.prompt n w.turn b id = some b') :
    ∃ ts' ends', c.Stands s batch ts' ends' b' ∧ c.Braves w s.webhooks ends' b' := by
  obtain ⟨k, turn, hstep⟩ := Option.bind_eq_some_iff.mp h
  have own : b.scan.turn? (w.turn k).delivery = some k := by
    rw [show (w.turn k).delivery = k.delivery.id from rfl, Scan.id_of_turn turn]
    exact turn
  rw [Scene.step, own, Option.bind_some] at hstep
  obtain ⟨⟨next, t⟩, hturn, rfl⟩ := Option.map_eq_some_iff.mp hstep
  have hk := Scan.mem_of_turn turn
  refine ⟨_, _, stands.moved claims own hturn, ?_⟩
  have distinct : ((b.store.setOnline (w.turn k).online).deliveries.map (·.id)).Nodup := stands.distinct claims
  have has := stands.has claims hk (w.turn k).online
  have fares : c.Fares w s.webhooks ⟨k.delivery, next⟩ :=
    turn_fares distinct has (stands.course k hk) (braves.going k hk) rfl hturn
  obtain ⟨rest, before, after⟩ := Scan.unfinished_moved turn n next
  refine ⟨fun j hj => ?_, fun e he => ?_⟩
  · rcases List.mem_append.mp (after.mem_iff.mp hj) with mover | other
    · split at mover
      · cases mover
      · rw [List.mem_singleton.mp mover]
        exact fares
    · exact braves.going j (before.mem_iff.mpr (List.mem_cons_of_mem _ other))
  · rcases List.mem_append.mp he with old | new
    · exact braves.ended e old
    · cases next with
      | done r =>
        rw [List.mem_singleton.mp new]
        exact fares
      | waiting | renewed | sending | reporting => cases new

theorem Braves.play (claims : c.Claims s batch) (stands : c.Stands s batch ts ends b)
    (braves : c.Braves w s.webhooks ends b) {ids : List Uuid} (h : c.play n w.turn b ids = some b') :
    ∃ ts' ends', c.Stands s batch ts' ends' b' ∧ c.Braves w s.webhooks ends' b' := by
  induction ids generalizing ts ends b with
  | nil =>
    cases h
    exact ⟨ts, ends, stands, braves⟩
  | cons id ids ih =>
    obtain ⟨next, hprompt, hrest⟩ := Option.bind_eq_some_iff.mp h
    obtain ⟨ts', ends', stands', braves'⟩ := braves.prompt claims stands hprompt
    exact ih stands' braves' hrest

theorem closedBy_id (f : Delivery → Worker.Result) (d : Delivery) : (c.closedBy ws batch f d).id = d.id := by
  unfold closedBy
  split
  · exact close_id d (f d)
  · rfl

theorem Weathers.settles (claims : c.Claims s batch) (weathers : c.Weathers w n batch s b) :
    b.store.webhooks = s.webhooks ∧
      b.store.deliveries = s.deliveries.map (c.closedBy s.webhooks batch (c.resultIn w s.webhooks)) ∧
      b.scan.report = .of batch.length (batch.map (c.resultIn w s.webhooks)) := by
  obtain ⟨ids, hplay, done⟩ := weathers
  obtain ⟨ts, ends, stands, braves⟩ := (braves_opened n batch s).play claims (.opened n batch s) hplay
  have idle := b.scan.isDone_iff.mp done
  exact ⟨stands.webhooks, rows_closedBy stands idle braves.ended claims, report_fates stands idle braves.ended⟩

/-- The scan can be brought to its end whatever the weather. -/
theorem weathers_exists (pos : 1 ≤ n) (claims : c.Claims s batch)
    (lease : (Worker.claimEnd? c.scheduler.config c.now).isSome) (fits : ∀ d ∈ batch, c.Fits d) (w : Weather) :
    ∃ b, c.Weathers w n batch s b := by
  obtain ⟨ids, b, hplay, done⟩ := (Stands.opened n batch s).finishes pos claims lease fits w.turn (fun _ => rfl)
    (Fleet.waiting_fill pos _)
  exact ⟨b, ids, hplay, done⟩

theorem closedBy_spared (spared : w.Spares d.id) :
    c.closedBy ws batch (c.resultIn w ws) d = c.closedBy ws batch (c.resultIn w.clear ws) d := by
  unfold closedBy
  rw [resultIn_spared spared]

theorem closedBy_unspared (unspared : ¬ w.Spares d.id) : c.closedBy ws batch (c.resultIn w ws) d = d := by
  unfold closedBy
  rw [resultIn_unspared unspared]
  exact ite_self d

theorem taken_isClaimable (pending : d.status = .pending) {till : Instant}
    (lease : Worker.claimEnd? c.scheduler.config c.now = some till) (now : Instant) :
    (c.taken d).isClaimable now = true ↔ till < now ∧ ∀ due, d.nextRetryAt = some due → due ≤ now := by
  rw [Delivery.isClaimable_iff]
  simp only [taken, pending, lease, true_and, Option.some.injEq, forall_eq']
  exact and_comm

section Rows

variable (call : Scan.claim c.scheduler c.now s = .ok (batch, t)) (distinct : (s.deliveries.map (·.id)).Nodup)
  (weathers : c.Weathers w n batch t b)
include call distinct weathers

theorem rows_spared {m : Nat} {o : Bench} (clear : c.Weathers w.clear m batch t o) :
    b.store.deliveries.filter (w.Spares ·.id) = o.store.deliveries.filter (w.Spares ·.id) := by
  have claims := claims_of_claim call distinct
  rw [(weathers.settles claims).2.1, (clear.settles claims).2.1]
  exact rows_agree (closedBy_id _) (closedBy_id _) (fun _ => closedBy_spared) t.deliveries

theorem row_unspared (hd : d ∈ s.deliveries) (inside : d.id ∈ batch.map (·.id)) (unspared : ¬ w.Spares d.id) :
    c.taken d ∈ b.store.deliveries := by
  have claims := claims_of_claim call distinct
  have member := taken_claimed call distinct hd inside
  have kept : ¬ w.Spares (c.taken d).id := unspared
  rw [(weathers.settles claims).2.1]
  exact List.mem_map.mpr ⟨_, (claims.stored _ member).row, closedBy_unspared kept⟩

theorem rows_outside :
    b.store.deliveries.filter (·.id ∉ batch.map (·.id)) = s.deliveries.filter (·.id ∉ batch.map (·.id)) := by
  rw [(weathers.settles (claims_of_claim call distinct)).2.1, ← outside_claimed call]
  exact outside_kept (closedBy_id _) (fun _ outside => if_neg outside) t.deliveries

theorem errors_counted : b.scan.report.errors = batch.countP fun d => ¬ w.Spares d.id := by
  rw [(weathers.settles (claims_of_claim call distinct)).2.2]
  change (batch.map (c.resultIn w t.webhooks)).count .failed = _
  rw [List.count, List.countP_map]
  refine List.countP_congr fun d _ => ?_
  simp [resultIn_failed]

end Rows

/-- An outage is an affair of the deliveries whose calls it hits. All others have the rows that the scan leaves when
every call gets through; these have their rows of before the scan but for the claim, and are due again after it. -/
theorem outages_isolated (c : Scene) {s claimed : Store} {batch : List Delivery}
    (distinct : (s.deliveries.map (·.id)).Nodup) (call : Scan.claim c.scheduler c.now s = .ok (batch, claimed)) :
    ∃ till, Worker.claimEnd? c.scheduler.config c.now = some till ∧
      ∀ (w : Weather) (n : Nat),
        (1 ≤ n → (∀ d ∈ batch, c.Fits d) → ∃ b, c.Weathers w n batch claimed b) ∧
        ∀ b, c.Weathers w n batch claimed b →
          b.store.webhooks = s.webhooks ∧ b.store.deliveries.map (·.id) = s.deliveries.map (·.id) ∧
          b.store.deliveries.filter (·.id ∉ batch.map (·.id)) = s.deliveries.filter (·.id ∉ batch.map (·.id)) ∧
          b.scan.report.errors = (batch.countP fun d => ¬ w.Spares d.id) ∧
          (∀ m clear, c.Weathers w.clear m batch claimed clear →
            b.store.deliveries.filter (w.Spares ·.id) = clear.store.deliveries.filter (w.Spares ·.id)) ∧
          ∀ d ∈ s.deliveries, d.id ∈ batch.map (·.id) → ¬ w.Spares d.id →
            ∃ left ∈ b.store.deliveries,
              left = { d with claimedBy := some c.scheduler.id, claimedUntil := some till } ∧
              ∀ now, left.isClaimable now = true ↔ till < now ∧ ∀ due, d.nextRetryAt = some due → due ≤ now := by
  have claims := claims_of_claim call distinct
  obtain ⟨frames, till, lease, -, members, -⟩ := Store.claimDue_ok call
  refine ⟨till, lease, fun w n => ⟨fun pos fits => ?_, fun b weathers => ⟨?_, ?_, ?_, ?_, ?_, ?_⟩⟩⟩
  · exact weathers_exists pos claims (Option.isSome_iff_exists.mpr ⟨till, lease⟩) fits w
  · exact (weathers.settles claims).1.trans frames.webhooks
  · rw [(weathers.settles claims).2.1, List.map_map, ← Store.claimDue_ids call]
    exact List.map_congr_left fun d _ => closedBy_id _ d
  · exact rows_outside call distinct weathers
  · exact errors_counted call distinct weathers
  · intro m clear calm
    exact rows_spared call distinct weathers calm
  · intro d hd inside unspared
    have member := taken_claimed call distinct hd inside
    have pending : d.status = .pending := (claims.stored _ member).pending
    refine ⟨c.taken d, row_unspared call distinct weathers hd inside unspared, ?_, taken_isClaimable pending lease⟩
    rw [taken, Worker.claimEnd?, lease]

namespace Sample
open Fleet.Sample

def storm : Weather where
  stopping _ := false
  reaches id call := ! (id = parcel && call = .complete)

end Sample

open Sample in
theorem outages_isolated_parcel : ∃ batch claimed till b,
    Scan.claim scene.scheduler scene.now written = .ok (batch, claimed) ∧ scene.Weathers storm 2 batch claimed b ∧
      b.scan.report.errors = 1 ∧ ∀ d ∈ written.deliveries, d.id = Fleet.Sample.parcel →
        ∃ left ∈ b.store.deliveries, left.attempts = d.attempts ∧ left.isClaimable till = false := by
  obtain ⟨batch, claimed, call⟩ := claim_total (c := scene) (s := written) rfl inRange
  obtain ⟨till, lease, all⟩ := outages_isolated scene (s := written) (by decide +kernel) call
  have ids : batch.map (·.id) = [Fleet.Sample.parcel, letter] := by
    have names : (Scan.claim scene.scheduler scene.now written).toOption.map (·.1.map (·.id)) =
        some [Fleet.Sample.parcel, letter] := by
      unfold Scan.claim Store.claimDue
      rw [due_written]
      decide +kernel
    rw [call] at names
    exact Option.some.inj names
  have fits : ∀ d ∈ batch, scene.Fits d := by
    intro d hd
    have stored := (claims_of_claim call (by decide +kernel)).stored d hd
    exact (inRange_claimed call inRange).attempts d stored.row
  obtain ⟨b, weathers⟩ := (all storm 2).1 (by decide) fits
  obtain ⟨-, -, -, errors, -, rows⟩ := (all storm 2).2 b weathers
  refine ⟨batch, claimed, till, b, call, weathers, ?_, fun d hd same => ?_⟩
  · have counted :=
      List.countP_map (p := fun id => decide ¬ storm.Spares id) (f := fun d : Delivery => d.id) (l := batch)
    rw [ids] at counted
    rw [errors]
    exact counted.symm.trans (by decide +kernel)
  · have inside : d.id ∈ batch.map (·.id) := by simp [ids, same]
    have unspared : ¬ storm.Spares d.id := by
      rw [same]
      decide +kernel
    obtain ⟨left, stored, rfl, claimable⟩ := rows d hd inside unspared
    refine ⟨_, stored, rfl, ?_⟩
    rw [Bool.eq_false_iff, Ne, claimable, Instant.lt_def]
    omega

end Scene

end Courier
