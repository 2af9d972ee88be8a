import Courier.Proofs.ClaimFence
set_option autoImplicit false

/-!
# A ledger beside the store

Attempts are counted here apart from the column of the store: one for each outcome that the store took, none after a
retry by hand. Beside the count stands every delivery as it was when it was created.
-/

namespace Courier

/-- The delivery is this one as it was created, or what has become of it. -/
structure Delivery.StemsFrom (x d : Delivery) : Prop where
  id : d.id = x.id
  webhookId : d.webhookId = x.webhookId
  event : d.event = x.event
  payload : d.payload = x.payload

namespace Fleet

variable {crew : Crew} {f : Fleet} {h id : Uuid} {a : Act}

def written? (f : Fleet) (h id : Uuid) : Option Change :=
  match f.active? h id with
  | some ⟨d, .reporting c⟩ =>
    match f.store.completeAttempt d.id h c with
    | .ok (some _, _) => some c
    | _ => none
  | _ => none

/-- The count of recorded outcomes after an action. A change that tells of no attempt does not count. -/
def recount (f : Fleet) (recorded : Uuid → Nat) : Act → Uuid → Nat
  | .report h id =>
    if (f.written? h id).any (·.attempts.isSome) then Function.update recorded id (recorded id + 1) else recorded
  | .retry id now => if (f.store.retryDelivery id now).toOption.isSome then Function.update recorded id 0 else recorded
  | _ => recorded

def creates (f : Fleet) : Act → List Delivery
  | .dispatch e dueAt found ids now => ((Dispatch.write f.store e dueAt found ids now).toOption.map (·.1)).getD []
  | _ => []

end Fleet

/-- A change that a worker writes counts on from its copy, or tells of no attempt and leaves the count alone. -/
theorem Change.WritesBack.attempts {p : RetryPolicy} {before : Word32} {c : Change}
    (writes : c.WritesBack p before) : (∃ n, c.attempts = some n ∧ n.val = before.val + 1) ∨ c.attempts = none := by
  cases writes with
  | attempt call =>
    obtain ⟨n, hn, ⟨-, rfl⟩ | ⟨-, -, due, rfl⟩ | ⟨-, rfl⟩⟩ := Change.afterAttempt_ok call
    all_goals exact .inl ⟨n, rfl, hn⟩
  | noAttempt => exact .inr rfl

structure Ledger where
  fleet : Fleet
  recorded : Uuid → Nat
  created : List Delivery

namespace Ledger

def initial : Ledger := ⟨.initial, fun _ => 0, []⟩

def step (crew : Crew) (l : Ledger) (a : Act) : Ledger where
  fleet := l.fleet.step crew a
  recorded := l.fleet.recount l.recorded a
  created := l.created ++ l.fleet.creates a

def after (crew : Crew) (acts : List Act) : Ledger := acts.foldl (step crew) initial

theorem after_concat (crew : Crew) (acts : List Act) (a : Act) :
    after crew (acts ++ [a]) = (after crew acts).step crew a := by
  unfold after
  rw [List.foldl_append]
  rfl

end Ledger

namespace Fleet

variable {crew : Crew} {f : Fleet} {h id : Uuid} {a : Act} {recorded : Uuid → Nat}

/-! ### What is created -/

theorem creates_dispatch {e : Event} {dueAt : Instant} {found : List Webhook} {ids : Nat → Uuid} {now : Instant}
    {created : List Delivery} {t : Store} (call : Dispatch.write f.store e dueAt found ids now = .ok (created, t)) :
    f.creates (.dispatch e dueAt found ids now) = created := by
  rw [creates, call]
  rfl

theorem mem_creates {x : Delivery} (hx : x ∈ f.creates a) : ∃ e dueAt found ids now created t,
    a = .dispatch e dueAt found ids now ∧ Dispatch.write f.store e dueAt found ids now = .ok (created, t) ∧
      x ∈ created := by
  cases a with
  | dispatch e dueAt found ids now =>
    cases call : Dispatch.write f.store e dueAt found ids now with
    | error => rw [creates, call] at hx; cases hx
    | ok r => exact ⟨e, dueAt, found, ids, now, r.1, r.2, rfl, call, creates_dispatch call ▸ hx⟩
  | _ => cases hx

theorem creates_issued (f : Fleet) (a : Act) : ((f.creates a).map (·.id)).Sublist a.issued := by
  cases hcreates : f.creates a with
  | nil => exact List.nil_sublist _
  | cons x xs =>
    obtain ⟨e, dueAt, found, ids, now, created, t, rfl, call, -⟩ := mem_creates (hcreates ▸ List.mem_cons_self)
    obtain ⟨-, -, hcreated, -⟩ := Dispatch.write_ok call
    rw [← hcreates, creates_dispatch call, hcreated, created_ids]

theorem creates_untried {x : Delivery} (hx : x ∈ f.creates a) : x.attempts.val = 0 := by
  obtain ⟨e, dueAt, found, ids, now, created, t, rfl, call, hx⟩ := mem_creates hx
  obtain ⟨-, -, rfl, -⟩ := Dispatch.write_ok call
  obtain ⟨y, -, rfl⟩ := List.mem_map.mp hx
  rfl

/-- Every delivery after an action is one from before it or created by it. -/
theorem row_origin {e : Delivery} (he : e ∈ (f.step crew a).store.deliveries) :
    (∃ d ∈ f.store.deliveries, Touched crew f a d e) ∨ e ∈ f.creates a := by
  obtain old | ⟨ev, dueAt, found, ids, now, rfl, -, -⟩ := (step_rows crew f a).origin he
  · exact .inl old
  · rcases wrote_cases (f := f) (Dispatch.write f.store ev dueAt found ids now) with same | ⟨created, call⟩
    · rw [step, same] at he
      exact .inl ⟨e, he, .same _ _⟩
    · obtain ⟨-, rows, -, -⟩ := Dispatch.write_ok call
      rw [step, rows] at he
      rw [creates_dispatch call]
      exact (List.mem_append.mp he).imp (fun old => ⟨e, old, .same _ _⟩) id

/-! ### What is counted -/

/-- Only a report and a retry can move the count of a delivery, and each does so for its own delivery only. -/
theorem recount_other (unreported : ∀ h, a ≠ .report h id) (unretried : ∀ now, a ≠ .retry id now) :
    f.recount recorded a id = recorded id := by
  cases a with
  | report h i =>
    have other : id ≠ i := by
      rintro rfl
      exact unreported h rfl
    rw [recount]
    split
    · exact Function.update_of_ne other _ _
    · rfl
  | retry i now =>
    have other : id ≠ i := by
      rintro rfl
      exact unretried now rfl
    rw [recount]
    split
    · exact Function.update_of_ne other _ _
    · rfl
  | _ => rfl

theorem Touched.attempts_eq {d e : Delivery} (touched : Touched crew f a d e) (unreported : ∀ h, a ≠ .report h d.id)
    (unretried : ∀ now, a ≠ .retry d.id now) : e.attempts = d.attempts := by
  cases touched with
  | recorded => exact absurd rfl (unreported _)
  | retried => exact absurd rfl (unretried _)
  | _ => rfl

theorem written?_eq_some {c : Change} (written : f.written? h id = some c) :
    ∃ d x t, f.active? h id = some ⟨d, .reporting c⟩ ∧ f.store.completeAttempt d.id h c = .ok (some x, t) := by
  unfold written? at written
  split at written
  · rename_i d c' turn
    split at written
    · rename_i x t call
      cases written
      exact ⟨d, x, t, turn, call⟩
    · cases written
  · cases written

/-- A report that the store does not take leaves the store as it is. -/
theorem store_unwritten (unwritten : f.written? h id = none) : (f.step crew (.report h id)).store = f.store := by
  unfold written? at unwritten
  rw [step]
  split
  · rename_i d c turn
    rw [turn] at unwritten
    rw [store_moved]
    unfold Worker.report
    rw [show (crew.scheduler h).id = h from rfl]
    dsimp only at unwritten
    split
    · rename_i x t call
      rw [call] at unwritten
      cases unwritten
    · rename_i t call
      obtain ⟨-, -, ⟨_, -, -, hsome, -⟩ | ⟨-, -, same⟩⟩ := Store.completeAttempt_ok call
      · cases hsome
      · exact same
    · rfl
  · rfl

theorem store_written {d x : Delivery} {c : Change} {t : Store} (turn : f.active? h id = some ⟨d, .reporting c⟩)
    (call : f.store.completeAttempt d.id h c = .ok (some x, t)) : (f.step crew (.report h id)).store = t := by
  rw [step, turn]
  dsimp only
  rw [store_moved]
  unfold Worker.report
  rw [show f.store.completeAttempt d.id (crew.scheduler h).id c = _ from call]

end Fleet

/-! ### Runs -/

namespace Ledger

open Fleet

variable {crew : Crew} {l : Ledger} {issued : List Uuid} {a : Act} {h id : Uuid}

/-- Deliveries and the copies that workers have of them stem from what was created, the column of attempts is what the
ledger counts, and a delivery that a scheduler holds is the copy of its worker. -/
structure Kept (crew : Crew) (issued : List Uuid) (l : Ledger) : Prop where
  distinct : l.fleet.Distinct
  fenced : l.fleet.Fenced
  writes : ∀ h, ∀ k ∈ l.fleet.workers h, ∀ c, k.stage = .reporting c →
    c.WritesBack (crew.policy h) k.delivery.attempts
  ids : (l.created.map (·.id)).Nodup
  known : ∀ x ∈ l.created, x.id ∈ issued
  rows : ∀ d ∈ l.fleet.store.deliveries, ∃ x ∈ l.created, x.StemsFrom d
  copies : ∀ h, ∀ k ∈ l.fleet.workers h, ∃ x ∈ l.created, x.StemsFrom k.delivery
  counted : ∀ d ∈ l.fleet.store.deliveries, d.attempts.val = l.recorded d.id
  uncounted : ∀ id, (∀ x ∈ l.created, x.id ≠ id) → l.recorded id = 0

theorem kept_initial (crew : Crew) : Kept crew [] initial where
  distinct := ⟨List.nodup_nil, fun _ => List.nodup_nil⟩
  fenced h k hk := by cases hk
  writes h k hk := by cases hk
  ids := List.nodup_nil
  known x hx := by cases hx
  rows d hd := by cases hd
  copies h k hk := by cases hk
  counted d hd := by cases hd
  uncounted id _ := rfl

namespace Kept

theorem drops (kept : Kept crew issued l) : l.fleet.DropsClaims := fun h k hk c hc =>
  (kept.writes h k hk c hc).drops_claim.1

theorem row_known (kept : Kept crew issued l) {d : Delivery} (hd : d ∈ l.fleet.store.deliveries) : d.id ∈ issued := by
  obtain ⟨x, hx, stems⟩ := kept.rows d hd
  rw [stems.id]
  exact kept.known x hx

/-- An outcome that the store takes is one more than the copy counts, and the copy is the stored delivery. -/
theorem counted_report (kept : Kept crew issued l) {e : Delivery}
    (distinct : (l.fleet.step crew (.report h id)).Distinct)
    (he : e ∈ (l.fleet.step crew (.report h id)).store.deliveries) (same : e.id = id) :
    e.attempts.val = l.fleet.recount l.recorded (.report h id) id := by
  rw [recount]
  cases written : l.fleet.written? h id with
  | none =>
    rw [store_unwritten written] at he
    rw [← same]
    exact kept.counted e he
  | some c =>
    obtain ⟨x, y, t, turn, call⟩ := written?_eq_some written
    have hx := mem_of_active turn
    obtain ⟨-, -, ⟨d, hd, hp, -, hmem⟩ | ⟨-, hnone, -⟩⟩ := Store.completeAttempt_ok call
    · obtain ⟨hid, hby⟩ := Store.isHeld_iff.mp (Bool.and_eq_true_iff.mp hp).1
      have hxid : x.id = id := id_of_active turn
      rw [← store_written turn call] at hmem
      obtain rfl : e = d.apply c := distinct.row_eq he hmem (same.trans (hid.trans hxid).symm)
      have copied : d.attempts = x.attempts := by
        rw [kept.fenced h _ hx d hd hid hby]
      have before := kept.counted d hd
      rw [hid, hxid] at before
      change (c.attempts.getD d.attempts).val = _
      obtain ⟨n, counts, hn⟩ | silent := (kept.writes h _ hx c rfl).attempts
      · have next : n.val = d.attempts.val + 1 := by
          rw [copied]
          exact hn
        simp only [counts, Option.any_some, Option.isSome_some, if_true, Function.update_self, Option.getD_some, next]
        omega
      · simpa [silent] using before
    · cases hnone

theorem counted_retry (kept : Kept crew issued l) {now : Instant} {e : Delivery}
    (distinct : (l.fleet.step crew (.retry id now)).Distinct)
    (he : e ∈ (l.fleet.step crew (.retry id now)).store.deliveries) (same : e.id = id) :
    e.attempts.val = l.fleet.recount l.recorded (.retry id now) id := by
  rw [recount]
  cases call : l.fleet.store.retryDelivery id now with
  | error err =>
    have store : (l.fleet.step crew (.retry id now)).store = l.fleet.store := by
      rw [Fleet.step, call]
      rfl
    rw [store] at he
    rw [← same]
    exact kept.counted e he
  | ok r =>
    obtain ⟨y, t⟩ := r
    have store : (l.fleet.step crew (.retry id now)).store = t := by
      rw [Fleet.step, call]
      rfl
    obtain ⟨-, -, x, -, hid, rfl, hmem⟩ := Store.retryDelivery_ok call
    rw [← store] at hmem
    obtain rfl := distinct.row_eq he hmem (same.trans hid.symm)
    simp [Except.toOption]
    rfl

/-- The column of attempts stays what the ledger counts. -/
theorem counted_step (kept : Kept crew issued l) (apart : ∀ id ∈ issued, id ∉ a.issued)
    (distinct : (l.step crew a).fleet.Distinct) {e : Delivery} (he : e ∈ (l.step crew a).fleet.store.deliveries) :
    e.attempts.val = (l.step crew a).recorded e.id := by
  obtain ⟨d, hd, touched⟩ | created := row_origin he
  · by_cases reported : ∃ h, a = .report h d.id
    · obtain ⟨h, rfl⟩ := reported
      rw [← touched.id_eq] at distinct he ⊢
      exact kept.counted_report distinct he rfl
    · by_cases retried : ∃ now, a = .retry d.id now
      · obtain ⟨now, rfl⟩ := retried
        rw [← touched.id_eq] at distinct he ⊢
        exact kept.counted_retry distinct he rfl
      · have unreported : ∀ h, a ≠ .report h d.id := fun h eq => reported ⟨h, eq⟩
        have unretried : ∀ now, a ≠ .retry d.id now := fun now eq => retried ⟨now, eq⟩
        change e.attempts.val = (l.fleet.recount l.recorded a e.id : Nat)
        rw [touched.attempts_eq unreported unretried, touched.id_eq, recount_other unreported unretried]
        exact kept.counted d hd
  · have issued_now : e.id ∈ a.issued := (creates_issued _ _).subset (List.mem_map_of_mem created)
    have new : ∀ x ∈ l.created, x.id ≠ e.id := fun x hx same => apart _ (kept.known x hx) (same ▸ issued_now)
    obtain ⟨ev, dueAt, found, ids, now, -, -, rfl, -, -⟩ := mem_creates created
    rw [creates_untried created]
    exact congrArg Nat.cast (kept.uncounted _ new).symm

theorem uncounted_step (kept : Kept crew issued l) (new : ∀ x ∈ l.created, x.id ≠ id) :
    l.fleet.recount l.recorded a id = 0 := by
  have before := kept.uncounted id new
  by_cases reported : ∃ h, a = .report h id
  · obtain ⟨h, rfl⟩ := reported
    rw [recount]
    cases written : l.fleet.written? h id with
    | none => exact before
    | some c =>
      obtain ⟨x, y, t, turn, -⟩ := written?_eq_some written
      obtain ⟨z, hz, stems⟩ := kept.copies h _ (mem_of_active turn)
      exact absurd (stems.id.symm.trans (id_of_active turn)) (new z hz)
  · by_cases retried : ∃ now, a = .retry id now
    · obtain ⟨now, rfl⟩ := retried
      rw [recount]
      split
      · exact Function.update_self _ _ _
      · exact before
    · rw [recount_other (fun h eq => reported ⟨h, eq⟩) fun now eq => retried ⟨now, eq⟩]
      exact before

theorem step (kept : Kept crew issued l) (byScans : a.claimsByHand = false) (fresh : a.issued.Nodup)
    (apart : ∀ id ∈ issued, id ∉ a.issued) : Kept crew (issued ++ a.issued) (l.step crew a) := by
  have distinct : (l.step crew a).fleet.Distinct :=
    ⟨rows_step kept.distinct.rows fresh fun d hd => apart _ (kept.row_known hd), fun _ => workers_step kept.distinct⟩
  have rows : ∀ d ∈ (l.step crew a).fleet.store.deliveries, ∃ x ∈ (l.step crew a).created, x.StemsFrom d := by
    intro e he
    obtain ⟨d, hd, touched⟩ | created := row_origin he
    · obtain ⟨x, hx, stems⟩ := kept.rows d hd
      obtain ⟨webhook, event, payload, -⟩ := touched.frame
      exact ⟨x, List.mem_append_left _ hx, touched.id_eq.trans stems.id, webhook.trans stems.webhookId,
        event.trans stems.event, payload.trans stems.payload⟩
    · exact ⟨e, List.mem_append_right _ created, rfl, rfl, rfl, rfl⟩
  refine ⟨distinct, kept.fenced.step kept.drops byScans distinct, ?_, ?_, ?_, rows, ?_, ?_, ?_⟩
  · intro h j hj c hc
    obtain old | ⟨k, -, move⟩ | ⟨now, batch, -, -, -, -, waits⟩ := worker_origin hj
    · exact kept.writes h j old c hc
    · exact (move.grounds hc).writes
    · cases waits.symm.trans hc
  · change ((l.created ++ l.fleet.creates a).map (·.id)).Nodup
    have issues := creates_issued l.fleet a
    rw [List.map_append]
    refine List.nodup_append.mpr ⟨kept.ids, fresh.sublist issues, ?_⟩
    intro i hi j hj same
    obtain ⟨x, hx, rfl⟩ := List.mem_map.mp hi
    exact apart _ (kept.known x hx) (same ▸ issues.subset hj)
  · intro x hx
    rcases List.mem_append.mp hx with hx | hx
    · exact List.mem_append_left _ (kept.known x hx)
    · exact List.mem_append_right _ ((creates_issued _ _).subset (List.mem_map_of_mem hx))
  · intro h j hj
    obtain old | ⟨k, hk, move⟩ | ⟨now, batch, -, -, call, claimed, -⟩ := worker_origin hj
    · obtain ⟨x, hx, stems⟩ := kept.copies h j old
      exact ⟨x, List.mem_append_left _ hx, stems⟩
    · obtain ⟨x, hx, stems⟩ := kept.copies h k hk
      rw [move.delivery_eq]
      exact ⟨x, List.mem_append_left _ hx, stems⟩
    · obtain ⟨-, till, -, -, stored, -⟩ := Store.claimDue_ok call
      exact rows _ (stored _ claimed).1
  · exact fun e he => kept.counted_step apart distinct he
  · exact fun id new => kept.uncounted_step fun x hx => new x (List.mem_append_left _ hx)

end Kept

theorem kept_after (crew : Crew) {acts : List Act} (regular : Regular acts) :
    Kept crew (acts.flatMap Act.issued) (after crew acts) := by
  induction acts using List.reverseRecOn with
  | nil => exact kept_initial crew
  | append_singleton acts a ih =>
    obtain ⟨byScans, fresh, apart⟩ := regular.last
    rw [after_concat, List.flatMap_append, List.flatMap_singleton]
    exact (ih regular.left).step byScans fresh apart

end Ledger

end Courier
