import Courier.Dispatch
import Courier.Proofs.Evolution
set_option autoImplicit false

/-!
# What each operation does to the store

One statement for each operation that writes: which deliveries change, how, and under which condition. Statements about
runs cite these and never open an operation.
-/

namespace Courier

/-- A claim that is renewed only ends at another time. -/
theorem Delivery.apply_renewed {d : Delivery} {h : Uuid} (held : d.claimedBy = some h) (till : Instant) :
    d.apply (.claim h till) = { d with claimedUntil := some till } := by
  change { d with claimedBy := some h, claimedUntil := some till } = _
  rw [← held]

theorem Delivery.isClaimable_iff {d : Delivery} {now : Instant} :
    d.isClaimable now = true ↔
      d.status = .pending ∧ (∀ t, d.nextRetryAt = some t → t ≤ now) ∧ ∀ t, d.claimedUntil = some t → t < now := by
  simp only [isClaimable, Bool.and_eq_true, decide_eq_true_eq, Option.all_eq_true, and_assoc]

namespace Store

variable {s t : Store}

theorem whenOnline_ok {α : Type} {x : Except Error α} {a : α} (h : s.whenOnline x = .ok a) :
    s.online = true ∧ x = .ok a := by
  unfold whenOnline at h
  split at h
  · rename_i ho
    exact ⟨ho, h⟩
  · cases h

theorem whenOnline_eq {α : Type} (x : Except Error α) (h : s.online = true) : s.whenOnline x = x := by
  unfold whenOnline
  rw [if_pos h]

theorem whenOnline_offline (offline : s.online = false) {α : Type} (x : Except Error α) :
    s.whenOnline x = .error .unavailable := by
  simp [whenOnline, offline]

theorem isHeld_iff {id c : Uuid} {d : Delivery} : isHeld id c d = true ↔ d.id = id ∧ d.claimedBy = some c := by
  simp only [isHeld, Bool.and_eq_true, decide_eq_true_eq]

structure Frames (s t : Store) : Prop where
  webhooks : t.webhooks = s.webhooks
  online : t.online = s.online

theorem Frames.rfl : Frames s s := ⟨Eq.refl _, Eq.refl _⟩

theorem Frames.trans {u : Store} (first : Frames s t) (next : Frames t u) : Frames s u :=
  ⟨next.webhooks.trans first.webhooks, next.online.trans first.online⟩

abbrev Rewrites (keep : Delivery → Delivery → Prop) (s t : Store) : Prop :=
  Evolves keep (fun _ => False) (fun _ => False) s.deliveries t.deliveries

/-! ### Webhooks -/

theorem createWebhook_ok {r : Registration} {id : Uuid} {now : Instant} {w : Webhook}
    (h : s.createWebhook r id now = .ok (w, t)) :
    t.deliveries = s.deliveries ∧ t.online = s.online ∧ t.webhooks = s.webhooks ++ [w] := by
  obtain ⟨-, h⟩ := whenOnline_ok h
  cases h
  exact ⟨rfl, rfl, rfl⟩

/-- An amendment leaves the identifiers of the webhooks and all deliveries alone. -/
theorem updateWebhook_ok {id : Uuid} {a : Amendment} {now : Instant} {w : Webhook}
    (h : s.updateWebhook id a now = .ok (w, t)) :
    t.deliveries = s.deliveries ∧ t.online = s.online ∧ ∀ x ∈ s.webhooks, ∃ y ∈ t.webhooks, y.id = x.id := by
  unfold updateWebhook at h
  split at h
  · cases h
  · obtain ⟨-, h⟩ := whenOnline_ok h
    dsimp only at h
    split at h
    · rename_i y ys hc
      cases h
      obtain ⟨u, -, rfl, -, htail⟩ := changeFirst_evolves hc
      refine ⟨rfl, rfl, fun x hx => ?_⟩
      obtain ⟨z, hz, rfl | ⟨rfl, rfl⟩⟩ | hgone := htail.fate hx
      · exact ⟨z, hz, rfl⟩
      · refine ⟨_, hz, ?_⟩
        split <;> rfl
      · exact hgone.elim
    · cases h

/-- The deliveries of a webhook go with it, and all other records stay. -/
theorem deleteWebhook_ok {id : Uuid} {b : Bool} (h : s.deleteWebhook id = .ok (b, t)) :
    t.online = s.online ∧
      Evolves Eq (fun d => d.webhookId = id) (fun _ => False) s.deliveries t.deliveries ∧
      (∀ w ∈ s.webhooks, w.id ≠ id → w ∈ t.webhooks) ∧
      (b = true ∧ (∀ d ∈ t.deliveries, d.webhookId ≠ id) ∨ b = false ∧ t = s ∧ ∀ w ∈ s.webhooks, w.id ≠ id) := by
  obtain ⟨-, h⟩ := whenOnline_ok h
  split at h
  · cases h
    refine ⟨rfl, .filter (fun _ => rfl) fun d _ hd => by simpa using hd, fun w hw hne => ?_, .inl ⟨rfl, fun d hd => ?_⟩⟩
    · exact List.mem_filter.mpr ⟨hw, by simpa using hne⟩
    · simpa using (List.mem_filter.mp hd).2
  · rename_i hnone
    cases h
    refine ⟨rfl, .refl (fun _ => rfl) _, fun w hw _ => hw, .inr ⟨rfl, rfl, fun w hw he => hnone ?_⟩⟩
    exact List.any_eq_true.mpr ⟨w, hw, decide_eq_true he⟩

/-! ### Claims -/

/-- The batch of a claim is stored as it is returned, and every delivery in it could be claimed. -/
theorem claimDue_ok {now : Instant} {limit : Int} {c : Uuid} {lease : Span} {batch : List Delivery}
    (h : s.claimDue now limit c lease = .ok (batch, t)) : Frames s t ∧ ∃ till, now.add? lease = some till ∧
      Rewrites (fun d e => e = d ∨ d.isClaimable now = true ∧ e = d.apply (.claim c till) ∧ e ∈ batch) s t ∧
      (∀ x ∈ batch, x ∈ t.deliveries ∧ ∃ d ∈ s.deliveries, d.isClaimable now = true ∧ x = d.apply (.claim c till)) ∧
      ((s.deliveries.map (·.id)).Nodup → (batch.map (·.id)).Nodup) := by
  obtain ⟨-, h⟩ := whenOnline_ok h
  split at h
  · cases h
  · rename_i till htill
    cases h
    have mem : ∀ x ∈ (s.due now).take limit.toNat, x ∈ s.deliveries.zipIdx ∧ x.1.isClaimable now = true := by
      intro x hx
      exact List.mem_filter.mp (List.mem_mergeSort.mp (List.mem_of_mem_take hx))
    refine ⟨⟨rfl, rfl⟩, till, htill, ?_, ?_, ?_⟩
    · refine Evolves.map_zipIdx fun x hx => ?_
      dsimp only
      split
      · rename_i hp
        obtain ⟨y, hy, hxy⟩ := List.mem_map.mp hp
        obtain ⟨hmem, hclaim⟩ := mem y hy
        -- the two deliveries stand at one place
        have same : y.1 = x.1 := by
          have hy' := List.mem_zipIdx_iff_getElem?.mp hmem
          rw [hxy, List.mem_zipIdx_iff_getElem?.mp hx] at hy'
          exact (Option.some.inj hy').symm
        refine .inr ⟨same ▸ hclaim, rfl, List.mem_map.mpr ⟨y, hy, ?_⟩⟩
        rw [same]
      · exact .inl rfl
    · intro x hx
      obtain ⟨y, hy, rfl⟩ := List.mem_map.mp hx
      obtain ⟨hmem, hclaim⟩ := mem y hy
      refine ⟨List.mem_map.mpr ⟨y, hmem, ?_⟩, y.1, ?_, hclaim, rfl⟩
      · exact if_pos (List.mem_map.mpr ⟨y, hy, rfl⟩)
      · exact List.mem_of_getElem? (List.mem_zipIdx_iff_getElem?.mp hmem)
    · intro hnodup
      have hids : (s.deliveries.zipIdx.map fun x => x.1.id).Nodup := by
        have hz := List.zipIdx_map_fst 0 s.deliveries
        rw [← hz, List.map_map] at hnodup
        exact hnodup
      have hdue : ((s.due now).map fun x => x.1.id).Nodup :=
        ((List.mergeSort_perm _ _).map _).nodup_iff.mpr (hids.sublist (List.filter_sublist.map _))
      rw [List.map_map]
      exact hdue.sublist ((List.take_sublist _ _).map _)

theorem claimDue_ids {now : Instant} {limit : Int} {c : Uuid} {lease : Span} {batch : List Delivery}
    (h : s.claimDue now limit c lease = .ok (batch, t)) : t.deliveries.map (·.id) = s.deliveries.map (·.id) := by
  obtain ⟨-, till, -, rows, -, -⟩ := claimDue_ok h
  refine rows.keys_eq ?_
  rintro d e (rfl | ⟨-, rfl, -⟩) <;> rfl

section Conditional

variable {α : Type} {p : Delivery → Bool} {f : Delivery → Delivery} {g : Delivery → α} {r : α}

/-- A write to the first delivery with a property: it is made, or there is no such delivery and nothing is written. -/
theorem conditional_ok {a : α}
    (h : s.whenOnline (match changeFirst p f s.deliveries with
      | some (d, deliveries) => .ok (g d, { s with deliveries })
      | none => .ok (r, s)) = .ok (a, t)) :
    Frames s t ∧ Rewrites (fun d e => e = d ∨ p d = true ∧ e = f d) s t ∧
      ((∃ d ∈ s.deliveries, p d = true ∧ a = g (f d) ∧ f d ∈ t.deliveries) ∨
        (∀ d ∈ s.deliveries, p d = false) ∧ a = r ∧ t = s) := by
  obtain ⟨-, h⟩ := whenOnline_ok h
  split at h
  · rename_i d ds hc
    cases h
    obtain ⟨x, hx, rfl, hmem, htail⟩ := changeFirst_evolves hc
    have hp := List.find?_some hx
    refine ⟨⟨rfl, rfl⟩, htail.mono ?_ (fun _ hd => hd) (fun _ hd => hd),
      .inl ⟨x, List.mem_of_find?_eq_some hx, hp, rfl, hmem⟩⟩
    rintro d e (he | ⟨rfl, he⟩)
    · exact .inl he
    · exact .inr ⟨hp, he⟩
  · rename_i hc
    cases h
    exact ⟨.rfl, .refl (fun _ => .inl rfl) _, .inr ⟨changeFirst_none hc, rfl, rfl⟩⟩

theorem conditional_none (h : ∀ d ∈ s.deliveries, p d = false) :
    s.whenOnline (match changeFirst p f s.deliveries with
      | some (d, deliveries) => .ok (g d, { s with deliveries })
      | none => .ok (r, s)) = s.whenOnline (.ok (r, s)) := by
  rw [changeFirst_eq_none h]

end Conditional

theorem renewClaim_ok {id c : Uuid} {till : Instant} {b : Bool} (h : s.renewClaim id c till = .ok (b, t)) :
    Frames s t ∧ Rewrites (fun d e => e = d ∨ isHeld id c d = true ∧ e = d.apply (.claim c till)) s t ∧
      ((∃ d ∈ s.deliveries, isHeld id c d = true ∧ b = true ∧ d.apply (.claim c till) ∈ t.deliveries) ∨
        (∀ d ∈ s.deliveries, isHeld id c d = false) ∧ b = false ∧ t = s) :=
  conditional_ok (g := fun _ => true) h

theorem releaseClaim_ok {id c : Uuid} {b : Bool} (h : s.releaseClaim id c = .ok (b, t)) :
    Frames s t ∧ Rewrites (fun d e => e = d ∨ isHeld id c d = true ∧ e = d.apply .release) s t ∧
      ((∃ d ∈ s.deliveries, isHeld id c d = true ∧ b = true ∧ d.apply .release ∈ t.deliveries) ∨
        (∀ d ∈ s.deliveries, isHeld id c d = false) ∧ b = false ∧ t = s) :=
  conditional_ok (g := fun _ => true) h

theorem completeAttempt_ok {id c : Uuid} {change : Change} {o : Option Delivery}
    (h : s.completeAttempt id c change = .ok (o, t)) :
    Frames s t ∧
      Rewrites (fun d e => e = d ∨ (isHeld id c d && d.status = .pending) = true ∧ e = d.apply change) s t ∧
      ((∃ d ∈ s.deliveries, (isHeld id c d && d.status = .pending) = true ∧ o = some (d.apply change) ∧
          d.apply change ∈ t.deliveries) ∨
        (∀ d ∈ s.deliveries, (isHeld id c d && d.status = .pending) = false) ∧ o = none ∧ t = s) :=
  conditional_ok (g := some) h

theorem completeAttempt_some {id c : Uuid} (online : s.online = true) {d : Delivery} (hd : d ∈ s.deliveries)
    (held : isHeld id c d = true) (pending : d.status = .pending) (change : Change) :
    ∃ e t, s.completeAttempt id c change = .ok (some e, t) := by
  unfold completeAttempt
  rw [whenOnline_eq _ online]
  cases hc : changeFirst (fun d => isHeld id c d && d.status = .pending) (·.apply change) s.deliveries with
  | none =>
    have hp := changeFirst_none hc d hd
    rw [held, decide_eq_true pending] at hp
    cases hp
  | some r => exact ⟨r.1, _, rfl⟩

theorem unheld_calls {id c : Uuid} (h : ∀ d ∈ s.deliveries, isHeld id c d = false) (till : Instant) (change : Change) :
    s.renewClaim id c till = s.whenOnline (.ok (false, s)) ∧ s.releaseClaim id c = s.whenOnline (.ok (false, s)) ∧
      s.completeAttempt id c change = s.whenOnline (.ok (none, s)) := by
  refine ⟨conditional_none (g := fun _ => true) h, conditional_none (g := fun _ => true) h,
    conditional_none (g := some) fun d hd => ?_⟩
  rw [h d hd, Bool.false_and]

theorem releaseExpired_ok {now : Instant} {n : Nat} (h : s.releaseExpired now = .ok (n, t)) :
    Frames s t ∧
      Rewrites (fun d e => e = if hasExpired now d = true then d.apply .release else d) s t := by
  obtain ⟨-, h⟩ := whenOnline_ok h
  cases h
  exact ⟨⟨rfl, rfl⟩, .map fun _ _ => rfl⟩

/-! ### Deliveries -/

theorem retryDelivery_ok {id : Uuid} {now : Instant} {d : Delivery} (h : s.retryDelivery id now = .ok (d, t)) :
    Frames s t ∧
      Rewrites (fun d e => e = d ∨ d.id = id ∧ d.status = .dead ∧ e = d.apply (.manualRetry now)) s t ∧
      ∃ x ∈ s.deliveries, x.id = id ∧ d = x.apply (.manualRetry now) ∧ d ∈ t.deliveries := by
  obtain ⟨-, h⟩ := whenOnline_ok h
  split at h
  · cases h
  · rename_i x hx
    split at h
    · rename_i hdead
      split at h
      · rename_i y ds hc
        cases h
        obtain ⟨u, hu, rfl, stored, htail⟩ := changeFirst_evolves hc
        -- the delivery that is looked at and the one that is written are both the first of this identifier
        obtain rfl := Option.some.inj (hx.symm.trans hu)
        have hid : x.id = id := by simpa using List.find?_some hx
        refine ⟨⟨rfl, rfl⟩, htail.mono ?_ (fun _ hd => hd) (fun _ hd => hd),
          x, List.mem_of_find?_eq_some hx, hid, rfl, stored⟩
        rintro d e (he | ⟨rfl, he⟩)
        · exact .inl he
        · exact .inr ⟨hid, hdead, he⟩
      · cases h
    · cases h

theorem cleanupOld_ok {cutoff : Instant} {n : Nat} (h : s.cleanupOld cutoff = .ok (n, t)) :
    Frames s t ∧ Evolves Eq (fun d => d.isTerminal = true ∧ d.createdAt < cutoff) (fun _ => False)
      s.deliveries t.deliveries := by
  obtain ⟨-, h⟩ := whenOnline_ok h
  cases h
  refine ⟨⟨rfl, rfl⟩, .filter (fun _ => rfl) fun d _ hd => ?_⟩
  simpa only [Bool.not_eq_false', Bool.and_eq_true, decide_eq_true_eq] using hd

/-- Deliveries that are numbered through have the identifiers of their numbers. -/
theorem ids_numbered {α : Type} (xs : List α) {make : α × Nat → Delivery} {ids : Nat → Uuid}
    (named : ∀ x, (make x).id = ids x.2) : (xs.zipIdx.map make).map (·.id) = (List.range xs.length).map ids := by
  have composed : (fun d : Delivery => d.id) ∘ make = ids ∘ Prod.snd := funext named
  rw [List.map_map, composed, List.range_eq_range', ← List.zipIdx_map_snd 0 xs, List.map_map]

theorem createDeliveries_ok {orders : List Order} {ids : Nat → Uuid} {now : Instant} {created : List Delivery}
    (h : s.createDeliveries orders ids now = .ok (created, t)) :
    Frames s t ∧ t.deliveries = s.deliveries ++ created ∧
      created = orders.zipIdx.map (fun x => x.1.toDelivery (ids x.2) now) ∧
      ∀ o ∈ orders, ∃ w ∈ s.webhooks, w.id = o.webhookId := by
  obtain ⟨-, h⟩ := whenOnline_ok h
  split at h
  · cases h
  · rename_i hnone
    cases h
    refine ⟨⟨rfl, rfl⟩, rfl, rfl, fun o ho => ?_⟩
    have hw := List.find?_eq_none.mp hnone o ho
    simpa using hw

end Store

/-! ### Orders of a dispatch -/

theorem Order.make_ok {webhookId : Uuid} {event payload : String} {dueAt : Instant} {o : Order}
    (h : Order.make webhookId event payload dueAt = .ok o) :
    o = { webhookId, event, payload, status := .pending, nextRetryAt := some dueAt } := by
  unfold Order.make at h
  split at h
  · cases h
  · split at h
    · cases h
    · cases h
      rfl

def Dispatch.orderFor (e : Event) (dueAt : Instant) (w : Webhook) : Order where
  webhookId := w.id
  event := e.type
  payload := e.payload
  status := .pending
  nextRetryAt := some dueAt

theorem Dispatch.orders_ok {e : Event} {dueAt : Instant} {found : List Webhook} {os : List Order}
    (h : Dispatch.orders e dueAt found = .ok os) : os = found.map (Dispatch.orderFor e dueAt) := by
  unfold Dispatch.orders at h
  dsimp only at h
  induction found generalizing os with
  | nil =>
    cases h
    rfl
  | cons w found ih =>
    rw [List.mapM_cons] at h
    cases hm : Order.make w.id e.type e.payload dueAt with
    | error x =>
      rw [hm] at h
      cases h
    | ok o =>
      rw [hm] at h
      cases hr : found.mapM fun w => Order.make w.id e.type e.payload dueAt with
      | error x =>
        rw [hr] at h
        cases h
      | ok rest =>
        rw [hr] at h ih
        cases h
        rw [List.map_cons, ← ih rfl, Order.make_ok hm]
        rfl

/-- A dispatch adds one pending delivery for each webhook it found, or none at all. -/
theorem Dispatch.write_ok {s t : Store} {e : Event} {dueAt : Instant} {found : List Webhook} {ids : Nat → Uuid}
    {now : Instant} {created : List Delivery} (h : Dispatch.write s e dueAt found ids now = .ok (created, t)) :
    s.Frames t ∧ t.deliveries = s.deliveries ++ created ∧
      created = found.zipIdx.map (fun x => (Dispatch.orderFor e dueAt x.1).toDelivery (ids x.2) now) ∧
      ∀ d ∈ created, ∃ w ∈ s.webhooks, w.id = d.webhookId := by
  unfold Dispatch.write at h
  split at h
  · rename_i hnil
    cases h
    cases List.isEmpty_iff.mp hnil
    exact ⟨.rfl, (List.append_nil _).symm, rfl, by intro d hd; cases hd⟩
  · split at h
    · cases h
    · rename_i os hos
      cases hc : s.createDeliveries os ids now with
      | error x =>
        rw [hc] at h
        cases h
      | ok r =>
        obtain ⟨cs, u⟩ := r
        rw [hc] at h
        cases h
        obtain ⟨frames, hdel, hcreated, hwebhooks⟩ := Store.createDeliveries_ok hc
        have hos := Dispatch.orders_ok hos
        refine ⟨frames, hdel, ?_, fun d hd => ?_⟩
        · rw [hcreated, hos, List.zipIdx_map, List.map_map]
          rfl
        · rw [hcreated] at hd
          obtain ⟨x, hx, rfl⟩ := List.mem_map.mp hd
          exact hwebhooks x.1 (List.mem_of_getElem? (List.mem_zipIdx_iff_getElem?.mp hx))

end Courier
