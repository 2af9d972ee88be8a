import Courier.Proofs.Identity
import Courier.Proofs.Links
set_option autoImplicit false

namespace Courier

/-- The pattern selects the type: it is `*` or the type itself, or what stands before its `.*` goes on in the type. -/
def Event.Selected (pattern type : List Char) : Prop :=
  pattern = ['*'] ∨ pattern = type ∨ ∃ stem, pattern = stem ++ ['.', '*'] ∧ stem ++ ['.'] <+: type

theorem Event.selects_iff {pattern type : List Char} : selects pattern type = true ↔ Selected pattern type := by
  unfold selects Selected
  by_cases star : pattern = ['*']
  · simp [star]
  · rw [if_neg star]
    cases hstem : stem? pattern with
    | none =>
      have stemless : ∀ stem, pattern ≠ stem ++ ['.', '*'] := by
        intro stem h
        cases hstem.symm.trans (stem?_eq_some_iff.mpr h)
      simp [star, stemless]
    | some stem =>
      obtain rfl := stem?_eq_some_iff.mp hstem
      have itself : stem ++ ['.', '*'] = type → stem ++ ['.'] <+: type := by
        rintro rfl
        exact ⟨['*'], by simp⟩
      dsimp only
      rw [List.isPrefixOf_iff_prefix]
      constructor
      · exact fun h => .inr (.inr ⟨stem, rfl, h⟩)
      · rintro (h | h | ⟨q, hq, h⟩)
        · exact absurd h star
        · exact itself h
        · obtain rfl := List.append_cancel_right hq
          exact h

def Webhook.Wants (w : Webhook) (type : String) : Prop :=
  w.active = true ∧ ∃ p, some p ∈ w.events ∧ Event.Selected p.toList type.toList

theorem Webhook.wants_iff {w : Webhook} {type : String} : (w.active && w.subscribesTo type) = true ↔ w.Wants type := by
  unfold Wants subscribesTo anySelects
  rw [Bool.and_eq_true, List.any_eq_true]
  refine and_congr_right fun _ => ⟨?_, ?_⟩
  · rintro ⟨e, he, selected⟩
    cases e with
    | none => cases selected
    | some p => exact ⟨p, he, Event.selects_iff.mp selected⟩
  · rintro ⟨p, hp, selected⟩
    exact ⟨some p, hp, Event.selects_iff.mpr selected⟩

instance (w : Webhook) (type : String) : Decidable (w.Wants type) := decidable_of_iff _ Webhook.wants_iff

theorem Webhook.wanting_iff {ws : List Webhook} (distinct : (ws.map (·.id)).Nodup) {w : Webhook} (hw : w ∈ ws)
    (type : String) : w.id ∈ (ws.filter fun x => x.Wants type).map (·.id) ↔ w.Wants type := by
  constructor
  · intro h
    obtain ⟨x, hx, same⟩ := List.mem_map.mp h
    obtain ⟨hmem, wants⟩ := List.mem_filter.mp hx
    obtain rfl := List.inj_on_of_nodup_map distinct hmem hw same
    exact of_decide_eq_true wants
  · intro wants
    exact List.mem_map_of_mem (List.mem_filter.mpr ⟨hw, decide_eq_true wants⟩)

/-! ### New deliveries -/

/-- Nothing has happened to the delivery since it was due first. -/
structure Delivery.Untried (dueAt : Instant) (d : Delivery) : Prop where
  pending : d.status = .pending
  attempts : d.attempts.val = 0
  due : d.nextRetryAt = some dueAt
  unclaimed : d.claimedBy = none ∧ d.claimedUntil = none
  undated : d.lastAttemptAt = none ∧ d.deliveredAt = none
  silent : d.responseCode = none ∧ d.responseBody = none ∧ d.errorMessage = none

theorem Delivery.Untried.claimable_iff {dueAt now : Instant} {d : Delivery} (untried : d.Untried dueAt) :
    d.isClaimable now = true ↔ dueAt ≤ now := by
  rw [Delivery.isClaimable_iff, untried.due, untried.unclaimed.2]
  simp [untried.pending]

structure Delivery.Carries (e : Event) (webhookId : Uuid) (d : Delivery) : Prop where
  receiver : d.webhookId = webhookId
  event : d.event = e.type
  payload : d.payload = String.ofList (Json.recordChars
    [("type", Json.quoted e.type), ("timestamp", Json.asText e.timestamp.text), ("data", e.data.chars)])

namespace Store

theorem createDeliveries_stored {s : Store} (online : s.online = true) {orders : List Order}
    (stored : ∀ o ∈ orders, ∃ w ∈ s.webhooks, w.id = o.webhookId) (ids : Nat → Uuid) (now : Instant) :
    let created := orders.zipIdx.map fun x => x.1.toDelivery (ids x.2) now
    s.createDeliveries orders ids now = .ok (created, { s with deliveries := s.deliveries ++ created }) := by
  have noOrphan : orders.find? (fun o => !(s.webhooks.any (·.id = o.webhookId))) = none := by
    rw [List.find?_eq_none]
    intro o ho
    simpa using stored o ho
  unfold createDeliveries
  rw [whenOnline_eq _ online, noOrphan]

theorem createDeliveries_orphan {s : Store} (online : s.online = true) {orders : List Order}
    (orphan : ∃ o ∈ orders, ∀ w ∈ s.webhooks, w.id ≠ o.webhookId) (ids : Nat → Uuid) (now : Instant) :
    ∃ o ∈ orders, (∀ w ∈ s.webhooks, w.id ≠ o.webhookId) ∧
      s.createDeliveries orders ids now = .error (.webhookNotFound o.webhookId) := by
  cases first : orders.find? (fun o => !(s.webhooks.any (·.id = o.webhookId))) with
  | none =>
    obtain ⟨o, ho, absent⟩ := orphan
    have stored := List.find?_eq_none.mp first o ho
    simp only [Bool.not_eq_true, Bool.not_eq_false', List.any_eq_true, decide_eq_true_eq] at stored
    obtain ⟨w, hw, hid⟩ := stored
    exact absurd hid (absent w hw)
  | some o =>
    have absent := List.find?_some first
    refine ⟨o, List.mem_of_find?_eq_some first, by simpa using absent, ?_⟩
    unfold createDeliveries
    rw [whenOnline_eq _ online, first]

end Store

namespace Dispatch

variable {s : Store} {e : Event} {dueAt now : Instant} {found : List Webhook} {ids : Nat → Uuid}

def deliveriesTo (e : Event) (dueAt : Instant) (found : List Webhook) (ids : Nat → Uuid) (now : Instant) :
    List Delivery :=
  found.zipIdx.map fun x => (orderFor e dueAt x.1).toDelivery (ids x.2) now

theorem deliveriesTo_untried : ∀ d ∈ deliveriesTo e dueAt found ids now, d.Untried dueAt := by
  intro d hd
  obtain ⟨x, -, rfl⟩ := List.mem_map.mp hd
  exact ⟨rfl, rfl, rfl, ⟨rfl, rfl⟩, ⟨rfl, rfl⟩, rfl, rfl, rfl⟩

theorem deliveriesTo_carries : ∀ d ∈ deliveriesTo e dueAt found ids now, ∃ w ∈ found, d.Carries e w.id := by
  intro d hd
  obtain ⟨x, hx, rfl⟩ := List.mem_map.mp hd
  exact ⟨x.1, List.mem_of_getElem? (List.mem_zipIdx_iff_getElem?.mp hx), rfl, rfl, rfl⟩

theorem deliveriesTo_receivers : (deliveriesTo e dueAt found ids now).map (·.webhookId) = found.map (·.id) := by
  unfold deliveriesTo
  conv_rhs => rw [← List.zipIdx_map_fst 0 found]
  rw [List.map_map, List.map_map]
  rfl

theorem deliveriesTo_ids : (deliveriesTo e dueAt found ids now).map (·.id) =
    (List.range (deliveriesTo e dueAt found ids now).length).map ids := by
  have length : (deliveriesTo e dueAt found ids now).length = found.length := by
    rw [deliveriesTo, List.length_map, List.length_zipIdx]
  rw [length]
  exact Fleet.created_ids e dueAt found ids now

/-- Of webhooks with distinct identifiers each one found gets one delivery, and no other gets any. -/
theorem deliveriesTo_count (distinct : (found.map (·.id)).Nodup) (id : Uuid) :
    (deliveriesTo e dueAt found ids now).countP (·.webhookId = id) = if id ∈ found.map (·.id) then 1 else 0 := by
  have counted : (deliveriesTo e dueAt found ids now).countP (·.webhookId = id) = (found.map (·.id)).count id := by
    rw [← deliveriesTo_receivers, List.count, List.countP_map]
    rfl
  rw [counted, distinct.count]

theorem orders_eq (sayable : Text.isBlank e.type = false) (nonNil : ∀ w ∈ found, w.id.isNil = false) :
    orders e dueAt found = .ok (found.map (orderFor e dueAt)) := by
  unfold orders
  dsimp only
  have made : (found.mapM fun w => Order.make w.id e.type e.payload dueAt) = .ok (found.map (orderFor e dueAt)) := by
    induction found with
    | nil => rfl
    | cons w found ih =>
      have head : Order.make w.id e.type e.payload dueAt = .ok (orderFor e dueAt w) := by
        unfold Order.make
        rw [nonNil w List.mem_cons_self, sayable]
        rfl
      rw [List.mapM_cons, head, ih fun x hx => nonNil x (List.mem_cons_of_mem _ hx)]
      rfl
  rw [made]
  rfl

theorem targets_eq (online : s.online = true) (sayable : Text.isBlank e.type = false) :
    targets s e = .ok (s.webhooks.filter fun w => w.Wants e.type) := by
  have wanting : (fun w : Webhook => w.active && w.subscribesTo e.type) = fun w => decide (w.Wants e.type) := by
    funext w
    rw [Bool.eq_iff_iff, Webhook.wants_iff, decide_eq_true_eq]
  unfold targets Store.matchingWebhooks
  rw [sayable, Store.whenOnline_eq _ online, wanting]
  rfl

theorem write_stored (online : s.online = true) (sayable : Text.isBlank e.type = false)
    (nonNil : ∀ w ∈ found, w.id.isNil = false) (stored : ∀ w ∈ found, ∃ y ∈ s.webhooks, y.id = w.id) :
    write s e dueAt found ids now = .ok (deliveriesTo e dueAt found ids now,
      { s with deliveries := s.deliveries ++ deliveriesTo e dueAt found ids now }) := by
  unfold write
  split
  · rename_i none_found
    obtain rfl := List.isEmpty_iff.mp none_found
    simp [deliveriesTo]
  · have known : ∀ o ∈ found.map (orderFor e dueAt), ∃ y ∈ s.webhooks, y.id = o.webhookId := by
      intro o ho
      obtain ⟨w, hw, rfl⟩ := List.mem_map.mp ho
      exact stored w hw
    have created : (found.map (orderFor e dueAt)).zipIdx.map (fun x => x.1.toDelivery (ids x.2) now) =
        deliveriesTo e dueAt found ids now := by
      rw [List.zipIdx_map, List.map_map]
      rfl
    rw [orders_eq sayable nonNil]
    dsimp only
    rw [Store.createDeliveries_stored online known, created]
    rfl

theorem write_orphan (online : s.online = true) (sayable : Text.isBlank e.type = false)
    (nonNil : ∀ w ∈ found, w.id.isNil = false) (orphan : ∃ w ∈ found, ∀ y ∈ s.webhooks, y.id ≠ w.id)
    (dueAt : Instant) (ids : Nat → Uuid) (now : Instant) :
    ∃ w ∈ found, (∀ y ∈ s.webhooks, y.id ≠ w.id) ∧
      write s e dueAt found ids now = .error (.store (.webhookNotFound w.id)) := by
  obtain ⟨w, hw, absent⟩ := orphan
  have some_found : found.isEmpty = false := by
    cases found with
    | nil => cases hw
    | cons => rfl
  obtain ⟨o, ho, missing, call⟩ := Store.createDeliveries_orphan online
    ⟨orderFor e dueAt w, List.mem_map_of_mem hw, absent⟩ ids now
  obtain ⟨x, hx, rfl⟩ := List.mem_map.mp ho
  refine ⟨x, hx, missing, ?_⟩
  unfold write
  rw [some_found, orders_eq sayable nonNil]
  dsimp only
  rw [call]
  rfl

end Dispatch

namespace Fleet

variable {f : Fleet} {e : Event} {acts : List Act}

/-- A dispatch refuses a blank type and changes nothing. Otherwise it adds exactly one delivery, untried and due at
once, for each webhook that wants the event, in the order of the webhooks, and leaves all else as it was. -/
theorem dispatch_fans_out (nonNil : ∀ w ∈ f.store.webhooks, w.id.isNil = false) (e : Event) (dueAt : Instant)
    (ids : Nat → Uuid) (now : Instant) :
    let call := Dispatch.run f.store e dueAt ids now
    (Text.isBlank e.type = true → call = .error .blankType ∧ f.wrote call = f) ∧
    (Text.isBlank e.type = false → f.store.online = true → ∃ created,
      call = .ok (created, { f.store with deliveries := f.store.deliveries ++ created }) ∧
      created.map (·.webhookId) = (f.store.webhooks.filter fun w => w.Wants e.type).map (·.id) ∧
      ((f.store.webhooks.map (·.id)).Nodup → ∀ w ∈ f.store.webhooks,
        created.countP (·.webhookId = w.id) = if w.Wants e.type then 1 else 0) ∧
      created.map (·.id) = (List.range created.length).map ids ∧
      ∀ d ∈ created, d.Untried dueAt ∧ (∃ w ∈ f.store.webhooks, w.Wants e.type ∧ d.Carries e w.id) ∧
        ∀ t, d.isClaimable t = true ↔ dueAt ≤ t) := by
  intro call
  refine ⟨fun blank => ?_, fun sayable online => ?_⟩
  · have refused : call = .error .blankType := by
      unfold call Dispatch.run Dispatch.targets
      rw [if_pos blank]
    exact ⟨refused, by rw [refused]; rfl⟩
  · have member : ∀ w ∈ f.store.webhooks.filter (fun w => w.Wants e.type), w ∈ f.store.webhooks ∧ w.Wants e.type := by
      intro w hw
      exact ⟨List.mem_of_mem_filter hw, of_decide_eq_true (List.mem_filter.mp hw).2⟩
    refine ⟨Dispatch.deliveriesTo e dueAt (f.store.webhooks.filter fun w => w.Wants e.type) ids now, ?_,
      Dispatch.deliveriesTo_receivers, ?_, Dispatch.deliveriesTo_ids, ?_⟩
    · unfold call Dispatch.run
      rw [Dispatch.targets_eq online sayable]
      exact Dispatch.write_stored online sayable (fun w hw => nonNil w (member w hw).1)
        fun w hw => ⟨w, (member w hw).1, rfl⟩
    · intro distinct w hw
      rw [Dispatch.deliveriesTo_count (distinct.sublist (List.filter_sublist.map _))]
      exact if_congr (Webhook.wanting_iff distinct hw e.type) rfl rfl
    · intro d hd
      have untried := Dispatch.deliveriesTo_untried d hd
      obtain ⟨w, hw, carries⟩ := Dispatch.deliveriesTo_carries d hd
      exact ⟨untried, ⟨w, (member w hw).1, (member w hw).2, carries⟩, fun t => untried.claimable_iff⟩

namespace Sample

def other : Uuid := .ofNat 5

def page : Event := ⟨"page.published", second 0, .null⟩

def subscribed (kind : String) : List Act :=
  [.createWebhook registration hook (second 0),
    .createWebhook { registration with events := [none, some kind, some "page.*"] } other (second 0)]

end Sample

theorem dispatch_fans_out_overlapping :
    let s := (initial.run Sample.crew (Sample.subscribed "*")).store
    ∃ created, Dispatch.run s Sample.page (Sample.second 0) Uuid.ofNat (Sample.second 0) =
        .ok (created, { s with deliveries := s.deliveries ++ created }) ∧
      created.countP (·.webhookId = Sample.hook) = 1 ∧ created.countP (·.webhookId = Sample.other) = 1 := by
  intro s
  have nonNil : ∀ w ∈ s.webhooks, w.id.isNil = false := by decide +kernel
  have distinct : (s.webhooks.map (·.id)).Nodup := by decide +kernel
  have chosen : ∀ id ∈ [Sample.hook, Sample.other], ∃ w ∈ s.webhooks, w.id = id ∧ w.Wants Sample.page.type := by
    decide +kernel
  obtain ⟨created, call, -, count, -⟩ := (dispatch_fans_out nonNil Sample.page (Sample.second 0)
    Uuid.ofNat (Sample.second 0)).2 (by decide) (by decide +kernel)
  have one : ∀ id ∈ [Sample.hook, Sample.other], created.countP (·.webhookId = id) = 1 := by
    intro id hid
    obtain ⟨w, hw, rfl, wants⟩ := chosen id hid
    exact (count distinct w hw).trans (if_pos wants)
  exact ⟨created, call, one _ (by simp), one _ (by simp)⟩

/-! ### Between the two calls -/

theorem webhook_stays (crew : Crew) {w : Webhook} (hw : w ∈ f.store.webhooks) (kept : .deleteWebhook w.id ∉ acts) :
    ∃ y ∈ (f.run crew acts).store.webhooks, y.id = w.id := by
  induction acts using List.reverseRecOn with
  | nil => exact ⟨w, hw, rfl⟩
  | append_singleton acts a ih =>
    simp only [List.mem_append, List.mem_singleton, not_or] at kept
    obtain ⟨x, hx, same⟩ := ih kept.1
    rw [run_concat]
    obtain ⟨y, hy, hid⟩ | ⟨deleted, -⟩ := step_webhook crew a hx
    · exact ⟨y, hy, hid.trans same⟩
    · exact absurd (same ▸ deleted).symm kept.2

/-- Whatever happens between the two calls of a dispatch, webhooks that are not deleted are still there at the second.
If all that the first call found are, each gets its one delivery; if any is gone, the dispatch names one such webhook and
writes nothing for the others either. -/
theorem dispatch_reaches_all_or_none (crew : Crew) (sayable : Text.isBlank e.type = false)
    (nonNil : ∀ w ∈ f.store.webhooks, w.id.isNil = false) (distinct : (f.store.webhooks.map (·.id)).Nodup)
    (online : f.store.online = true) (stillOnline : (f.run crew acts).store.online = true) (dueAt : Instant)
    (ids : Nat → Uuid) (now : Instant) :
    ∃ found, Dispatch.targets f.store e = .ok found ∧
      (∀ w, w ∈ found ↔ w ∈ f.store.webhooks ∧ w.Wants e.type) ∧
      let g := f.run crew acts
      let call := Dispatch.write g.store e dueAt found ids now
      (∀ w ∈ found, .deleteWebhook w.id ∉ acts → ∃ y ∈ g.store.webhooks, y.id = w.id) ∧
      ((∀ w ∈ found, ∃ y ∈ g.store.webhooks, y.id = w.id) → ∃ created,
        call = .ok (created, { g.store with deliveries := g.store.deliveries ++ created }) ∧
        (∀ w ∈ found, created.countP (·.webhookId = w.id) = 1) ∧
        ∀ d ∈ created, d.Untried dueAt ∧ ∃ w ∈ found, d.Carries e w.id) ∧
      ((∃ w ∈ found, ∀ y ∈ g.store.webhooks, y.id ≠ w.id) →
        g.wrote call = g ∧ ∃ w ∈ found, (∀ y ∈ g.store.webhooks, y.id ≠ w.id) ∧
          call = .error (.store (.webhookNotFound w.id))) := by
  refine ⟨_, Dispatch.targets_eq online sayable, fun w => by rw [List.mem_filter, decide_eq_true_eq], ?_⟩
  generalize hfound : f.store.webhooks.filter (fun w => w.Wants e.type) = found
  have member : ∀ w ∈ found, w ∈ f.store.webhooks := by
    intro w hw
    exact List.mem_of_mem_filter (hfound ▸ hw)
  have known := fun w hw => nonNil w (member w hw)
  intro g call
  refine ⟨fun w hw kept => webhook_stays crew (member w hw) kept, fun stored => ?_, fun gone => ?_⟩
  · refine ⟨_, Dispatch.write_stored stillOnline sayable known stored, fun w hw => ?_, fun d hd => ?_⟩
    · rw [Dispatch.deliveriesTo_count (hfound ▸ distinct.sublist (List.filter_sublist.map _)),
        if_pos (List.mem_map_of_mem hw)]
    · exact ⟨Dispatch.deliveriesTo_untried d hd, Dispatch.deliveriesTo_carries d hd⟩
  · obtain ⟨w, hw, absent, refused⟩ := Dispatch.write_orphan stillOnline sayable known gone dueAt ids now
    have unwritten : g.wrote call = g := by
      unfold call
      rw [refused]
      rfl
    exact ⟨unwritten, w, hw, absent, refused⟩

theorem dispatch_reaches_all_or_none_deactivated :
    let f := initial.run Sample.crew (Sample.subscribed "*")
    let g := f.run Sample.crew [.setActive Sample.other false (Sample.second 1)]
    ∃ found created, Dispatch.targets f.store Sample.page = .ok found ∧
      Dispatch.write g.store Sample.page (Sample.second 2) found Uuid.ofNat (Sample.second 2) =
        .ok (created, { g.store with deliveries := g.store.deliveries ++ created }) ∧
      ∀ w ∈ found, created.countP (·.webhookId = w.id) = 1 := by
  intro f g
  have stillOnline : g.store.online = true := by decide +kernel
  have nonNil : ∀ w ∈ f.store.webhooks, w.id.isNil = false := by decide +kernel
  obtain ⟨found, targets, -, stays, reached, -⟩ := dispatch_reaches_all_or_none (e := Sample.page) Sample.crew
    (by decide) nonNil (by decide +kernel) (by decide +kernel) stillOnline (Sample.second 2) Uuid.ofNat (Sample.second 2)
  obtain ⟨created, call, once, -⟩ := reached fun w hw => stays w hw (by simp)
  exact ⟨found, created, targets, call, once⟩

/-- A webhook is deleted between the two calls, and one that is still there gets nothing. -/
theorem deletion_starves_others :
    let f := initial.run Sample.crew (Sample.subscribed "*")
    let g := f.run Sample.crew [.deleteWebhook Sample.other]
    ∃ found, Dispatch.targets f.store Sample.page = .ok found ∧ (∃ w ∈ found, w.id = Sample.hook) ∧
      (∃ w ∈ g.store.webhooks, w.id = Sample.hook) ∧ g.store.online = true ∧
      Dispatch.write g.store Sample.page (Sample.second 2) found Uuid.ofNat (Sample.second 2) =
        .error (.store (.webhookNotFound Sample.other)) := by
  intro f g
  refine ⟨f.store.webhooks, by rfl, by decide +kernel, by decide +kernel, by decide +kernel, by rfl⟩

end Fleet

end Courier
