import Courier.Proofs.Calls
import Courier.Proofs.FanOut
set_option autoImplicit false

namespace Courier.Store

def Call.webhookIds : Call → List Uuid
  | .createWebhook _ id _ => [id]
  | _ => []

def Call.deliveryIds : Call → List Uuid
  | .createDeliveries orders ids _ => (List.range orders.length).map ids
  | _ => []

def ofCalls (calls : List Call) : Store := calls.foldl after empty

/-- Calls that give no identifier to two records of a kind. -/
structure Fresh (calls : List Call) : Prop where
  webhooks : (calls.flatMap Call.webhookIds).Nodup
  deliveries : (calls.flatMap Call.deliveryIds).Nodup

def Linked (s : Store) : Prop := ∀ d ∈ s.deliveries, ∃ w ∈ s.webhooks, w.id = d.webhookId

variable {s t : Store} {call : Call}

/-! ### What a call does to identifiers -/

/-- Identifiers are taken away and given out, never changed or put in another order, and references are kept. -/
structure Keeps (call : Call) (s t : Store) : Prop where
  webhooks : (t.webhooks.map (·.id)).Sublist (s.webhooks.map (·.id) ++ call.webhookIds)
  deliveries : (t.deliveries.map (·.id)).Sublist (s.deliveries.map (·.id) ++ call.deliveryIds)
  linked : s.Linked → t.Linked

namespace Keeps

theorem refl (call : Call) (s : Store) : Keeps call s s :=
  ⟨List.sublist_append_left _ _, List.sublist_append_left _ _, id⟩

theorem wrote {ε α : Type} {x : Except ε (α × Store)} (ok : ∀ a t, x = .ok (a, t) → Keeps call s t) :
    Keeps call s (s.wrote x) := by
  cases x with
  | ok r => exact ok r.1 r.2 rfl
  | error e => exact .refl call s

/-- A call that only changes columns of deliveries, or drops deliveries. -/
theorem of_rows {keep : Delivery → Delivery → Prop} {gone : Delivery → Prop} (frames : s.Frames t)
    (rows : Evolves keep gone (fun _ => False) s.deliveries t.deliveries)
    (kept : ∀ d e, keep d e → e.id = d.id ∧ e.webhookId = d.webhookId) : Keeps call s t where
  webhooks := by
    rw [frames.webhooks]
    exact List.sublist_append_left _ _
  deliveries := (rows.keys_sublist (fun d e hk => (kept d e hk).1) fun _ h => h).trans (List.sublist_append_left _ _)
  linked linked e he := by
    obtain ⟨d, hd, hk⟩ | added := rows.origin he
    · rw [frames.webhooks, (kept d e hk).2]
      exact linked d hd
    · exact added.elim

theorem of_writes {writes : Delivery → Delivery → Prop} (frames : s.Frames t)
    (rows : s.Rewrites (fun d e => e = d ∨ writes d e) t)
    (written : ∀ d e, writes d e → ∃ change, e = d.apply change) : Keeps call s t := by
  refine of_rows frames rows ?_
  rintro d e (rfl | hw)
  · exact ⟨rfl, rfl⟩
  · obtain ⟨change, rfl⟩ := written d e hw
    exact ⟨rfl, rfl⟩

end Keeps

theorem createWebhook_keeps {r : Registration} {id : Uuid} {now : Instant} {w : Webhook}
    (ok : s.createWebhook r id now = .ok (w, t)) : Keeps (.createWebhook r id now) s t := by
  obtain ⟨-, ok⟩ := whenOnline_ok ok
  cases ok
  refine ⟨?_, List.sublist_append_left _ _, fun linked d hd => ?_⟩
  · rw [List.map_append]
    exact List.Sublist.refl _
  · obtain ⟨w, hw, same⟩ := linked d hd
    exact ⟨w, List.mem_append_left _ hw, same⟩

theorem updateWebhook_keeps {id : Uuid} {a : Amendment} {now : Instant} {w : Webhook}
    (ok : s.updateWebhook id a now = .ok (w, t)) : Keeps (.updateWebhook id a now) s t := by
  obtain ⟨deliveries, -, stay⟩ := updateWebhook_ok ok
  have ids : t.webhooks.map (·.id) = s.webhooks.map (·.id) := by
    unfold updateWebhook at ok
    split at ok
    · cases ok
    · obtain ⟨-, ok⟩ := whenOnline_ok ok
      dsimp only at ok
      split at ok
      · next y ys changed =>
        cases ok
        obtain ⟨x, -, rfl, -, rows⟩ := changeFirst_evolves changed
        refine rows.keys_eq ?_
        rintro u v (rfl | ⟨rfl, rfl⟩)
        · rfl
        · split <;> rfl
      · cases ok
  refine ⟨?_, ?_, fun linked d hd => ?_⟩
  · rw [ids]
    exact List.sublist_append_left _ _
  · rw [deliveries]
    exact List.sublist_append_left _ _
  · rw [deliveries] at hd
    obtain ⟨w, hw, same⟩ := linked d hd
    obtain ⟨y, hy, renamed⟩ := stay w hw
    exact ⟨y, hy, renamed.trans same⟩

theorem deleteWebhook_eq (online : s.online = true) (linked : s.Linked) (id : Uuid) :
    s.deleteWebhook id = .ok (s.webhooks.any (·.id = id), { s with
      webhooks := s.webhooks.filter (·.id ≠ id), deliveries := s.deliveries.filter (·.webhookId ≠ id) }) := by
  unfold deleteWebhook
  rw [whenOnline_eq _ online]
  split
  · next stored => rw [stored]
  · next absent =>
    -- no delivery names a webhook that is not stored, so there is nothing to take away
    have none : ∀ w ∈ s.webhooks, w.id ≠ id := by simpa using absent
    have webhooks : s.webhooks.filter (·.id ≠ id) = s.webhooks :=
      List.filter_eq_self.mpr fun w hw => decide_eq_true (none w hw)
    have deliveries : s.deliveries.filter (·.webhookId ≠ id) = s.deliveries :=
      List.filter_eq_self.mpr fun d hd => by
        obtain ⟨w, hw, same⟩ := linked d hd
        exact decide_eq_true (same ▸ none w hw)
    rw [webhooks, deliveries, Bool.eq_false_iff.mpr absent]

theorem deleteWebhook_keeps {id : Uuid} {b : Bool} (ok : s.deleteWebhook id = .ok (b, t)) :
    Keeps (.deleteWebhook id) s t := by
  obtain ⟨-, rows, stay, removed⟩ := deleteWebhook_ok ok
  obtain ⟨-, ok⟩ := whenOnline_ok ok
  refine ⟨?_, ?_, fun linked e he => ?_⟩
  · split at ok
    all_goals
      cases ok
      refine List.Sublist.trans ?_ (List.sublist_append_left _ _)
    · exact List.filter_sublist.map _
    · exact List.Sublist.refl _
  · exact (rows.keys_sublist (fun _ _ same => same ▸ rfl) fun _ h => h).trans (List.sublist_append_left _ _)
  · obtain ⟨d, hd, rfl⟩ | added := rows.origin he
    · obtain ⟨w, hw, same⟩ := linked d hd
      refine ⟨w, stay w hw ?_, same⟩
      rcases removed with ⟨-, cleared⟩ | ⟨-, -, absent⟩
      · exact same ▸ cleared d he
      · exact absent w hw
    · exact added.elim

theorem createDeliveries_keeps {orders : List Order} {ids : Nat → Uuid} {now : Instant} {created : List Delivery}
    (ok : s.createDeliveries orders ids now = .ok (created, t)) : Keeps (.createDeliveries orders ids now) s t := by
  obtain ⟨frames, rows, batch, known⟩ := createDeliveries_ok ok
  refine ⟨?_, ?_, fun linked d hd => ?_⟩
  · rw [frames.webhooks]
    exact List.sublist_append_left _ _
  · rw [rows, List.map_append, batch, ids_numbered orders fun _ => rfl]
    exact List.Sublist.refl _
  · rw [frames.webhooks]
    rw [rows, batch] at hd
    rcases List.mem_append.mp hd with old | new
    · exact linked d old
    · obtain ⟨x, hx, rfl⟩ := List.mem_map.mp new
      exact known x.1 (List.mem_of_getElem? (List.mem_zipIdx_iff_getElem?.mp hx))

theorem keeps_after (s : Store) (call : Call) : Keeps call s (s.after call) := by
  cases call with
  | createWebhook r id now => exact .wrote fun _ _ ok => createWebhook_keeps ok
  | updateWebhook id a now => exact .wrote fun _ _ ok => updateWebhook_keeps ok
  | deleteWebhook id => exact .wrote fun _ _ ok => deleteWebhook_keeps ok
  | createDeliveries orders ids now => exact .wrote fun _ _ ok => createDeliveries_keeps ok
  | claimDue now limit claimer lease =>
    refine .wrote fun _ _ ok => ?_
    obtain ⟨frames, till, -, rows, -, -⟩ := claimDue_ok ok
    exact .of_writes frames rows fun d e written => ⟨_, written.2.1⟩
  | renewClaim id claimer till =>
    exact .wrote fun _ _ ok => .of_writes (renewClaim_ok ok).1 (renewClaim_ok ok).2.1 fun d e written => ⟨_, written.2⟩
  | completeAttempt id claimer change =>
    exact .wrote fun _ _ ok => .of_writes (completeAttempt_ok ok).1 (completeAttempt_ok ok).2.1
      fun d e written => ⟨_, written.2⟩
  | releaseClaim id claimer =>
    exact .wrote fun _ _ ok => .of_writes (releaseClaim_ok ok).1 (releaseClaim_ok ok).2.1
      fun d e written => ⟨_, written.2⟩
  | releaseExpired now =>
    refine .wrote fun _ _ ok => .of_rows (releaseExpired_ok ok).1 (releaseExpired_ok ok).2 ?_
    rintro d e rfl
    split <;> exact ⟨rfl, rfl⟩
  | retryDelivery id now =>
    exact .wrote fun _ _ ok => .of_writes (retryDelivery_ok ok).1 (retryDelivery_ok ok).2.1
      fun d e written => ⟨_, written.2.2⟩
  | cleanupOld cutoff =>
    refine .wrote fun _ _ ok => .of_rows (cleanupOld_ok ok).1 (cleanupOld_ok ok).2 ?_
    rintro d e rfl
    exact ⟨rfl, rfl⟩
  | switch online => exact ⟨List.sublist_append_left _ _, List.sublist_append_left _ _, id⟩

/-! ### Runs -/

theorem ofCalls_append (first second : List Call) : ofCalls (first ++ second) = second.foldl after (ofCalls first) :=
  List.foldl_append

/-- A record that was stored at one time and was not at a later one is not at any time after that. -/
def StaysGone (ids : Store → List Uuid) (calls : List Call) : Prop :=
  ∀ first second third, calls = first ++ second ++ third → ∀ id ∈ ids (ofCalls first),
    id ∉ ids (ofCalls (first ++ second)) → id ∉ ids (ofCalls calls)

section Issue

variable (ids : Store → List Uuid) {issued : Call → List Uuid}
  (step : ∀ s call, (ids (s.after call)).Sublist (ids s ++ issued call))

include step

theorem ids_foldl (calls : List Call) (s : Store) :
    (ids (calls.foldl after s)).Sublist (ids s ++ calls.flatMap issued) := by
  induction calls generalizing s with
  | nil => exact List.sublist_append_left _ _
  | cons call calls ih =>
    have first := (step s call).append_right (calls.flatMap issued)
    rw [List.append_assoc] at first
    exact (ih (s.after call)).trans first

theorem ids_ofCalls (none : ids empty = []) (calls : List Call) :
    (ids (ofCalls calls)).Sublist (calls.flatMap issued) := by
  have order := ids_foldl ids step calls empty
  rw [none] at order
  exact order

theorem staysGone (none : ids empty = []) {calls : List Call} (fresh : (calls.flatMap issued).Nodup) :
    StaysGone ids calls := by
  rintro first second third rfl id known gone back
  have early : id ∈ first.flatMap issued := (ids_ofCalls ids step none first).subset known
  rw [ofCalls_append] at back
  -- to come back it would have to be given out again
  rcases List.mem_append.mp ((ids_foldl ids step third _).subset back) with still | again
  · exact gone still
  · rw [List.flatMap_append, List.flatMap_append] at fresh
    exact (List.nodup_append.mp fresh).2.2 id (List.mem_append_left _ early) id again rfl

end Issue

theorem linked_ofCalls (calls : List Call) : (ofCalls calls).Linked := by
  induction calls using List.reverseRecOn with
  | nil => exact fun d hd => nomatch hd
  | append_singleton calls call ih =>
    rw [ofCalls_append]
    exact (keeps_after _ call).linked ih

/-! ### Batches and deletions -/

def batch (orders : List Order) (ids : Nat → Uuid) (now : Instant) : List Delivery :=
  orders.zipIdx.map fun x => x.1.toDelivery (ids x.2) now

/-- Every batch whose webhooks are all stored is appended as a whole; of any other nothing is stored. -/
def TakesWhole (s : Store) : Prop := ∀ orders ids now,
  (s.online = true ∧ (∀ o ∈ orders, ∃ w ∈ s.webhooks, w.id = o.webhookId) →
    s.createDeliveries orders ids now
      = .ok (batch orders ids now, { s with deliveries := s.deliveries ++ batch orders ids now })) ∧
  (¬ (s.online = true ∧ ∀ o ∈ orders, ∃ w ∈ s.webhooks, w.id = o.webhookId) →
    (∃ e, s.createDeliveries orders ids now = .error e) ∧ s.after (.createDeliveries orders ids now) = s)

def DeletesExactly (s : Store) : Prop := ∀ id,
  (s.online = true → ∃ b, s.deleteWebhook id = .ok (b, { s with
      webhooks := s.webhooks.filter (·.id ≠ id), deliveries := s.deliveries.filter (·.webhookId ≠ id) }) ∧
    (b = true ↔ ∃ w, s.webhooks.filter (·.id = id) = [w])) ∧
  (s.online = false → s.deleteWebhook id = .error .unavailable ∧ s.after (.deleteWebhook id) = s)

theorem takesWhole (s : Store) : s.TakesWhole := by
  intro orders ids now
  refine ⟨fun ⟨online, known⟩ => createDeliveries_stored online known ids now, fun unmet => ?_⟩
  have fails : ∃ e, s.createDeliveries orders ids now = .error e := by
    cases hc : s.createDeliveries orders ids now with
    | error e => exact ⟨e, rfl⟩
    | ok r => exact absurd ⟨(whenOnline_ok hc).1, (createDeliveries_ok hc).2.2.2⟩ unmet
  obtain ⟨e, failed⟩ := fails
  refine ⟨⟨e, failed⟩, ?_⟩
  change s.wrote (s.createDeliveries orders ids now) = s
  rw [failed]
  rfl

theorem filter_singleton {ws : List Webhook} (distinct : (ws.map (·.id)).Nodup) {w : Webhook} (hw : w ∈ ws) :
    ws.filter (·.id = w.id) = [w] := by
  have nodup : (ws.filter (·.id = w.id)).Nodup := distinct.of_map _ |>.filter _
  have only : ∀ x, x ∈ ws.filter (·.id = w.id) ↔ x = w := by
    intro x
    rw [List.mem_filter, decide_eq_true_eq]
    constructor
    · exact fun ⟨hx, same⟩ => List.inj_on_of_nodup_map distinct hx hw same
    · rintro rfl
      exact ⟨hw, rfl⟩
  refine List.perm_singleton.mp ((List.perm_ext_iff_of_nodup nodup (List.nodup_singleton w)).mpr fun x => ?_)
  rw [only, List.mem_singleton]

theorem deletesExactly (distinct : (s.webhooks.map (·.id)).Nodup) (linked : s.Linked) : s.DeletesExactly := by
  intro id
  refine ⟨fun online => ⟨_, deleteWebhook_eq online linked id, ?_, ?_⟩, fun offline => ?_⟩
  · intro stored
    obtain ⟨w, hw, named⟩ := List.any_eq_true.mp stored
    obtain rfl := of_decide_eq_true named
    exact ⟨w, filter_singleton distinct hw⟩
  · rintro ⟨w, only⟩
    have hw : w ∈ s.webhooks.filter (·.id = id) := only ▸ List.mem_cons_self
    obtain ⟨hw, named⟩ := List.mem_filter.mp hw
    exact List.any_eq_true.mpr ⟨w, hw, named⟩
  · have failed : s.deleteWebhook id = .error .unavailable := by
      unfold deleteWebhook whenOnline
      rw [if_neg (by simp [offline])]
    refine ⟨failed, ?_⟩
    change s.wrote (s.deleteWebhook id) = s
    rw [failed]
    rfl

/-- After any calls that give no identifier out twice: identifiers are distinct, no delivery is without its webhook,
batches are stored whole or not at all, a deletion takes one webhook and its deliveries only, and nothing removed comes
back. -/
theorem references_intact {calls : List Call} (fresh : Fresh calls) :
    ((ofCalls calls).webhooks.map (·.id)).Nodup ∧ ((ofCalls calls).deliveries.map (·.id)).Nodup ∧
      (∀ d ∈ (ofCalls calls).deliveries, ∃ w ∈ (ofCalls calls).webhooks, w.id = d.webhookId) ∧
      (ofCalls calls).TakesWhole ∧ (ofCalls calls).DeletesExactly ∧
      StaysGone (fun s => s.webhooks.map (·.id)) calls ∧ StaysGone (fun s => s.deliveries.map (·.id)) calls := by
  have webhooks := fresh.webhooks.sublist
    (ids_ofCalls (fun s => s.webhooks.map (·.id)) (fun s call => (keeps_after s call).webhooks) rfl calls)
  have deliveries := fresh.deliveries.sublist
    (ids_ofCalls (fun s => s.deliveries.map (·.id)) (fun s call => (keeps_after s call).deliveries) rfl calls)
  have linked := linked_ofCalls calls
  exact ⟨webhooks, deliveries, linked, takesWhole _, deletesExactly webhooks linked,
    staysGone _ (fun s call => (keeps_after s call).webhooks) rfl fresh.webhooks,
    staysGone _ (fun s call => (keeps_after s call).deliveries) rfl fresh.deliveries⟩

section Cascade

open Fleet.Sample

def orderedTwice : List Call :=
  [.createWebhook registration hook (second 0), .createWebhook registration south (second 0),
    .createDeliveries [⟨hook, "page.created", "", .pending, none⟩,
      ⟨south, "page.created", "", .pending, some (second 60)⟩] (fun i => .ofNat (10 + i)) (second 1),
    .claimDue (second 2) 2 north .ninetySeconds]

/-- The first webhook is deleted while a worker sends its delivery, and one more order comes for it. -/
def cascade : List Call :=
  [.completeAttempt (.ofNat 10) north .release,
    .createDeliveries [⟨hook, "page.deleted", "", .pending, none⟩] (fun _ => .ofNat 20) (second 3),
    .switch false, .cleanupOld (second 9), .switch true, .retryDelivery (.ofNat 10) (second 9)]

theorem references_intact_cascade :
    Fresh (orderedTwice ++ [.deleteWebhook hook] ++ cascade) ∧
      (ofCalls (orderedTwice ++ [.deleteWebhook hook] ++ cascade)).deliveries.map (·.id) = [.ofNat 11] ∧
      Uuid.ofNat 10 ∉ (ofCalls (orderedTwice ++ [.deleteWebhook hook] ++ cascade)).deliveries.map (·.id) := by
  have fresh : Fresh (orderedTwice ++ [.deleteWebhook hook] ++ cascade) := ⟨by decide +kernel, by decide +kernel⟩
  obtain ⟨-, -, -, -, -, -, gone⟩ := references_intact fresh
  exact ⟨fresh, by decide +kernel, gone _ _ _ rfl (.ofNat 10) (by decide +kernel) (by decide +kernel)⟩

end Cascade

end Courier.Store
