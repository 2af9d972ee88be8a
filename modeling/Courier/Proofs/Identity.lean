import Courier.Proofs.FleetSteps
import Mathlib.Data.List.Nodup
set_option autoImplicit false

namespace Courier

def Act.issued : Act → List Uuid
  | .dispatch _ _ found ids _ => (List.range found.length).map ids
  | _ => []

def Act.claimsByHand : Act → Bool
  | .claimByHand _ _ _ _ => true
  | .renewByHand _ _ _ => true
  | _ => false

/-- A run in which no identifier is given out twice and only scans, under the identifier of their own scheduler, put
and renew claims. -/
structure Regular (acts : List Act) : Prop where
  fresh : (acts.flatMap Act.issued).Nodup
  byScans : ∀ a ∈ acts, a.claimsByHand = false

theorem Regular.left {acts more : List Act} (h : Regular (acts ++ more)) : Regular acts where
  fresh := by
    have fresh := h.fresh
    rw [List.flatMap_append] at fresh
    exact (List.nodup_append.mp fresh).1
  byScans a ha := h.byScans a (List.mem_append_left _ ha)

theorem Regular.last {acts : List Act} {a : Act} (h : Regular (acts ++ [a])) :
    a.claimsByHand = false ∧ a.issued.Nodup ∧ ∀ id ∈ acts.flatMap Act.issued, id ∉ a.issued := by
  have fresh := h.fresh
  rw [List.flatMap_append, List.flatMap_singleton] at fresh
  obtain ⟨-, hnew, hdisjoint⟩ := List.nodup_append.mp fresh
  refine ⟨h.byScans a (List.mem_append_right _ List.mem_cons_self), hnew, ?_⟩
  intro id hid hnew
  exact hdisjoint id hid id hnew rfl

namespace Fleet

variable {crew : Crew} {f : Fleet} {h id : Uuid} {a : Act}

structure Distinct (f : Fleet) : Prop where
  rows : (f.store.deliveries.map (·.id)).Nodup
  workers : ∀ h, ((f.workers h).map (·.delivery.id)).Nodup

theorem Distinct.row_eq (distinct : Distinct f) {d e : Delivery} (hd : d ∈ f.store.deliveries)
    (he : e ∈ f.store.deliveries) (same : d.id = e.id) : d = e :=
  List.inj_on_of_nodup_map distinct.rows hd he same

theorem Distinct.getDelivery (distinct : Distinct f) {d : Delivery} (hd : d ∈ f.store.deliveries)
    (online : f.store.online = true) : f.store.getDelivery d.id = .ok (some d) := by
  unfold Store.getDelivery
  rw [Store.whenOnline_eq _ online]
  cases hfind : f.store.deliveries.find? (·.id = d.id) with
  | none => exact absurd (List.find?_eq_none.mp hfind d hd) (by simp)
  | some e =>
    have same : e.id = d.id := by simpa using List.find?_some hfind
    rw [distinct.row_eq (List.mem_of_find?_eq_some hfind) hd same]

theorem Distinct.worker_eq (distinct : Distinct f) {k j : Worker} (hk : k ∈ f.workers h) (hj : j ∈ f.workers h)
    (same : k.delivery.id = j.delivery.id) : k = j :=
  List.inj_on_of_nodup_map (distinct.workers h) hk hj same

theorem Added.issued {d : Delivery} (added : Added f a d) : d.id ∈ a.issued := by
  obtain ⟨e, dueAt, found, ids, now, rfl, -, x, hx, rfl⟩ := added
  have hlt : x.2 < found.length := by
    have hget := List.mem_zipIdx_iff_getElem?.mp hx
    exact (List.getElem?_eq_some_iff.mp hget).1
  exact List.mem_map.mpr ⟨x.2, List.mem_range.mpr hlt, rfl⟩

theorem created_ids (e : Event) (dueAt : Instant) (found : List Webhook) (ids : Nat → Uuid) (now : Instant) :
    (found.zipIdx.map (fun x => (Dispatch.orderFor e dueAt x.1).toDelivery (ids x.2) now)).map (·.id) =
      (Act.dispatch e dueAt found ids now).issued :=
  Store.ids_numbered found fun _ => rfl

theorem rows_step (rows : (f.store.deliveries.map (·.id)).Nodup) (fresh : a.issued.Nodup)
    (apart : ∀ d ∈ f.store.deliveries, d.id ∉ a.issued) : ((f.step crew a).store.deliveries.map (·.id)).Nodup := by
  by_cases hnone : ∀ d, ¬ Added f a d
  · exact rows.sublist ((step_rows crew f a).keys_sublist (fun _ _ touched => touched.id_eq) hnone)
  · -- only a dispatch adds deliveries, and it changes no others
    obtain ⟨d, e, dueAt, found, ids, now, rfl, -⟩ := not_forall_not.mp hnone
    rcases wrote_cases (f := f) (Dispatch.write f.store e dueAt found ids now) with same | ⟨created, call⟩
    · rw [step, same]
      exact rows
    · obtain ⟨-, hdel, hcreated, -⟩ := Dispatch.write_ok call
      rw [step, hdel, List.map_append, hcreated, created_ids]
      refine List.nodup_append.mpr ⟨rows, fresh, ?_⟩
      intro x hx y hy same
      obtain ⟨d, hd, rfl⟩ := List.mem_map.mp hx
      exact apart d hd (same ▸ hy)

theorem workers_step (distinct : Distinct f) : (((f.step crew a).workers h).map (·.delivery.id)).Nodup := by
  have old := distinct.workers h
  generalize hjs : (f.step crew a).workers h = js
  have shifts := step_workers crew f a h
  rw [hjs] at shifts
  cases shifts with
  | same eq =>
    rw [eq]
    exact old
  | dropped => exact List.nodup_nil
  | ended before after =>
    rw [(before.map _).nodup_iff, List.map_cons] at old
    rw [(after.map _).nodup_iff]
    exact (List.nodup_cons.mp old).2
  | advanced before after move =>
    rw [(before.map _).nodup_iff, List.map_cons, ← move.delivery_eq] at old
    rw [(after.map _).nodup_iff, List.map_cons]
    exact old
  | claimed act idle call =>
    obtain ⟨-, -, -, -, -, hids⟩ := Store.claimDue_ok call
    rw [List.map_map]
    exact hids distinct.rows

/-- In a regular run identifiers are distinct, and those of stored deliveries were given out. -/
theorem distinct_after (crew : Crew) {acts : List Act} (regular : Regular acts) : Distinct (after crew acts) ∧
    ∀ d ∈ (after crew acts).store.deliveries, d.id ∈ acts.flatMap Act.issued := by
  induction acts using List.reverseRecOn with
  | nil => exact ⟨⟨List.nodup_nil, fun _ => List.nodup_nil⟩, by intro d hd; cases hd⟩
  | append_singleton acts a ih =>
    obtain ⟨distinct, known⟩ := ih regular.left
    obtain ⟨-, fresh, apart⟩ := regular.last
    rw [after_concat]
    refine ⟨⟨rows_step distinct.rows fresh fun d hd => apart _ (known d hd), fun h => workers_step distinct⟩, ?_⟩
    intro e he
    rw [List.flatMap_append, List.flatMap_singleton, List.mem_append]
    obtain ⟨d, hd, touched⟩ | added := (step_rows crew _ a).origin he
    · rw [touched.id_eq]
      exact .inl (known d hd)
    · exact .inr added.issued

/-- A delivery that was stored before an action and one of its identifier after it: the action made the one of the
other. -/
theorem touched_of_same_id {acts : List Act} (regular : Regular (acts ++ [a])) {d e : Delivery}
    (hd : d ∈ (after crew acts).store.deliveries) (he : e ∈ (after crew (acts ++ [a])).store.deliveries)
    (same : e.id = d.id) : Touched crew (after crew acts) a d e := by
  obtain ⟨distinct, known⟩ := distinct_after crew regular.left
  rw [after_concat] at he
  obtain ⟨x, hx, touched⟩ | added := (step_rows crew _ a).origin he
  · obtain rfl : x = d := distinct.row_eq hx hd (touched.id_eq.symm.trans same)
    exact touched
  · exact absurd (same ▸ added.issued) (regular.last.2.2 _ (known d hd))

end Fleet

end Courier
