import Courier.Proofs.ClaimFence
set_option autoImplicit false

namespace Courier

namespace Store

inductive Call where
  | createWebhook (r : Registration) (id : Uuid) (now : Instant)
  | updateWebhook (id : Uuid) (a : Amendment) (now : Instant)
  | deleteWebhook (id : Uuid)
  | createDeliveries (orders : List Order) (ids : Nat → Uuid) (now : Instant)
  | claimDue (now : Instant) (limit : Int) (claimer : Uuid) (lease : Span)
  | renewClaim (id claimer : Uuid) (till : Instant)
  | completeAttempt (id claimer : Uuid) (change : Change)
  | releaseClaim (id claimer : Uuid)
  | releaseExpired (now : Instant)
  | retryDelivery (id : Uuid) (now : Instant)
  | cleanupOld (cutoff : Instant)
  | switch (online : Bool)

def wrote {ε α : Type} (s : Store) (x : Except ε (α × Store)) : Store :=
  match x with
  | .ok (_, t) => t
  | .error _ => s

def after (s : Store) : Call → Store
  | .createWebhook r id now => s.wrote (s.createWebhook r id now)
  | .updateWebhook id a now => s.wrote (s.updateWebhook id a now)
  | .deleteWebhook id => s.wrote (s.deleteWebhook id)
  | .createDeliveries orders ids now => s.wrote (s.createDeliveries orders ids now)
  | .claimDue now limit claimer lease => s.wrote (s.claimDue now limit claimer lease)
  | .renewClaim id claimer till => s.wrote (s.renewClaim id claimer till)
  | .completeAttempt id claimer change => s.wrote (s.completeAttempt id claimer change)
  | .releaseClaim id claimer => s.wrote (s.releaseClaim id claimer)
  | .releaseExpired now => s.wrote (s.releaseExpired now)
  | .retryDelivery id now => s.wrote (s.retryDelivery id now)
  | .cleanupOld cutoff => s.wrote (s.cleanupOld cutoff)
  | .switch online => s.setOnline online

/-- A call of somebody who is not this scheduler; new deliveries get identifiers that are not given out yet. -/
def Call.Foreign (h : Uuid) (s : Store) : Call → Prop
  | .createDeliveries orders ids _ =>
    ((List.range orders.length).map ids).Nodup ∧ ∀ d ∈ s.deliveries, d.id ∉ (List.range orders.length).map ids
  | .claimDue _ _ claimer _ => claimer ≠ h
  | .renewClaim _ claimer _ => claimer ≠ h
  | .completeAttempt _ claimer change => claimer ≠ h ∧ change.claimedBy ≠ some (some h)
  | _ => True

instance (h : Uuid) (s : Store) (call : Call) : Decidable (call.Foreign h s) := by
  cases call <;> unfold Call.Foreign <;> infer_instance

/-- Identifiers stay distinct, and what a scheduler holds afterwards it held before, in the same status. -/
structure Sheds (h : Uuid) (s t : Store) : Prop where
  distinct : (s.deliveries.map (·.id)).Nodup → (t.deliveries.map (·.id)).Nodup
  held : ∀ e ∈ t.deliveries, e.claimedBy = some h →
    ∃ d ∈ s.deliveries, d.id = e.id ∧ d.claimedBy = some h ∧ d.status = e.status

variable {s t : Store} {h id : Uuid} {keep : Delivery → Delivery → Prop} {gone : Delivery → Prop}

namespace Sheds

theorem of_evolves
    (kept : ∀ d e, keep d e → e.id = d.id ∧ (e.claimedBy = some h → d.claimedBy = some h ∧ d.status = e.status))
    (rows : Evolves keep gone (fun _ => False) s.deliveries t.deliveries) : Sheds h s t where
  distinct nodup := nodup.sublist (rows.keys_sublist (fun d e hk => (kept d e hk).1) fun _ h => h)
  held e he hby := by
    obtain ⟨d, hd, hk⟩ | added := rows.origin he
    · obtain ⟨hid, own⟩ := kept d e hk
      exact ⟨d, hd, hid.symm, own hby⟩
    · exact added.elim

/-- A write that leaves no claim of this scheduler where it did not stand before. -/
theorem of_writes {writes : Delivery → Delivery → Prop} (rows : s.Rewrites (fun d e => e = d ∨ writes d e) t)
    (own : ∀ d e, writes d e → e.id = d.id ∧ (e.claimedBy = some h → d.claimedBy = some h ∧ d.status = e.status)) :
    Sheds h s t := by
  refine of_evolves ?_ rows
  rintro d e (rfl | written)
  · exact ⟨rfl, fun hby => ⟨hby, rfl⟩⟩
  · exact own d e written

theorem of_eq (same : t.deliveries = s.deliveries) : Sheds h s t where
  distinct nodup := same ▸ nodup
  held e he hby := ⟨e, same ▸ he, rfl, hby, rfl⟩

theorem refl (s : Store) : Sheds h s s := of_eq rfl

theorem wrote {ε α : Type} {x : Except ε (α × Store)} (ok : ∀ a t, x = .ok (a, t) → Sheds h s t) :
    Sheds h s (s.wrote x) := by
  cases x with
  | ok r => exact ok r.1 r.2 rfl
  | error e => exact .refl s

theorem holds (sheds : Sheds h s t) (holds : t.Holds h id) : s.Holds h id := by
  obtain ⟨e, he, held⟩ := holds
  obtain ⟨hid, hby⟩ := isHeld_iff.mp held
  obtain ⟨d, hd, same, own, -⟩ := sheds.held e he hby
  exact ⟨d, hd, isHeld_iff.mpr ⟨same.trans hid, own⟩⟩

end Sheds

/-! ### Calls of others -/

theorem created_sheds {orders : List Order} {ids : Nat → Uuid} {now : Instant} {created : List Delivery}
    (foreign : (Call.createDeliveries orders ids now).Foreign h s)
    (call : s.createDeliveries orders ids now = .ok (created, t)) : Sheds h s t := by
  obtain ⟨-, rows, rfl, -⟩ := createDeliveries_ok call
  obtain ⟨fresh, apart⟩ := foreign
  constructor
  · intro distinct
    rw [rows, List.map_append, ids_numbered orders fun _ => rfl]
    refine List.nodup_append.mpr ⟨distinct, fresh, fun x hx y hy same => ?_⟩
    obtain ⟨d, hd, rfl⟩ := List.mem_map.mp hx
    exact apart d hd (same ▸ hy)
  · intro e he hby
    rw [rows] at he
    rcases List.mem_append.mp he with old | new
    · exact ⟨e, old, rfl, hby, rfl⟩
    · obtain ⟨x, -, rfl⟩ := List.mem_map.mp new
      cases hby

theorem foreign_sheds (call : Call) (foreign : call.Foreign h s) : Sheds h s (s.after call) := by
  cases call with
  | createWebhook r id now => exact .wrote fun _ _ ok => .of_eq (createWebhook_ok ok).1
  | updateWebhook id a now => exact .wrote fun _ _ ok => .of_eq (updateWebhook_ok ok).1
  | deleteWebhook id =>
    refine .wrote fun _ _ ok => .of_evolves ?_ (deleteWebhook_ok ok).2.1
    rintro d e rfl
    exact ⟨rfl, fun hby => ⟨hby, rfl⟩⟩
  | createDeliveries orders ids now => exact .wrote fun _ _ ok => created_sheds foreign ok
  | claimDue now limit claimer lease =>
    refine .wrote fun _ _ ok => ?_
    obtain ⟨-, till, -, rows, -, -⟩ := claimDue_ok ok
    refine .of_writes rows ?_
    rintro d e ⟨-, rfl, -⟩
    exact ⟨rfl, fun hby => absurd (Option.some.inj hby) foreign⟩
  | renewClaim id claimer till =>
    refine .wrote fun _ _ ok => .of_writes (renewClaim_ok ok).2.1 ?_
    rintro d e ⟨-, rfl⟩
    exact ⟨rfl, fun hby => absurd (Option.some.inj hby) foreign⟩
  | completeAttempt id claimer change =>
    refine .wrote fun _ _ ok => .of_writes (completeAttempt_ok ok).2.1 ?_
    rintro d e ⟨held, rfl⟩
    refine ⟨rfl, fun hby => ?_⟩
    have own := (isHeld_iff.mp (Bool.and_eq_true_iff.mp held).1).2
    obtain ⟨other, unsigned⟩ := foreign
    unfold Delivery.apply at hby
    cases hc : change.claimedBy with
    | none =>
      rw [hc] at hby
      exact absurd (Option.some.inj (own.symm.trans hby)) other
    | some by' =>
      rw [hc] at hby unsigned
      exact absurd (congrArg some hby) unsigned
  | releaseClaim id claimer =>
    refine .wrote fun _ _ ok => .of_writes (releaseClaim_ok ok).2.1 ?_
    rintro d e ⟨-, rfl⟩
    exact ⟨rfl, fun hby => by cases hby⟩
  | releaseExpired now =>
    refine .wrote fun _ _ ok => .of_evolves ?_ (releaseExpired_ok ok).2
    rintro d e rfl
    split
    · exact ⟨rfl, fun hby => by cases hby⟩
    · exact ⟨rfl, fun hby => ⟨hby, rfl⟩⟩
  | retryDelivery id now =>
    refine .wrote fun _ _ ok => .of_writes (retryDelivery_ok ok).2.1 ?_
    rintro d e ⟨-, -, rfl⟩
    exact ⟨rfl, fun hby => by cases hby⟩
  | cleanupOld cutoff =>
    refine .wrote fun _ _ ok => .of_evolves ?_ (cleanupOld_ok ok).2
    rintro d e rfl
    exact ⟨rfl, fun hby => ⟨hby, rfl⟩⟩
  | switch online => exact .of_eq rfl

/-! ### Calls of the holder -/

variable {c : Uuid}

section Conditional

variable {α : Type} {p : Delivery → Bool} {f : Delivery → Delivery} {g : Delivery → α} {r : α}

theorem conditional_total (online : s.online = true) :
    ∃ a t, s.whenOnline (match changeFirst p f s.deliveries with
      | some (d, deliveries) => .ok (g d, { s with deliveries })
      | none => .ok (r, s)) = Except.ok (a, t) := by
  rw [whenOnline_eq _ online]
  split
  · exact ⟨_, _, rfl⟩
  · exact ⟨_, _, rfl⟩

end Conditional

theorem renewClaim_total (s : Store) (online : s.online = true) (id c : Uuid) (till : Instant) :
    ∃ b t, s.renewClaim id c till = .ok (b, t) :=
  conditional_total (g := fun _ => true) online

theorem releaseClaim_total (s : Store) (online : s.online = true) (id c : Uuid) :
    ∃ b t, s.releaseClaim id c = .ok (b, t) :=
  conditional_total (g := fun _ => true) online

theorem completeAttempt_total (s : Store) (online : s.online = true) (id c : Uuid) (change : Change) :
    ∃ o t, s.completeAttempt id c change = .ok (o, t) :=
  conditional_total (g := some) online

theorem renewClaim_sheds {till : Instant} {b : Bool} (call : s.renewClaim id c till = .ok (b, t)) : Sheds c s t := by
  refine .of_writes (renewClaim_ok call).2.1 ?_
  rintro d e ⟨held, rfl⟩
  exact ⟨rfl, fun _ => ⟨(isHeld_iff.mp held).2, rfl⟩⟩

theorem releaseClaim_sheds {b : Bool} (call : s.releaseClaim id c = .ok (b, t)) : Sheds c s t := by
  refine .of_writes (releaseClaim_ok call).2.1 ?_
  rintro d e ⟨-, rfl⟩
  exact ⟨rfl, fun hby => by cases hby⟩

theorem completeAttempt_sheds {change : Change} {o : Option Delivery} (drops : change.claimedBy = some none)
    (call : s.completeAttempt id c change = .ok (o, t)) : Sheds c s t := by
  refine .of_writes (completeAttempt_ok call).2.1 ?_
  rintro d e ⟨-, rfl⟩
  refine ⟨rfl, fun hby => ?_⟩
  unfold Delivery.apply at hby
  rw [drops] at hby
  cases hby

theorem releaseClaim_unheld {b : Bool} (distinct : (s.deliveries.map (·.id)).Nodup)
    (call : s.releaseClaim id c = .ok (b, t)) : ¬ t.Holds c id := by
  have ends : EndsClaim .standard s t c id := .released call
  exact ends.unheld ((releaseClaim_sheds call).distinct distinct)

theorem completeAttempt_unheld {change : Change} {o : Option Delivery} (distinct : (s.deliveries.map (·.id)).Nodup)
    (pending : ∀ d ∈ s.deliveries, d.claimedBy = some c → d.status = .pending)
    (drops : change.claimedBy = some none) (call : s.completeAttempt id c change = .ok (o, t)) : ¬ t.Holds c id := by
  have distinct' := (completeAttempt_sheds drops call).distinct distinct
  obtain ⟨-, -, ⟨d, -, hp, -, written⟩ | ⟨unmet, -, rfl⟩⟩ := completeAttempt_ok call
  · refine not_holds_of_mem distinct' written (isHeld_iff.mp (Bool.and_eq_true_iff.mp hp).1).1 fun hby => ?_
    unfold Delivery.apply at hby
    rw [drops] at hby
    cases hby
  · rintro ⟨d, hd, held⟩
    have hp := unmet d hd
    rw [held, decide_eq_true (pending d hd (isHeld_iff.mp held).2)] at hp
    cases hp

theorem renewClaim_unheld {till : Instant} (call : s.renewClaim id c till = .ok (false, t)) : ¬ t.Holds c id := by
  obtain ⟨-, -, ⟨-, -, -, renewed, -⟩ | ⟨unmet, -, rfl⟩⟩ := renewClaim_ok call
  · cases renewed
  · exact not_holds_iff.mpr unmet

end Store

end Courier
