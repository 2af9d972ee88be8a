import Courier.Proofs.References
import Courier.Proofs.ScanEnd
set_option autoImplicit false

namespace Courier

namespace Store

def Call.Routine : Call → Prop
  | .createDeliveries orders _ _ => ∀ o ∈ orders, o.status = .pending
  | .completeAttempt _ _ change => ∃ policy before, change.WritesBack policy before
  | .switch online => online = true
  | _ => True

/-- The store can be reached, and its deliveries are of the three statuses. -/
structure Orderly (s : Store) : Prop where
  online : s.online = true
  listed : ∀ d ∈ s.deliveries, d.status ∈ Status.listed

end Store

theorem Change.WritesBack.status {p : RetryPolicy} {before : Word32} {c : Change} (h : c.WritesBack p before) :
    ∃ status ∈ Status.listed, c.status = some status := by
  cases h with
  | attempt call =>
    obtain ⟨n, -, ⟨-, rfl⟩ | ⟨-, -, due, rfl⟩ | ⟨-, rfl⟩⟩ := afterAttempt_ok call
    · exact ⟨_, Status.delivered_listed, rfl⟩
    · exact ⟨_, Status.pending_listed, rfl⟩
    · exact ⟨_, Status.dead_listed, rfl⟩
  | noAttempt => exact ⟨_, Status.dead_listed, rfl⟩

namespace Store

variable {s t u : Store} {call : Call} {calls : List Call}

/-! ### What routine calls keep -/

section Listed

variable {ε α : Type}

def KeepsListed (s t : Store) : Prop :=
  (∀ d ∈ s.deliveries, d.status ∈ Status.listed) → ∀ e ∈ t.deliveries, e.status ∈ Status.listed

theorem KeepsListed.wrote {x : Except ε (α × Store)} (ok : ∀ a t, x = .ok (a, t) → KeepsListed s t) :
    KeepsListed s (s.wrote x) := by
  cases x with
  | ok r => exact ok r.1 r.2 rfl
  | error e => exact id

theorem KeepsListed.of_eq (same : t.deliveries = s.deliveries) : KeepsListed s t := fun listed => same ▸ listed

theorem KeepsListed.of_evolves {keep : Delivery → Delivery → Prop} {gone : Delivery → Prop}
    (rows : Evolves keep gone (fun _ => False) s.deliveries t.deliveries)
    (kept : ∀ d e, keep d e → d.status ∈ Status.listed → e.status ∈ Status.listed) : KeepsListed s t := by
  intro listed e he
  obtain ⟨d, hd, hk⟩ | added := rows.origin he
  · exact kept d e hk (listed d hd)
  · exact added.elim

theorem KeepsListed.of_writes {writes : Delivery → Delivery → Prop}
    (rows : s.Rewrites (fun d e => e = d ∨ writes d e) t)
    (written : ∀ d e, writes d e → d.status ∈ Status.listed → e.status ∈ Status.listed) : KeepsListed s t := by
  refine .of_evolves rows ?_
  rintro d e (rfl | wrote)
  · exact id
  · exact written d e wrote

end Listed

theorem keepsListed_after (s : Store) (routine : call.Routine) : KeepsListed s (s.after call) := by
  cases call with
  | createWebhook => exact .wrote fun _ _ ok => .of_eq (createWebhook_ok ok).1
  | updateWebhook => exact .wrote fun _ _ ok => .of_eq (updateWebhook_ok ok).1
  | deleteWebhook =>
    refine .wrote fun _ _ ok => .of_evolves (deleteWebhook_ok ok).2.1 ?_
    rintro d e rfl
    exact id
  | createDeliveries orders ids now =>
    refine .wrote fun _ _ ok listed d hd => ?_
    obtain ⟨-, rows, batch, -⟩ := createDeliveries_ok ok
    rw [rows, batch] at hd
    rcases List.mem_append.mp hd with old | new
    · exact listed d old
    · obtain ⟨x, hx, rfl⟩ := List.mem_map.mp new
      have pending := routine x.1 (List.mem_of_getElem? (List.mem_zipIdx_iff_getElem?.mp hx))
      change x.1.status ∈ Status.listed
      exact pending ▸ Status.pending_listed
  | claimDue =>
    refine .wrote fun _ _ ok => ?_
    obtain ⟨-, till, -, rows, -⟩ := claimDue_ok ok
    refine .of_writes rows ?_
    rintro d e ⟨-, rfl, -⟩
    exact id
  | renewClaim =>
    refine .wrote fun _ _ ok => .of_writes (renewClaim_ok ok).2.1 ?_
    rintro d e ⟨-, rfl⟩
    exact id
  | completeAttempt =>
    obtain ⟨_, _, written⟩ := routine
    obtain ⟨status, listed, set⟩ := written.status
    refine .wrote fun _ _ ok => .of_writes (completeAttempt_ok ok).2.1 ?_
    rintro d e ⟨-, rfl⟩ -
    unfold Delivery.apply
    rwa [set]
  | releaseClaim =>
    refine .wrote fun _ _ ok => .of_writes (releaseClaim_ok ok).2.1 ?_
    rintro d e ⟨-, rfl⟩
    exact id
  | releaseExpired =>
    refine .wrote fun _ _ ok => .of_evolves (releaseExpired_ok ok).2 ?_
    rintro d e rfl
    split
    · exact id
    · exact id
  | retryDelivery =>
    refine .wrote fun _ _ ok => .of_writes (retryDelivery_ok ok).2.1 ?_
    rintro d e ⟨-, -, rfl⟩ -
    exact Status.pending_listed
  | cleanupOld =>
    refine .wrote fun _ _ ok => .of_evolves (cleanupOld_ok ok).2 ?_
    rintro d e rfl
    exact id
  | switch => exact .of_eq rfl

theorem Orderly.after (orderly : s.Orderly) (routine : call.Routine) : (s.after call).Orderly where
  online := by
    by_cases switched : ∃ online, call = .switch online
    · obtain ⟨online, rfl⟩ := switched
      exact routine
    · rw [after_online fun online same => switched ⟨online, same⟩]
      exact orderly.online
  listed := keepsListed_after s routine orderly.listed

theorem orderly_ofCalls (routine : ∀ call ∈ calls, call.Routine) : (ofCalls calls).Orderly := by
  induction calls using List.reverseRecOn with
  | nil => exact ⟨rfl, fun d hd => nomatch hd⟩
  | append_singleton calls call ih =>
    have before := ih fun c hc => routine c (List.mem_append_left _ hc)
    rw [ofCalls_append]
    exact before.after (routine call (List.mem_append_right _ List.mem_cons_self))

/-! ### Who makes routine calls -/

def MayBecome (s t : Store) : Prop := ∃ calls : List Call, (∀ call ∈ calls, call.Routine) ∧ calls.foldl after s = t

namespace MayBecome

theorem refl (s : Store) : s.MayBecome s := ⟨[], fun _ hc => (by cases hc), rfl⟩

theorem of_call (s : Store) (call : Call) (routine : call.Routine) : s.MayBecome (s.after call) :=
  ⟨[call], fun _ hc => List.mem_singleton.mp hc ▸ routine, rfl⟩

theorem of_ok {ε α : Type} {x : Except ε (α × Store)} {a : α} (ok : x = .ok (a, t)) (call : Call)
    (routine : call.Routine) (made : s.after call = s.wrote x) : s.MayBecome t := by
  have becomes := of_call s call routine
  rwa [made, ok] at becomes

theorem trans (first : s.MayBecome t) (next : t.MayBecome u) : s.MayBecome u := by
  obtain ⟨calls, routine, rfl⟩ := first
  obtain ⟨more, routine', rfl⟩ := next
  refine ⟨calls ++ more, fun c hc => ?_, List.foldl_append⟩
  exact (List.mem_append.mp hc).elim (routine c) (routine' c)

end MayBecome

end Store

theorem Dispatch.write_becomes {s t : Store} {e : Event} {dueAt : Instant} {found : List Webhook} {ids : Nat → Uuid}
    {now : Instant} {created : List Delivery} (ok : write s e dueAt found ids now = .ok (created, t)) :
    s.MayBecome t := by
  unfold write at ok
  split at ok
  · cases ok
    exact .refl s
  · split at ok
    · cases ok
    · next os made =>
      have pending : ∀ o ∈ os, o.status = .pending := by
        intro o ho
        rw [orders_ok made] at ho
        obtain ⟨w, -, rfl⟩ := List.mem_map.mp ho
        rfl
      cases call : s.createDeliveries os ids now with
      | error x =>
        rw [call] at ok
        cases ok
      | ok r =>
        rw [call] at ok
        cases ok
        exact .of_ok call (.createDeliveries os ids now) pending rfl

/-- The first call of a worker renews or releases a claim. -/
theorem Worker.start_becomes {sch : Scheduler} {d : Delivery} {stopping : Bool} {now : Instant} {stage : Stage}
    {s t : Store} (ok : start sch d stopping now s = .ok (stage, t)) : s.MayBecome t := by
  cases start_ok ok with
  | handedBack call => exact .of_ok call (.releaseClaim d.id sch.id) trivial rfl
  | renewed _ call | lost call => exact .of_ok call (.renewClaim d.id sch.id _) trivial rfl
  | failed => exact .refl s

theorem Worker.report_becomes {p : RetryPolicy} {before : Word32} {c : Change} (written : c.WritesBack p before)
    (sch : Scheduler) (d : Delivery) (s : Store) : s.MayBecome (report sch d c s).2 := by
  rcases (report_over sch d c s).2 with same | ⟨o, call⟩
  · rw [same]
    exact .refl s
  · exact .of_ok call (.completeAttempt d.id sch.id c) ⟨p, before, written⟩ rfl

namespace Fleet

variable {crew : Crew} {f : Fleet}

theorem store_wrote {ε α : Type} (f : Fleet) (x : Except ε (α × Store)) : (f.wrote x).store = f.store.wrote x := by
  cases x <;> rfl

/-- An action that does not take the store offline makes routine calls only. -/
theorem step_becomes {m : Int} (keeps : Keeps crew m f) {a : Act} (on : a ≠ .switch false) :
    f.store.MayBecome (f.step crew a).store := by
  have called (call : Store.Call) (routine : call.Routine) {ε α : Type} {x : Except ε (α × Store)}
      (made : f.store.after call = f.store.wrote x) : f.store.MayBecome (f.wrote x).store := by
    rw [store_wrote, ← made]
    exact .of_call _ call routine
  cases a with
  | createWebhook r id now => exact called (.createWebhook r id now) trivial rfl
  | updateWebhook id m now => exact called (.updateWebhook id m now) trivial rfl
  | setActive id active now => exact called (.updateWebhook id { active := some active } now) trivial rfl
  | deleteWebhook id => exact called (.deleteWebhook id) trivial rfl
  | retry id now => exact called (.retryDelivery id now) trivial rfl
  | cleanup cutoff => exact called (.cleanupOld cutoff) trivial rfl
  | sweep now => exact called (.releaseExpired now) trivial rfl
  | claimByHand now limit claimer lease => exact called (.claimDue now limit claimer lease) trivial rfl
  | renewByHand id claimer till => exact called (.renewClaim id claimer till) trivial rfl
  | releaseByHand id claimer => exact called (.releaseClaim id claimer) trivial rfl
  | switch online =>
    have back : online = true := by simpa using on
    exact .of_call f.store (.switch online) back
  | dispatch e dueAt found ids now =>
    rcases wrote_cases (f := f) (Dispatch.write f.store e dueAt found ids now) with same | ⟨created, call⟩
    · rw [step, same]
      exact .refl _
    · exact Dispatch.write_becomes call
  | scan h now =>
    rw [step]
    split
    · split
      · next call =>
        exact .of_ok call (.claimDue now _ h _) trivial rfl
      · exact .refl _
    · exact .refl _
  | start h id stopping now =>
    rw [step]
    split
    · split
      · next call =>
        rw [store_moved]
        exact Worker.start_becomes call
      · exact .refl _
    · exact .refl _
  | look h id =>
    rw [step]
    split
    · rw [store_moved]
      exact .refl _
    · exact .refl _
  | answer h id outcome now =>
    rw [step]
    split
    · split
      · rw [store_moved]
        exact .refl _
      · exact .refl _
    · exact .refl _
  | report h id =>
    rw [step]
    split
    · next d c turn =>
      rw [store_moved]
      exact Worker.report_becomes (keeps.writes h _ (mem_of_active turn) c rfl) _ d f.store
    · exact .refl _
  | abandon h => exact .refl _

/-- Whatever a fleet does while nobody takes its store offline, its store is made by routine calls. -/
theorem after_ofCalls (crew : Crew) {acts : List Act} (on : ∀ a ∈ acts, a ≠ .switch false) :
    ∃ calls : List Store.Call, (∀ call ∈ calls, call.Routine) ∧ (after crew acts).store = .ofCalls calls := by
  have becomes : Store.empty.MayBecome (after crew acts).store := by
    induction acts using List.reverseRecOn with
    | nil => exact .refl _
    | append_singleton acts a ih =>
      rw [after_concat]
      have last := step_becomes (keeps_after crew.allows_max acts) (on a (List.mem_append_right _ List.mem_cons_self))
      exact (ih fun b hb => on b (List.mem_append_left _ hb)).trans last
  obtain ⟨calls, routine, made⟩ := becomes
  exact ⟨calls, routine, made.symm⟩

end Fleet

end Courier
