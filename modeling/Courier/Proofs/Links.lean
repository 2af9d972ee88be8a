import Courier.Proofs.FleetSteps
set_option autoImplicit false

namespace Courier

def Act.aboutWebhooks : Act → Bool
  | .createWebhook _ _ _ | .updateWebhook _ _ _ | .setActive _ _ _ | .deleteWebhook _ => true
  | _ => false

namespace Fleet

variable {crew : Crew} {f : Fleet} {a : Act} {w : Webhook}

def Stays (a : Act) (w : Webhook) (s : Store) : Prop :=
  (∃ y ∈ s.webhooks, y.id = w.id) ∨ a = .deleteWebhook w.id ∧ ∀ d ∈ s.deliveries, d.webhookId ≠ w.id

theorem stays_wrote {ε α : Type} {x : Except ε (α × Store)} (hw : w ∈ f.store.webhooks)
    (hx : ∀ b t, x = .ok (b, t) → Stays a w t) : Stays a w (f.wrote x).store := by
  rcases wrote_cases (f := f) x with same | ⟨b, hb⟩
  · rw [same]
    exact .inl ⟨w, hw, rfl⟩
  · exact hx b _ hb

theorem start_frames {sch : Scheduler} {d : Delivery} {stopping : Bool} {now : Instant} {s t : Store}
    {stage : Worker.Stage} (call : Worker.start sch d stopping now s = .ok (stage, t)) : s.Frames t := by
  cases Worker.start_ok call with
  | handedBack call => exact (Store.releaseClaim_ok call).1
  | renewed _ call => exact (Store.renewClaim_ok call).1
  | lost call => exact (Store.renewClaim_ok call).1
  | failed => exact .rfl

theorem report_frames (sch : Scheduler) (d : Delivery) (c : Change) (s : Store) :
    s.Frames (Worker.report sch d c s).2 := by
  rcases (Worker.report_over sch d c s).2 with same | ⟨o, call⟩
  · rw [same]
    exact .rfl
  · exact (Store.completeAttempt_ok call).1

/-- All but calls about webhooks and the switch only touch deliveries. -/
theorem frames_step (crew : Crew) (f : Fleet) (a : Act) (other : a.aboutWebhooks = false)
    (unswitched : ∀ online, a ≠ .switch online) : f.store.Frames (f.step crew a).store := by
  have written : ∀ {ε α : Type} {x : Except ε (α × Store)}, (∀ b t, x = .ok (b, t) → f.store.Frames t) →
      f.store.Frames (f.wrote x).store := by
    intro ε α x hx
    rcases wrote_cases (f := f) x with same | ⟨b, hb⟩
    · rw [same]
      exact .rfl
    · exact hx b _ hb
  cases a with
  | createWebhook | updateWebhook | setActive | deleteWebhook => cases other
  | switch online => exact absurd rfl (unswitched online)
  | dispatch => exact written fun _ _ hx => (Dispatch.write_ok hx).1
  | retry => exact written fun _ _ hx => (Store.retryDelivery_ok hx).1
  | cleanup => exact written fun _ _ hx => (Store.cleanupOld_ok hx).1
  | sweep => exact written fun _ _ hx => (Store.releaseExpired_ok hx).1
  | claimByHand => exact written fun _ _ hx => (Store.claimDue_ok hx).1
  | renewByHand => exact written fun _ _ hx => (Store.renewClaim_ok hx).1
  | releaseByHand => exact written fun _ _ hx => (Store.releaseClaim_ok hx).1
  | scan h now =>
    rw [step]
    split
    · split
      · rename_i batch t call
        exact (Store.claimDue_ok call).1
      · exact .rfl
    · exact .rfl
  | start h id stopping now =>
    rw [step]
    split
    · split
      · rename_i stage t call
        rw [store_moved]
        exact start_frames call
      · exact .rfl
    · exact .rfl
  | look h id =>
    rw [step]
    split
    · rw [store_moved]
      exact .rfl
    · exact .rfl
  | answer h id outcome now =>
    rw [step]
    split
    · split
      · rw [store_moved]
        exact .rfl
      · exact .rfl
    · exact .rfl
  | report h id =>
    rw [step]
    split
    · rename_i d c turn
      dsimp only
      rw [store_moved]
      exact report_frames _ d c _
    · exact .rfl
  | abandon => exact .rfl

/-- Only calls about webhooks change webhooks. -/
theorem webhooks_step (crew : Crew) (f : Fleet) (a : Act) (other : a.aboutWebhooks = false) :
    (f.step crew a).store.webhooks = f.store.webhooks := by
  by_cases switched : ∃ online, a = .switch online
  · obtain ⟨online, rfl⟩ := switched
    rfl
  · exact (frames_step crew f a other fun online h => switched ⟨online, h⟩).webhooks

theorem step_webhook (crew : Crew) (a : Act) (hw : w ∈ f.store.webhooks) : Stays a w (f.step crew a).store := by
  cases other : a.aboutWebhooks with
  | false => exact .inl ⟨w, webhooks_step crew f a other ▸ hw, rfl⟩
  | true =>
    cases a with
    | createWebhook =>
      refine stays_wrote hw fun _ t hx => .inl ⟨w, ?_, rfl⟩
      rw [(Store.createWebhook_ok hx).2.2]
      exact List.mem_append_left _ hw
    | updateWebhook => exact stays_wrote hw fun _ t hx => .inl ((Store.updateWebhook_ok hx).2.2 w hw)
    | setActive => exact stays_wrote hw fun _ t hx => .inl ((Store.updateWebhook_ok hx).2.2 w hw)
    | deleteWebhook id =>
      refine stays_wrote hw fun _ t hx => ?_
      obtain ⟨-, -, others, ⟨-, cleared⟩ | ⟨-, -, absent⟩⟩ := Store.deleteWebhook_ok hx
      · by_cases hid : w.id = id
        · exact .inr ⟨congrArg Act.deleteWebhook hid.symm, fun d hd => hid ▸ cleared d hd⟩
        · exact .inl ⟨w, others w hw hid, rfl⟩
      · exact .inl ⟨w, others w hw (absent w hw), rfl⟩
    | _ => cases other

def Linked (f : Fleet) : Prop := ∀ d ∈ f.store.deliveries, ∃ w ∈ f.store.webhooks, w.id = d.webhookId

theorem Linked.step (linked : Linked f) (a : Act) : Linked (f.step crew a) := by
  intro e he
  have stored : ∃ w ∈ f.store.webhooks, w.id = e.webhookId := by
    obtain ⟨d, hd, touched⟩ | ⟨ev, dueAt, found, ids, now, -, hw, -⟩ := (step_rows crew f a).origin he
    · rw [touched.frame.1]
      exact linked d hd
    · exact hw
  obtain ⟨w, hw, hid⟩ := stored
  obtain ⟨y, hy, hyw⟩ | ⟨-, cleared⟩ := step_webhook crew a hw
  · exact ⟨y, hy, hyw.trans hid⟩
  · exact absurd hid.symm (cleared e he)

theorem linked_after (crew : Crew) (acts : List Act) : Linked (after crew acts) := by
  induction acts using List.reverseRecOn with
  | nil => intro d hd; cases hd
  | append_singleton acts a ih =>
    rw [after_concat]
    exact ih.step a

end Fleet

end Courier
