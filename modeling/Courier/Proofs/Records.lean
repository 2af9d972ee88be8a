import Courier.Proofs.FleetSteps
set_option autoImplicit false

namespace Courier

/-- The columns of a delivery agree with its status; `m` is the number of attempts allowed. -/
structure Delivery.Sound (m : Int) (d : Delivery) : Prop where
  listed : d.status ∈ Status.listed
  pending : d.status = .pending →
    0 ≤ d.attempts.val ∧ d.attempts.val < m ∧ d.nextRetryAt.isSome ∧ d.deliveredAt = none
  delivered : d.status = .delivered →
    1 ≤ d.attempts.val ∧ d.attempts.val ≤ m ∧ d.nextRetryAt = none ∧ d.deliveredAt.isSome ∧
      d.deliveredAt = d.lastAttemptAt
  dead : d.status = .dead →
    0 ≤ d.attempts.val ∧ d.attempts.val ≤ m ∧ d.nextRetryAt = none ∧ d.deliveredAt = none
  claim : d.claimedBy.isSome ↔ d.claimedUntil.isSome
  claimed : d.claimedBy.isSome → d.status = .pending
  attempted : d.lastAttemptAt.isSome ↔ 1 ≤ d.attempts.val
  untried : d.attempts.val = 0 →
    d.responseCode = none ∧ d.responseBody = none ∧ (d.status = .pending → d.errorMessage = none)

/-! ### Changes that workers write -/

namespace Change

def recorded (n : Word32) (o : Outcome) (now : Instant) (status : Status) (next : Option Instant)
    (deliveredAt : Option (Option Instant)) : Change :=
  { release with
    status := some status
    attempts := some n
    nextRetryAt := some next
    lastAttemptAt := some (some now)
    responseCode := some o.responseCode
    responseBody := some o.responseBody
    errorMessage := some o.errorMessage
    deliveredAt }

theorem afterAttempt_ok {before : Word32} {o : Outcome} {p : RetryPolicy} {now : Instant} {c : Change}
    (h : afterAttempt before o p now = .ok c) : ∃ n : Word32, n.val = before.val + 1 ∧
      (o.verdict = .success ∧ c = recorded n o now .delivered none (some (some now)) ∨
        o.verdict = .retryable ∧ n.val < p.maxAttempts.val ∧
          (∃ due, c = recorded n o now .pending (some due) none) ∨
        (o.verdict = .permanent ∨ o.verdict = .retryable ∧ p.maxAttempts.val ≤ n.val) ∧
          c = recorded n o now .dead none none) := by
  unfold afterAttempt at h
  split at h
  · cases h
  · rename_i n hn
    refine ⟨n, Bounded.val_of_ofInt? hn, ?_⟩
    dsimp only at h
    split at h
    · rename_i hv
      cases h
      exact .inl ⟨hv, rfl⟩
    · rename_i hv
      cases h
      exact .inr (.inr ⟨.inl hv, rfl⟩)
    · rename_i hv
      split at h
      · rename_i hallows
        have hlt : n.val < p.maxAttempts.val := of_decide_eq_true hallows
        split at h
        · cases h
        · rename_i due hdue
          cases h
          exact .inr (.inl ⟨hv, hlt, due, rfl⟩)
      · rename_i hallows
        have hle : p.maxAttempts.val ≤ n.val := by
          have hnot : ¬ n.val < p.maxAttempts.val := fun hlt => hallows (decide_eq_true hlt)
          omega
        cases h
        exact .inr (.inr ⟨.inr ⟨hv, hle⟩, rfl⟩)

/-- The changes that a worker may write for a delivery which it claimed after this many attempts. -/
inductive WritesBack (p : RetryPolicy) (before : Word32) : Change → Prop
  | attempt {o : Outcome} {now : Instant} {c : Change} (call : afterAttempt before o p now = .ok c) :
    WritesBack p before c
  | noAttempt (reason : String) : WritesBack p before (deadWithoutAttempt reason)

theorem WritesBack.drops_claim {p : RetryPolicy} {before : Word32} {c : Change} (h : WritesBack p before c) :
    c.claimedBy = some none ∧ c.claimedUntil = some none := by
  cases h with
  | attempt call =>
    obtain ⟨n, -, ⟨-, rfl⟩ | ⟨-, -, due, rfl⟩ | ⟨-, rfl⟩⟩ := afterAttempt_ok call
    all_goals exact ⟨rfl, rfl⟩
  | noAttempt => exact ⟨rfl, rfl⟩

end Change

namespace Worker

theorem look_sending {sch : Scheduler} {d : Delivery} {found : Except Store.Error (Option Webhook)} {w : Webhook}
    (looked : look sch d found = .sending w) :
    found = .ok (some w) ∧ w.active = true ∧ d.attempts.val < sch.config.policy.maxAttempts.val := by
  unfold look at looked
  split at looked
  · unfold judge at looked
    split at looked
    · cases looked
    · rename_i v
      split at looked
      · cases looked
      · rename_i active
        split at looked
        · cases looked
        · rename_i below
          cases looked
          exact ⟨rfl, Bool.not_eq_false _ |>.mp active, Int.not_le.mp below⟩
  · cases looked

theorem look_reporting {sch : Scheduler} {d : Delivery} {found : Except Store.Error (Option Webhook)} {c : Change}
    (h : look sch d found = .reporting c) : ∃ w, found = .ok w ∧ judge sch d w = .reporting c := by
  unfold look at h
  split at h
  · exact ⟨_, rfl, h⟩
  · cases h

theorem judge_reporting {sch : Scheduler} {d : Delivery} {found : Option Webhook} {c : Change}
    (h : judge sch d found = .reporting c) :
    found = none ∧ c = .deadWithoutAttempt "webhook no longer exists" ∨
      (∃ w, found = some w ∧ w.active = false ∧ c = .deadWithoutAttempt "webhook is inactive") ∨
      sch.config.policy.maxAttempts.val ≤ d.attempts.val ∧ c = .deadWithoutAttempt "attempt limit reached" := by
  unfold judge at h
  split at h
  · cases h
    exact .inl ⟨rfl, rfl⟩
  · rename_i w
    split at h
    · rename_i hinactive
      cases h
      exact .inr (.inl ⟨w, rfl, hinactive, rfl⟩)
    · split at h
      · rename_i hlimit
        cases h
        exact .inr (.inr ⟨hlimit, rfl⟩)
      · cases h

theorem answer_ok {sch : Scheduler} {d : Delivery} {o : Outcome} {now : Instant} {stage : Stage}
    (h : answer sch d o now = .ok stage) :
    ∃ c, Change.afterAttempt d.attempts o sch.config.policy now = .ok c ∧ stage = .reporting c := by
  unfold answer at h
  cases hc : Change.afterAttempt d.attempts o sch.config.policy now with
  | error e =>
    rw [hc] at h
    cases h
  | ok c =>
    rw [hc] at h
    cases h
    exact ⟨c, rfl, rfl⟩

end Worker

/-! ### Each change keeps deliveries sound -/

theorem Status.pending_listed : .pending ∈ Status.listed := by decide

theorem Status.delivered_listed : .delivered ∈ Status.listed := by decide

theorem Status.dead_listed : .dead ∈ Status.listed := by decide

namespace Delivery.Sound

variable {m : Int} {d : Delivery}

/-- A pending delivery with no attempts behind it. -/
theorem untouched (hm : 1 ≤ m) (hpending : d.status = .pending) (hattempts : d.attempts.val = 0)
    (due : d.nextRetryAt.isSome) (unclaimed : d.claimedBy = none ∧ d.claimedUntil = none)
    (undated : d.lastAttemptAt = none ∧ d.deliveredAt = none)
    (silent : d.responseCode = none ∧ d.responseBody = none ∧ d.errorMessage = none) : d.Sound m where
  listed := hpending ▸ Status.pending_listed
  pending _ := ⟨by omega, by omega, due, undated.2⟩
  delivered h := by cases hpending.symm.trans h
  dead h := by cases hpending.symm.trans h
  claim := by
    rw [unclaimed.1, unclaimed.2]
    exact .rfl
  claimed _ := hpending
  attempted := by
    rw [undated.1]
    refine ⟨fun h => (by cases h), fun h => ?_⟩
    omega
  untried _ := ⟨silent.1, silent.2.1, fun _ => silent.2.2⟩

theorem ordered (e : Event) (dueAt : Instant) (w : Webhook) (id : Uuid) (now : Instant) (hm : 1 ≤ m) :
    ((Dispatch.orderFor e dueAt w).toDelivery id now).Sound m :=
  untouched hm rfl rfl rfl ⟨rfl, rfl⟩ ⟨rfl, rfl⟩ ⟨rfl, rfl, rfl⟩

theorem retry_applied (now : Instant) (hm : 1 ≤ m) : (d.apply (.manualRetry now)).Sound m :=
  untouched hm rfl rfl rfl ⟨rfl, rfl⟩ ⟨rfl, rfl⟩ ⟨rfl, rfl, rfl⟩

theorem claim_applied (sound : d.Sound m) (hpending : d.status = .pending) (h : Uuid) (till : Instant) :
    (d.apply (.claim h till)).Sound m :=
  { sound with claim := ⟨fun _ => rfl, fun _ => rfl⟩, claimed := fun _ => hpending }

theorem release_applied (sound : d.Sound m) : (d.apply .release).Sound m :=
  { sound with claim := .rfl, claimed := fun h => by cases h }

theorem noAttempt_applied (sound : d.Sound m) (hpending : d.status = .pending) (reason : String) :
    (d.apply (.deadWithoutAttempt reason)).Sound m where
  listed := Status.dead_listed
  pending h := by cases h
  delivered h := by cases h
  dead _ := by
    obtain ⟨h0, hlt, -, hdel⟩ := sound.pending hpending
    exact ⟨h0, Int.le_of_lt hlt, rfl, hdel⟩
  claim := .rfl
  claimed h := by cases h
  attempted := sound.attempted
  untried h := by
    obtain ⟨hcode, hbody, -⟩ := sound.untried h
    exact ⟨hcode, hbody, fun hpending => by cases hpending⟩

theorem recorded_applied {n : Word32} {o : Outcome} {now : Instant} {status : Status} {next : Option Instant}
    {deliveredAt : Option (Option Instant)} (hn : 1 ≤ n.val) (listed : status ∈ Status.listed)
    (pending : status = .pending → n.val < m ∧ next.isSome ∧ deliveredAt.getD d.deliveredAt = none)
    (delivered : status = .delivered → n.val ≤ m ∧ next = none ∧ deliveredAt = some (some now))
    (dead : status = .dead → n.val ≤ m ∧ next = none ∧ deliveredAt.getD d.deliveredAt = none) :
    (d.apply (.recorded n o now status next deliveredAt)).Sound m where
  listed := listed
  pending h := by
    obtain ⟨hlt, hnext, hdel⟩ := pending h
    exact ⟨Int.le_trans (by decide) hn, hlt, hnext, hdel⟩
  delivered h := by
    obtain ⟨hle, hnext, rfl⟩ := delivered h
    exact ⟨hn, hle, hnext, rfl, rfl⟩
  dead h := by
    obtain ⟨hle, hnext, hdel⟩ := dead h
    exact ⟨Int.le_trans (by decide) hn, hle, hnext, hdel⟩
  claim := .rfl
  claimed h := by cases h
  attempted := ⟨fun _ => hn, fun _ => rfl⟩
  untried h := by
    change n.val = 0 at h
    omega

/-- An attempt keeps a pending delivery sound, from whatever earlier number of attempts it counts on. -/
theorem attempt_applied (sound : d.Sound m) (hpending : d.status = .pending) {before : Word32} {o : Outcome}
    {p : RetryPolicy} {now : Instant} {c : Change} (call : Change.afterAttempt before o p now = .ok c)
    (hlimit : p.maxAttempts.val ≤ m) (h0 : 0 ≤ before.val) (hlt : before.val < m) : (d.apply c).Sound m := by
  obtain ⟨n, hn, cases⟩ := Change.afterAttempt_ok call
  have hdel := (sound.pending hpending).2.2.2
  have hone : 1 ≤ n.val := by omega
  have hle : n.val ≤ m := by omega
  obtain ⟨-, rfl⟩ | ⟨-, hretry, due, rfl⟩ | ⟨-, rfl⟩ := cases
  · refine recorded_applied hone Status.delivered_listed ?_ (fun _ => ⟨hle, rfl, rfl⟩) ?_
    all_goals
      intro h
      cases h
  · refine recorded_applied hone Status.pending_listed (fun _ => ⟨Int.lt_of_lt_of_le hretry hlimit, rfl, hdel⟩) ?_ ?_
    all_goals
      intro h
      cases h
  · refine recorded_applied hone Status.dead_listed ?_ ?_ (fun _ => ⟨hle, rfl, hdel⟩)
    all_goals
      intro h
      cases h

end Delivery.Sound

/-! ### Runs -/

namespace Fleet

variable {crew : Crew} {m : Int} {f : Fleet}

/-- Deliveries are sound, those that workers hold copies of too; a worker sends only while its scheduler allows one
attempt more, and writes nothing else than what follows from its copy. -/
structure Keeps (crew : Crew) (m : Int) (f : Fleet) : Prop where
  allows : crew.Allows m
  rows : ∀ d ∈ f.store.deliveries, d.Sound m
  copies : ∀ h, ∀ k ∈ f.workers h, k.delivery.Sound m ∧ k.delivery.status = .pending
  sends : ∀ h, ∀ k ∈ f.workers h, ∀ w, k.stage = .sending w → k.delivery.attempts.val < crew.limit h
  writes : ∀ h, ∀ k ∈ f.workers h, ∀ c, k.stage = .reporting c → c.WritesBack (crew.policy h) k.delivery.attempts

theorem keeps_initial (allows : crew.Allows m) : Keeps crew m initial where
  allows := allows
  rows d hd := by cases hd
  copies h k hk := by cases hk
  sends h k hk := by cases hk
  writes h k hk := by cases hk

theorem Keeps.touched (keeps : Keeps crew m f) {a : Act} {d e : Delivery} (sound : d.Sound m)
    (touched : Touched crew f a d e) : e.Sound m := by
  have claimed : ∀ {h : Uuid}, d.claimedBy = some h → d.status = .pending := fun held =>
    sound.claimed (by rw [held]; rfl)
  cases touched with
  | same => exact sound
  | claimedByHand due => exact sound.claim_applied (Delivery.isClaimable_iff.mp due).1 _ _
  | claimed _ _ due => exact sound.claim_applied (Delivery.isClaimable_iff.mp due).1 _ _
  | renewedByHand held => exact sound.claim_applied (claimed held) _ _
  | renewed _ _ held => exact sound.claim_applied (claimed held) _ _
  | releasedByHand | handedBack | expired => exact sound.release_applied
  | retried => exact .retry_applied _ keeps.allows.one_le
  | recorded turn _ pending =>
    have hk := mem_of_active turn
    obtain ⟨copy, hstatus⟩ := keeps.copies _ _ hk
    obtain ⟨h0, hlt, -⟩ := copy.pending hstatus
    cases keeps.writes _ _ hk _ rfl with
    | attempt call => exact sound.attempt_applied pending call (keeps.allows.limit_le _) h0 hlt
    | noAttempt reason => exact sound.noAttempt_applied pending reason

inductive Grounds (crew : Crew) (f : Fleet) (h : Uuid) (x : Delivery) : Act → Change → Prop
  | answered {o : Outcome} {now : Instant} {w : Webhook} {c : Change}
    (turn : f.active? h x.id = some ⟨x, .sending w⟩)
    (call : Change.afterAttempt x.attempts o (crew.policy h) now = .ok c) : Grounds crew f h x (.answer h x.id o now) c
  | gone (turn : f.active? h x.id = some ⟨x, .renewed⟩) (found : f.store.getWebhook x.webhookId = .ok none) :
    Grounds crew f h x (.look h x.id) (.deadWithoutAttempt "webhook no longer exists")
  | inactive {w : Webhook} (turn : f.active? h x.id = some ⟨x, .renewed⟩)
    (found : f.store.getWebhook x.webhookId = .ok (some w)) (inactive : w.active = false) :
    Grounds crew f h x (.look h x.id) (.deadWithoutAttempt "webhook is inactive")
  | exhausted (turn : f.active? h x.id = some ⟨x, .renewed⟩) (limit : crew.limit h ≤ x.attempts.val) :
    Grounds crew f h x (.look h x.id) (.deadWithoutAttempt "attempt limit reached")

theorem Advanced.grounds {h : Uuid} {a : Act} {k j : Worker} (move : Advanced crew f h a k j) {c : Change}
    (hc : j.stage = .reporting c) : Grounds crew f h j.delivery a c := by
  cases move with
  | renewed => cases hc
  | looked turn =>
    obtain ⟨w, found, hjudge⟩ := Worker.look_reporting hc
    obtain ⟨rfl, rfl⟩ | ⟨w, rfl, inactive, rfl⟩ | ⟨limit, rfl⟩ := Worker.judge_reporting hjudge
    · exact .gone turn found
    · exact .inactive turn found inactive
    · exact .exhausted turn limit
  | answered turn call =>
    obtain ⟨c', hattempt, rfl⟩ := Worker.answer_ok call
    cases hc
    exact .answered turn hattempt

theorem Grounds.turn {h : Uuid} {x : Delivery} {a : Act} {c : Change} (grounds : Grounds crew f h x a c) :
    ∃ stage, f.active? h x.id = some ⟨x, stage⟩ := by
  cases grounds with
  | answered turn | gone turn | inactive turn | exhausted turn => exact ⟨_, turn⟩

theorem Grounds.writes {h : Uuid} {x : Delivery} {a : Act} {c : Change} (grounds : Grounds crew f h x a c) :
    c.WritesBack (crew.policy h) x.attempts := by
  cases grounds with
  | answered _ call => exact .attempt call
  | gone | inactive | exhausted => exact .noAttempt _

theorem Keeps.step (keeps : Keeps crew m f) (a : Act) : Keeps crew m (f.step crew a) where
  allows := keeps.allows
  rows e he := by
    obtain ⟨d, hd, touched⟩ | ⟨ev, dueAt, found, ids, now, -, -, x, -, rfl⟩ := (step_rows crew f a).origin he
    · exact keeps.touched (keeps.rows d hd) touched
    · exact .ordered ev dueAt x.1 _ now keeps.allows.one_le
  copies h j hj := by
    obtain hold | ⟨k, hk, move⟩ | ⟨now, batch, -, -, call, hbatch, -⟩ := worker_origin hj
    · exact keeps.copies h j hold
    · rw [move.delivery_eq]
      exact keeps.copies h k hk
    · obtain ⟨-, till, -, -, hmem, -⟩ := Store.claimDue_ok call
      obtain ⟨-, d, hd, due, hx⟩ := hmem _ hbatch
      have hpending := (Delivery.isClaimable_iff.mp due).1
      rw [hx]
      exact ⟨(keeps.rows d hd).claim_applied hpending _ _, hpending⟩
  sends h j hj w hw := by
    obtain hold | ⟨k, -, move⟩ | ⟨now, batch, -, -, -, -, hstage⟩ := worker_origin hj
    · exact keeps.sends h j hold w hw
    · cases move with
      | renewed => cases hw
      | looked => exact (Worker.look_sending hw).2.2
      | answered _ call =>
        obtain ⟨c, -, rfl⟩ := Worker.answer_ok call
        cases hw
    · cases hstage.symm.trans hw
  writes h j hj c hc := by
    obtain hold | ⟨k, -, move⟩ | ⟨now, batch, -, -, -, -, hstage⟩ := worker_origin hj
    · exact keeps.writes h j hold c hc
    · exact (move.grounds hc).writes
    · cases hstage.symm.trans hc

theorem keeps_after (allows : crew.Allows m) (acts : List Act) : Keeps crew m (after crew acts) := by
  induction acts using List.reverseRecOn with
  | nil => exact keeps_initial allows
  | append_singleton acts a ih =>
    rw [after_concat]
    exact ih.step a

/-- After every list of actions from the empty store on, with any arguments and any readings of clocks, every stored
delivery is sound for the number of attempts that the schedulers allow. -/
theorem deliveries_sound (allows : crew.Allows m) (acts : List Act) (d : Delivery)
    (hd : d ∈ (after crew acts).store.deliveries) : d.Sound m :=
  (keeps_after allows acts).rows d hd

theorem deliveries_sound_retrying :
    ∃ d ∈ (after Sample.crew (Sample.answered ++ [.report Sample.north Sample.parcel])).store.deliveries,
      d.attempts.val = 1 ∧ d.status = .pending ∧ d.Sound 5 := by
  have stored : ∃ d ∈ (after Sample.crew (Sample.answered ++ [.report Sample.north Sample.parcel])).store.deliveries,
      d.attempts.val = 1 ∧ d.status = .pending := by decide +kernel
  obtain ⟨d, hd, hattempts, hstatus⟩ := stored
  exact ⟨d, hd, hattempts, hstatus, deliveries_sound Sample.agrees.allows _ d hd⟩

end Fleet

end Courier
