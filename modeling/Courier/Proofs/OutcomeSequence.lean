import Courier.Proofs.FanOut
import Courier.Proofs.Progress
set_option autoImplicit false

namespace Courier

/-- The number of the attempt that decides, of at most `m`. -/
def decisive (m : Nat) (o : Nat → Outcome) : Nat :=
  ((List.range' 1 m).find? fun i => (o i).verdict ≠ .retryable).getD m

theorem decisive_spec {m : Nat} (one_le : 1 ≤ m) (o : Nat → Outcome) :
    1 ≤ decisive m o ∧ decisive m o ≤ m ∧ (∀ i, 1 ≤ i → i < decisive m o → (o i).verdict = .retryable) ∧
      (decisive m o = m ∨ (o (decisive m o)).verdict ≠ .retryable) := by
  unfold decisive
  cases first : (List.range' 1 m).find? (fun i => (o i).verdict ≠ .retryable) with
  | none =>
    have all_retryable := List.find?_eq_none.mp first
    simp only [List.mem_range'_1, decide_eq_true_eq, not_not] at all_retryable
    exact ⟨one_le, Nat.le_refl m, fun i hi lt => all_retryable i ⟨hi, by simp at lt; omega⟩, .inl rfl⟩
  | some j =>
    obtain ⟨final, member, earlier⟩ := List.find?_range'_eq_some.mp first
    simp only [List.mem_range'_1, decide_eq_true_eq] at final member
    refine ⟨member.1, by simp; omega, fun i hi lt => ?_, .inr final⟩
    simpa using earlier i hi lt

namespace Delivery

/-- The delivery as a dispatch writes it or as a retry by hand leaves it, due at a time. -/
inductive Fresh (dueAt : Instant) : Delivery → Prop
  | dispatched {d : Delivery} {e : Event} {found : List Webhook} {ids : Nat → Uuid} {now : Instant}
    (written : d ∈ Dispatch.deliveriesTo e dueAt found ids now) : Fresh dueAt d
  | retried (d : Delivery) : Fresh dueAt (d.apply (.manualRetry dueAt))

theorem Fresh.untried {dueAt : Instant} {d : Delivery} (fresh : d.Fresh dueAt) : d.Untried dueAt := by
  cases fresh with
  | dispatched written => exact Dispatch.deliveriesTo_untried d written
  | retried => exact ⟨rfl, rfl, rfl, ⟨rfl, rfl⟩, ⟨rfl, rfl⟩, rfl, rfl, rfl⟩

structure Records (k : Nat) (o : Outcome) (done : Instant) (d : Delivery) : Prop where
  attempts : d.attempts.val = k
  unclaimed : d.claimedBy = none ∧ d.claimedUntil = none
  lastAttemptAt : d.lastAttemptAt = some done
  responseCode : d.responseCode = o.responseCode
  responseBody : d.responseBody = o.responseBody
  errorMessage : d.errorMessage = o.errorMessage

/-- What `d` has become after `k` attempts with these outcomes, finished at these times, if attempt `j` decides. -/
inductive Reached (p : RetryPolicy) (o : Nat → Outcome) (finish : Nat → Instant) (j : Nat) (d : Delivery) :
    Nat → Delivery → Prop
  | untried : Reached p o finish j d 0 d
  | waiting {k : Nat} {e : Delivery} (some_made : 1 ≤ k) (some_left : k < j) (records : e.Records k (o k) (finish k))
    (pending : e.status = .pending) {due : Instant} (delayed : p.dueAfter e.attempts (finish k) = some due)
    (next : e.nextRetryAt = some due) : Reached p o finish j d k e
  | ended {e : Delivery} (records : e.Records j (o j) (finish j))
    (status : e.status = if (o j).verdict = .success then .delivered else .dead) (next : e.nextRetryAt = none) :
    Reached p o finish j d j e

namespace Reached

variable {p : RetryPolicy} {o : Nat → Outcome} {finish : Nat → Instant} {j k : Nat} {d e : Delivery} {dueAt : Instant}

theorem le (reached : Reached p o finish j d k e) : k ≤ j := by
  cases reached with
  | untried => omega
  | waiting _ some_left => omega
  | ended => omega

theorem attempts (reached : Reached p o finish j d k e) (untried : d.Untried dueAt) : e.attempts.val = k := by
  cases reached with
  | untried => exact untried.attempts
  | waiting _ _ records => exact records.attempts
  | ended records => exact records.attempts

/-- Before the attempt that decides the delivery can be claimed as soon as it is due. -/
theorem claimable_iff (reached : Reached p o finish j d k e) (untried : d.Untried dueAt) (some_left : k < j) :
    ∃ due, e.nextRetryAt = some due ∧ ∀ t, e.isClaimable t = true ↔ due ≤ t := by
  cases reached with
  | untried => exact ⟨dueAt, untried.due, fun t => untried.claimable_iff⟩
  | @waiting _ _ _ _ records pending due _ next =>
    refine ⟨due, next, fun t => ?_⟩
    rw [Delivery.isClaimable_iff, next, records.unclaimed.2]
    simp [pending]
  | ended => omega

/-- After the attempt that decides it cannot be claimed any more. -/
theorem unclaimable (reached : Reached p o finish j d k e) (one_le : 1 ≤ j) (ended : k = j) (t : Instant) :
    e.isClaimable t = false := by
  have settled : e.status ≠ .pending := by
    cases reached with
    | untried => omega
    | waiting => omega
    | ended _ status =>
      rw [status]
      split <;> decide
  rw [Bool.eq_false_iff]
  exact fun claimable => settled (Delivery.isClaimable_iff.mp claimable).1

theorem recorded (e : Delivery) {n : Word32} (counted : n.val = k) (out : Outcome) (done : Instant) (status : Status)
    (next : Option Instant) (deliveredAt : Option (Option Instant)) :
    (e.apply (.recorded n out done status next deliveredAt)).Records k out done :=
  ⟨counted, ⟨rfl, rfl⟩, rfl, rfl, rfl, rfl⟩

/-- One attempt more, before which the one that decides was not reached. -/
theorem next {m : Nat} (reached : Reached p o finish (decisive m o) d k e) (untried : d.Untried dueAt)
    (one_le : 1 ≤ m) (limit : p.maxAttempts.val = m) (some_left : k < decisive m o) {n : Word32}
    (counted : n.val = e.attempts.val + 1) (fits : p.Fits (finish (k + 1))) :
    Reached p o finish (decisive m o) d (k + 1) (e.apply (.concluded p n (o (k + 1)) (finish (k + 1)))) := by
  obtain ⟨-, below, retried, last⟩ := decisive_spec one_le o
  have number : n.val = (k + 1 : Nat) := by
    rw [counted, reached.attempts untried]
    omega
  -- an outcome that ends the delivery is the one that decides
  have decides : (o (k + 1)).verdict ≠ .retryable → decisive m o = k + 1 := by
    intro final
    by_contra other
    exact final (retried (k + 1) (by omega) (by omega))
  unfold Change.concluded
  cases verdict : (o (k + 1)).verdict with
  | success =>
    rw [decides (by rw [verdict]; decide)]
    exact .ended (recorded e number _ _ _ _ _) (if_pos verdict).symm rfl
  | permanent =>
    rw [decides (by rw [verdict]; decide)]
    exact .ended (recorded e number _ _ _ _ _) (if_neg (by rw [verdict]; decide)).symm rfl
  | retryable =>
    dsimp only
    by_cases more : n.val < p.maxAttempts.val
    · have some_left' : k + 1 < decisive m o := by
        by_contra ended
        have same : decisive m o = k + 1 := by omega
        obtain full | final := last
        · omega
        · rw [same] at final
          exact final verdict
      obtain ⟨due, delayed⟩ := Option.isSome_iff_exists.mp (fits n (by omega) more)
      rw [if_pos more, delayed]
      exact .waiting (by omega) some_left' (recorded e number _ _ _ _ _) rfl delayed rfl
    · have same : decisive m o = k + 1 := by omega
      rw [if_neg more, same]
      exact .ended (recorded e number _ _ _ _ _) (if_neg (by rw [verdict]; decide)).symm rfl

end Reached

end Delivery

/-! ### Round after round -/

namespace Fleet

variable {crew : Crew} {h id : Uuid} {f : Fleet} {acts more : List Act} {r : Round}
  {o : Nat → Outcome} {finish : Nat → Instant}

inductive Course (crew : Crew) (h : Uuid) (f : Fleet) : List Act → Prop
  | nil : Course crew h f []
  | round {acts : List Act} (before : Course crew h f acts) {r : Round} (completes : r.Completes crew h (f.run crew acts)) :
    Course crew h f (acts ++ r.acts h)

structure Stands (crew : Crew) (h : Uuid) (f : Fleet) (o : Nat → Outcome) (finish : Nat → Instant) (d : Delivery)
    (acts : List Act) (e : Delivery) : Prop where
  ready : Ready crew h (f.run crew acts)
  frames : f.store.Frames (f.run crew acts).store
  stored : e ∈ (f.run crew acts).store.deliveries
  same : e.id = d.id ∧ e.webhookId = d.webhookId
  reached : Delivery.Reached (crew.policy h) o finish (decisive (crew.limit h).toNat o) d (requests crew h d.id f acts) e

section Stands

variable {d e : Delivery} {dueAt : Instant}

theorem Ready.limit_toNat (ready : Ready crew h f) :
    1 ≤ (crew.limit h).toNat ∧ (crew.policy h).maxAttempts.val = (crew.limit h).toNat := by
  have one_le := ready.keeps.allows.one_le
  unfold Crew.limit at one_le ⊢
  omega

theorem Stands.start (ready : Ready crew h f) (hd : d ∈ f.store.deliveries) : Stands crew h f o finish d [] d :=
  ⟨ready, .rfl, hd, ⟨rfl, rfl⟩, .untried⟩

/-- A round that comes too early or too late leaves the delivery where it is. -/
theorem Stands.passes (stands : Stands crew h f o finish d acts e) (completes : r.Completes crew h (f.run crew acts))
    (unclaimable : e.isClaimable r.claimAt = false) :
    Stands crew h f o finish d (acts ++ r.acts h) e ∧
      requests crew h d.id f (acts ++ r.acts h) = requests crew h d.id f acts ∧
      ∀ batch t, Scan.claim (crew.scheduler h) r.claimAt (f.run crew acts).store = .ok (batch, t) →
        ∀ x ∈ batch, x.id ≠ d.id := by
  obtain ⟨ready, frames⟩ := stands.ready.round completes
  obtain ⟨stored, unasked, unclaimed⟩ := round_passes stands.ready completes stands.stored unclaimable
  rw [stands.same.1] at unasked unclaimed
  have count : requests crew h d.id f (acts ++ r.acts h) = requests crew h d.id f acts := by
    rw [requests_append, unasked, Nat.add_zero]
  refine ⟨?_, count, unclaimed⟩
  rw [← run_append] at ready frames stored
  exact ⟨ready, stands.frames.trans frames, stored, stands.same, count ▸ stands.reached⟩

/-- A round that comes when the delivery is due takes it one attempt further. -/
theorem Stands.advances (stands : Stands crew h f o finish d acts e) (completes : r.Completes crew h (f.run crew acts))
    (untried : d.Untried dueAt) (serves : f.store.Serves d.webhookId)
    (follows : Follows crew h d.id o finish (requests crew h d.id f acts) (f.run crew acts) (r.acts h))
    (claimable : e.isClaimable r.claimAt = true)
    (some_left : requests crew h d.id f acts < decisive (crew.limit h).toNat o) :
    (∃ e', Stands crew h f o finish d (acts ++ r.acts h) e') ∧
      requests crew h d.id f (acts ++ r.acts h) = requests crew h d.id f acts + 1 := by
  obtain ⟨one_le, limit⟩ := stands.ready.limit_toNat
  have serves' : (f.run crew acts).store.Serves e.webhookId := stands.same.2 ▸ serves.frames stands.frames
  obtain ⟨ready, frames⟩ := stands.ready.round completes
  rw [← stands.same.1] at follows
  obtain ⟨n, counted, fits, stored, once⟩ :=
    round_attempts stands.ready completes stands.stored claimable serves' follows
  rw [stands.same.1] at once fits stored
  have count : requests crew h d.id f (acts ++ r.acts h) = requests crew h d.id f acts + 1 := by
    rw [requests_append, once]
  have reached := stands.reached.next untried one_le limit some_left counted fits
  rw [← count] at reached stored
  rw [← run_append] at ready frames stored
  exact ⟨⟨_, ready, stands.frames.trans frames, stored, stands.same, reached⟩, count⟩

/-- After any course of rounds the delivery stands where its outcomes so far have brought it. -/
theorem stands_after (ready : Ready crew h f) (hd : d ∈ f.store.deliveries) (untried : d.Untried dueAt)
    (serves : f.store.Serves d.webhookId) (course : Course crew h f acts)
    (follows : Follows crew h d.id o finish 0 f acts) : ∃ e, Stands crew h f o finish d acts e := by
  induction course with
  | nil => exact ⟨d, .start ready hd⟩
  | @round acts before r completes ih =>
    obtain ⟨earlier, last⟩ := (follows_append _ _).mp follows
    rw [Nat.zero_add] at last
    obtain ⟨e, stands⟩ := ih earlier
    cases claimable : e.isClaimable r.claimAt with
    | false => exact ⟨e, (stands.passes completes claimable).1⟩
    | true =>
      have some_left : requests crew h d.id f acts < decisive (crew.limit h).toNat o := by
        by_contra ended
        have closed := stands.reached.unclaimable (decisive_spec ready.limit_toNat.1 o).1
          (Nat.le_antisymm stands.reached.le (Nat.le_of_not_lt ended)) r.claimAt
        cases closed.symm.trans claimable
      exact (stands.advances completes untried serves last claimable some_left).1

end Stands

/-- A fresh delivery to an active webhook, and any course of rounds of one scheduler in which its requests come to
outcomes `o 1`, `o 2`, … at times `finish 1`, `finish 2`, …: it is where the requests made for it have brought it. The
next round makes exactly one request more if it comes when the delivery is due and the attempt that decides is not made
yet; a round that comes earlier, or later than that, does not claim the delivery and leaves it as it is. There is a next
round at any time whose dates exist. -/
theorem outcomes_decide (crew : Crew) (ready : Ready crew h f) {d : Delivery} (hd : d ∈ f.store.deliveries)
    {dueAt : Instant} (fresh : d.Fresh dueAt) (serves : f.store.Serves d.webhookId) (course : Course crew h f acts)
    (follows : Follows crew h d.id o finish 0 f acts) :
    let g := f.run crew acts
    let k := requests crew h d.id f acts
    let j := decisive (crew.limit h).toNat o
    ∃ e, g.store.getDelivery d.id = .ok (some e) ∧ Delivery.Reached (crew.policy h) o finish j d k e ∧
      (∀ r : Round, r.Completes crew h g →
        (k < j → (∀ due, e.nextRetryAt = some due → due ≤ r.claimAt) →
          Follows crew h d.id o finish k g (r.acts h) → requests crew h d.id f (acts ++ r.acts h) = k + 1) ∧
        (k = j ∨ (∃ due, e.nextRetryAt = some due ∧ r.claimAt < due) →
          requests crew h d.id f (acts ++ r.acts h) = k ∧
          (f.run crew (acts ++ r.acts h)).store.getDelivery d.id = .ok (some e) ∧
          ∀ batch t, Scan.claim (crew.scheduler h) r.claimAt g.store = .ok (batch, t) → ∀ x ∈ batch, x.id ≠ d.id)) ∧
      ∀ now, 1 ≤ (crew.config h).concurrency → (∀ i, (crew.policy h).Fits (finish i)) →
        (now.add? (crew.config h).lease).isSome →
        (g.store.due now).length ≤ (crew.config h).batchSize.val.toNat →
        ∃ r : Round, r.claimAt = now ∧ r.Completes crew h g ∧ Follows crew h d.id o finish k g (r.acts h) := by
  intro g k j
  obtain ⟨one_le, -⟩ := ready.limit_toNat
  obtain ⟨e, stands⟩ := stands_after ready hd fresh.untried serves course follows
  have read : ∀ {acts}, Stands crew h f o finish d acts e →
      (f.run crew acts).store.getDelivery d.id = .ok (some e) := fun stands =>
    stands.same.1 ▸ stands.ready.distinct.getDelivery stands.stored stands.ready.online
  refine ⟨e, read stands, stands.reached, fun r completes => ⟨fun some_left early asked => ?_, fun untimely => ?_⟩,
    fun now pos fits leased roomy => round_exists pos leased fits k stands.ready roomy⟩
  · obtain ⟨due, next, claimable⟩ := stands.reached.claimable_iff fresh.untried some_left
    exact (stands.advances completes fresh.untried serves asked ((claimable _).mpr (early due next)) some_left).2
  · have unclaimable : e.isClaimable r.claimAt = false := by
      obtain ended | ⟨due, next, early⟩ := untimely
      · exact stands.reached.unclaimable (decisive_spec one_le o).1 ended r.claimAt
      · rw [Bool.eq_false_iff]
        intro claimable
        exact Instant.not_le.mpr early ((Delivery.isClaimable_iff.mp claimable).2.1 due next)
    obtain ⟨stands', count, unclaimed⟩ := stands.passes completes unclaimable
    exact ⟨count, read stands', unclaimed⟩

end Fleet

namespace Fleet.Sample

def written : Fleet := after crew (claimed.take 2)

def round (t : Nat) (out : Outcome) : Round where
  claimAt := second t
  moves := [.start parcel (second t), .look parcel, .answer parcel out (second (t + 1)), .report parcel]

/-- The receiver is down at first. The second round comes too early. -/
def rounds : List Round := [round 1 unavailable, ⟨second 61, []⟩, round 62 thanked]

def outcomes (n : Nat) : Outcome := if n = 1 then unavailable else thanked

def finishes (n : Nat) : Instant := if n = 1 then second 2 else second 63

theorem finishes_fit (t : Nat) (ht : t ∈ [2, 63]) : (crew.policy north).Fits (second t) := by
  rintro ⟨n, low, high⟩ one_le (below : n < 5)
  dsimp only at one_le
  obtain rfl | rfl | rfl | rfl : n = 1 ∨ n = 2 ∨ n = 3 ∨ n = 4 := by omega
  all_goals
    revert t
    decide +kernel +revert

theorem round_completes {f : Fleet} {t : Nat} {out : Outcome}
    (claims : (f.store.due (second t)).length ≤ 50 ∧ ((second t).add? (crew.config north).lease).isSome)
    (fits : (crew.policy north).Fits (second (t + 1)))
    (finished : ((f.run crew ((round t out).acts north)).workers north).isEmpty) :
    (round t out).Completes crew north f where
  roomy := claims.1
  leased := claims.2
  fits := by simpa [round, Move.Fits] using ⟨claims.2, fits⟩
  finished := List.isEmpty_iff.mp finished

theorem rounds_course : Course crew north written (rounds.flatMap (Round.acts north)) := by
  have refused : Course crew north written ((round 1 unavailable).acts north) :=
    .round .nil (round_completes (by decide +kernel) (finishes_fit 2 (by decide)) (by decide +kernel))
  have early := refused.round (r := ⟨second 61, []⟩)
    ⟨by decide +kernel, by decide +kernel, List.forall_mem_nil _, List.isEmpty_iff.mp (by decide +kernel)⟩
  exact early.round (r := round 62 thanked)
    (round_completes (by decide +kernel) (finishes_fit 63 (by decide)) (by decide +kernel))

end Fleet.Sample

theorem Fleet.outcomes_decide_retried :
    let acts := Sample.rounds.flatMap (Round.acts Sample.north)
    ∃ e, (Sample.written.run Sample.crew acts).store.getDelivery Sample.parcel = .ok (some e) ∧
      e.status = .delivered ∧ e.Records 2 Sample.thanked (Sample.second 63) := by
  intro acts
  have ready : Ready Sample.crew Sample.north Sample.written :=
    ready_after Sample.agrees.allows ⟨by decide +kernel, by decide +kernel⟩ rfl rfl
  have dispatched : ∃ d ∈ Sample.written.store.deliveries, d.id = Sample.parcel ∧ d.webhookId = Sample.hook ∧
      d ∈ Dispatch.deliveriesTo ⟨"page.published", Sample.second 0, .null⟩ (Sample.second 0)
        [Sample.registration.toWebhook Sample.hook (Sample.second 0)] (fun _ => Sample.parcel) (Sample.second 0) := by
    decide +kernel
  obtain ⟨d, hd, hid, hhook, written⟩ := dispatched
  have serves : Sample.written.store.Serves d.webhookId := by
    rw [hhook]
    exact ⟨_, rfl, rfl⟩
  have follows : Follows Sample.crew Sample.north d.id Sample.outcomes Sample.finishes 0 Sample.written acts := by
    rw [hid]
    decide +kernel
  have made : requests Sample.crew Sample.north d.id Sample.written acts = 2 := by
    rw [hid]
    decide +kernel
  have last : decisive (Sample.crew.limit Sample.north).toNat Sample.outcomes = 2 := by decide +kernel
  obtain ⟨e, read, reached, -⟩ := outcomes_decide Sample.crew ready hd (.dispatched written) serves
    Sample.rounds_course follows
  refine ⟨e, hid ▸ read, ?_⟩
  change Delivery.Reached _ _ _ _ d (requests Sample.crew Sample.north d.id Sample.written acts) e at reached
  rw [made, last] at reached
  cases reached with
  | waiting _ some_left => omega
  | ended records status => exact ⟨status, records⟩

end Courier
