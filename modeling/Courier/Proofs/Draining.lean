import Courier.Proofs.CompletionOrder
import Courier.Proofs.LaterInstants
import Courier.Proofs.Queue
set_option autoImplicit false

namespace Courier

/-- When an attempt is to be repeated, the new due time lies ahead. -/
theorem Change.repeated_later {before : Word32} {o : Outcome} {p : RetryPolicy} {now due : Instant} {change : Change}
    (soonest : 0 < p.initialBackoff.nanos) (latest : 0 < p.maxBackoff.nanos)
    (h : afterAttempt before o p now = .ok change) (next : change.nextRetryAt = some (some due)) : now < due := by
  unfold afterAttempt at h
  split at h
  · cases h
  · rename_i n hn
    dsimp only at h
    split at h
    · cases h
      cases next
    · cases h
      cases next
    · split at h
      · split at h
        · cases h
        · rename_i sum
          cases h
          cases next
          exact Instant.lt_of_add? (Span.ofDuration_pos (RetryPolicy.nextDelay_pos soonest latest n)) sum
      · cases h
        cases next

namespace Scene

variable {c : Scene} {s t : Store} {ws : List Webhook} {d : Delivery} {batch : List Delivery}

/-! ### A row that is worked off -/

variable (c) in
def worked (ws : List Webhook) (d : Delivery) : Delivery := c.concluded ws (c.taken d)

variable (c) in
structure Delays : Prop where
  soonest : 0 < c.scheduler.config.policy.initialBackoff.nanos
  latest : 0 < c.scheduler.config.policy.maxBackoff.nanos

theorem worked_id (d : Delivery) : (c.worked ws d).id = d.id := concluded_id _

theorem verdict_fits (fits : c.Fits d) : ∃ change, c.verdict ws d = some change := by
  unfold verdict
  rcases judge_cases c ws d with ⟨w, hjudge, below⟩ | ⟨reason, hjudge⟩
  · obtain ⟨change, hchange⟩ := fits below (c.receiver d w)
    rw [hjudge]
    exact ⟨change, toOption_eq_some.mpr hchange⟩
  · rw [hjudge]
    exact ⟨_, rfl⟩

/-- What is written back is not pending or is due at a later time only. -/
theorem verdict_leaves (delays : c.Delays) {change : Change} (h : c.verdict ws d = some change) :
    (d.apply change).isClaimable c.now = false := by
  rw [Bool.eq_false_iff]
  intro claimable
  obtain ⟨pending, due, -⟩ := Delivery.isClaimable_iff.mp claimable
  unfold verdict at h
  rcases judge_cases c ws d with ⟨w, hjudge, -⟩ | ⟨reason, hjudge⟩
  · rw [hjudge] at h
    have call := toOption_eq_some.mp h
    have later : ∀ next, change.nextRetryAt = some (some next) → c.now < next := fun _ =>
      Change.repeated_later delays.soonest delays.latest call
    obtain ⟨n, -, ⟨-, rfl⟩ | ⟨-, -, next, rfl⟩ | ⟨-, rfl⟩⟩ := Change.afterAttempt_ok call
    · cases pending
    · exact Instant.not_le.mpr (later next rfl) (due next rfl)
    · cases pending
  · rw [hjudge] at h
    cases h
    cases pending

theorem worked_leaves (delays : c.Delays) (fits : c.Fits d) : (c.worked ws d).isClaimable c.now = false := by
  have fits' : c.Fits (c.taken d) := fits
  obtain ⟨change, hverdict⟩ : ∃ change, c.verdict ws (c.taken d) = some change := verdict_fits fits'
  rw [worked, concluded_eq hverdict]
  exact verdict_leaves delays hverdict

/-! ### The front of the queue worked off -/

variable (c) in
/-- The store after the first so many deliveries of its queue were worked off. -/
def drained (s : Store) (m : Nat) : Store :=
  { s with deliveries := s.deliveries.map fun d =>
      if d ∈ (s.queue c.now).take m then c.worked s.webhooks d else d }

variable (c) in
structure DueInRange (s : Store) : Prop where
  lease : (Worker.claimEnd? c.scheduler.config c.now).isSome
  fits : ∀ d ∈ s.queue c.now, c.Fits d

theorem drained_ids (s : Store) (m : Nat) : (c.drained s m).deliveries.map (·.id) = s.deliveries.map (·.id) := by
  unfold drained
  rw [List.map_map]
  refine List.map_congr_left fun d _ => ?_
  simp only [Function.comp_apply]
  split
  · exact worked_id d
  · rfl

section Queue

variable (delays : c.Delays) (distinct : (s.deliveries.map (·.id)).Nodup) (dates : c.DueInRange s)
include delays dates

theorem leaves_queue (m : Nat) {d : Delivery} (front : d ∈ (s.queue c.now).take m) :
    (c.worked s.webhooks d).isClaimable c.now = false :=
  worked_leaves delays (dates.fits d (List.mem_of_mem_take front))

include distinct

theorem drained_queue (m : Nat) : (c.drained s m).queue c.now = (s.queue c.now).drop m := by
  have away : ∀ d ∈ (s.queue c.now).take m, c.worked s.webhooks d ≠ d := by
    intro d front same
    have claimable := (Store.mem_queue.mp (List.mem_of_mem_take front)).2
    have gone := leaves_queue delays dates m front
    rw [same, claimable] at gone
    cases gone
  have back : ∀ d ∈ (s.queue c.now).drop m, d ∉ (s.queue c.now).take m := by
    intro d hback front
    have ids : (s.queue c.now).Nodup := (Store.queue_ids distinct).of_map
    rw [← List.take_append_drop m (s.queue c.now), List.nodup_append] at ids
    exact ids.2.2 d front d hback rfl
  have leaves : ∀ d ∈ s.deliveries, (if d ∈ (s.queue c.now).take m then c.worked s.webhooks d else d) = d ∨
      (if d ∈ (s.queue c.now).take m then c.worked s.webhooks d else d).isClaimable c.now = false := by
    intro d _
    by_cases front : d ∈ (s.queue c.now).take m
    · rw [if_pos front]
      exact .inr (leaves_queue delays dates m front)
    · rw [if_neg front]
      exact .inl rfl
  have rows : (c.drained s m).queue c.now = _ := Store.queue_map rfl leaves
  rw [rows]
  conv_lhs => rw [← List.take_append_drop m (s.queue c.now), List.filter_append]
  have none_left : ((s.queue c.now).take m).filter (fun d =>
      (if d ∈ (s.queue c.now).take m then c.worked s.webhooks d else d) = d) = [] := by
    rw [List.filter_eq_nil_iff]
    intro d front
    simp [front, away d front]
  have all_left : ((s.queue c.now).drop m).filter (fun d =>
      (if d ∈ (s.queue c.now).take m then c.worked s.webhooks d else d) = d) = (s.queue c.now).drop m := by
    rw [List.filter_eq_self]
    intro d hback
    simp [back d hback]
  rw [List.take_append_drop, none_left, all_left, List.nil_append]

theorem DueInRange.drained (m : Nat) : c.DueInRange (c.drained s m) where
  lease := dates.lease
  fits d hd := by
    rw [drained_queue delays distinct dates] at hd
    exact dates.fits d (List.mem_of_mem_drop hd)

theorem drained_add (m k : Nat) : c.drained (c.drained s m) k = c.drained s (m + k) := by
  have rows : ((c.drained s m).deliveries.map fun d =>
        if d ∈ ((c.drained s m).queue c.now).take k then c.worked s.webhooks d else d) =
      s.deliveries.map fun d => if d ∈ (s.queue c.now).take (m + k) then c.worked s.webhooks d else d := by
    rw [drained_queue delays distinct dates, Scene.drained, List.map_map]
    refine List.map_congr_left fun d _ => ?_
    simp only [Function.comp_apply, List.take_add, List.mem_append]
    by_cases front : d ∈ (s.queue c.now).take m
    · -- the row has left the queue and is not met again
      have gone : c.worked s.webhooks d ∉ ((s.queue c.now).drop m).take k := by
        intro again
        have claimable := (Store.mem_queue.mp (List.mem_of_mem_drop (List.mem_of_mem_take again))).2
        rw [leaves_queue delays dates m front] at claimable
        cases claimable
      simp [front, gone]
    · simp [front]
  unfold Scene.drained at rows ⊢
  rw [rows]

end Queue

/-! ### Scans one after another -/

variable (c) in
def Scans (s : Store) (batch : List Delivery) (t : Store) : Prop :=
  ∃ claimed b, Scan.claim c.scheduler c.now s = .ok (batch, claimed) ∧
    c.Completes c.scheduler.config.concurrency batch claimed b ∧ b.store = t

variable (c) in
/-- Scans one after another, with the batches that they claimed. -/
inductive Repeats : Store → List (List Delivery) → Store → Prop
  | nil (s : Store) : Repeats s [] s
  | cons {s t u : Store} {batch : List Delivery} {batches : List (List Delivery)} (scan : c.Scans s batch t)
    (rest : Repeats t batches u) : Repeats s (batch :: batches) u

variable (c) in
def batchSize : Nat := c.scheduler.config.batchSize.val.toNat

section Runs

variable (delays : c.Delays) (distinct : (s.deliveries.map (·.id)).Nodup) (dates : c.DueInRange s)
  (online : s.online = true)
include distinct dates online

/-- A claim takes the front of the queue as large as a batch may be. -/
theorem claim_eq : Scan.claim c.scheduler c.now s = .ok (((s.queue c.now).take c.batchSize).map c.taken, { s with
    deliveries := s.deliveries.map fun d => if d ∈ (s.queue c.now).take c.batchSize then c.taken d else d }) := by
  obtain ⟨till, lease⟩ := Option.isSome_iff_exists.mp dates.lease
  have marked : (fun d : Delivery => d.apply (.claim c.scheduler.id till)) = c.taken := by
    funext d
    unfold taken
    rw [lease]
    rfl
  have marks : ∀ d : Delivery, d.apply (.claim c.scheduler.id till) = c.taken d := fun d => congrFun marked d
  unfold Scan.claim
  rw [Store.claimDue_queue online distinct lease, marked]
  simp only [marks]
  rfl

theorem scan_drained (scan : c.Scans s batch t) :
    batch = ((s.queue c.now).take c.batchSize).map c.taken ∧ t = c.drained s c.batchSize := by
  obtain ⟨claimed, b, call, completes, rfl⟩ := scan
  have claims := claims_of_claim call distinct
  have reached : claimed.online = true := (Store.claimDue_ok call).1.online.trans online
  obtain ⟨store, -, -⟩ := completes.settles claims reached
  rw [claim_eq distinct dates online] at call
  cases call
  refine ⟨rfl, store.trans ?_⟩
  have rows : (s.deliveries.map fun d => if d ∈ (s.queue c.now).take c.batchSize then c.taken d else d).map
        (c.settled s.webhooks (((s.queue c.now).take c.batchSize).map c.taken)) =
      s.deliveries.map fun d => if d ∈ (s.queue c.now).take c.batchSize then c.worked s.webhooks d else d := by
    rw [List.map_map]
    refine List.map_congr_left fun d hd => ?_
    rw [Function.comp_apply]
    by_cases front : d ∈ (s.queue c.now).take c.batchSize
    · rw [if_pos front, if_pos front]
      exact if_pos (List.mem_map_of_mem (List.mem_map_of_mem front))
    · rw [if_neg front, if_neg front]
      refine if_neg fun member => front ?_
      rw [List.map_map] at member
      obtain ⟨e, he, same⟩ := List.mem_map.mp member
      have stored := (Store.mem_queue.mp (List.mem_of_mem_take he)).1
      obtain rfl : e = d := List.inj_on_of_nodup_map distinct stored hd same
      exact he
  unfold drained
  rw [← rows]

theorem scan_exists (room : 1 ≤ c.scheduler.config.concurrency) : ∃ batch t, c.Scans s batch t := by
  have call := claim_eq distinct dates online
  have claims := claims_of_claim call distinct
  have fits : ∀ d ∈ ((s.queue c.now).take c.batchSize).map c.taken, c.Fits d := by
    intro d hd
    obtain ⟨e, he, rfl⟩ := List.mem_map.mp hd
    exact dates.fits e (List.mem_of_mem_take he)
  obtain ⟨ids, b, hplay, done⟩ :=
    (Stands.opened c.scheduler.config.concurrency _ _).finishes room claims dates.lease fits
      (fun k => .calm k.delivery.id) (fun _ => rfl) (Fleet.waiting_fill room _)
  rw [play_calm] at hplay
  exact ⟨_, _, _, b, call, ⟨ids, hplay, done⟩, rfl⟩

include delays

theorem repeats_exist (room : 1 ≤ c.scheduler.config.concurrency) (m : Nat) :
    ∃ batches t, batches.length = m ∧ c.Repeats s batches t := by
  induction m generalizing s with
  | zero => exact ⟨[], s, rfl, .nil s⟩
  | succ m ih =>
    obtain ⟨batch, t, scan⟩ := scan_exists distinct dates online room
    obtain ⟨-, rfl⟩ := scan_drained distinct dates online scan
    have distinct' : ((c.drained s c.batchSize).deliveries.map (·.id)).Nodup := by rwa [drained_ids]
    obtain ⟨batches, u, count, rest⟩ := ih distinct' (dates.drained delays distinct c.batchSize) online
    exact ⟨batch :: batches, u, congrArg (· + 1) count, .cons scan rest⟩

/-- After some scans the front of the queue that they took off is worked off; each took the next slice. -/
theorem repeats_drained {batches : List (List Delivery)} (repeats : c.Repeats s batches t) :
    t = c.drained s (batches.length * c.batchSize) ∧
      batches.flatten = ((s.queue c.now).take (batches.length * c.batchSize)).map c.taken ∧
      ∀ i batch, batches[i]? = some batch →
        batch.length = min c.batchSize ((s.queue c.now).length - i * c.batchSize) := by
  induction repeats with
  | nil s =>
    refine ⟨?_, by simp, fun i batch hi => by simp at hi⟩
    simp [drained]
  | @cons s t u batch batches scan rest ih =>
    obtain ⟨first, rfl⟩ := scan_drained distinct dates online scan
    have distinct' : ((c.drained s c.batchSize).deliveries.map (·.id)).Nodup := by rwa [drained_ids]
    obtain ⟨store, slices, sizes⟩ := ih distinct' (dates.drained delays distinct c.batchSize) online
    have count : (batch :: batches).length * c.batchSize = c.batchSize + batches.length * c.batchSize := by
      rw [List.length_cons, Nat.succ_mul, Nat.add_comm]
    rw [drained_queue delays distinct dates] at slices sizes
    refine ⟨?_, ?_, fun i x hx => ?_⟩
    · rw [store, drained_add delays distinct dates, count]
    · rw [List.flatten_cons, slices, count, first, ← List.map_append, ← List.take_add]
    · cases i with
      | zero =>
        cases hx
        simp [first]
      | succ i =>
        have size := sizes i x hx
        rw [List.length_drop] at size
        rw [size, Nat.succ_mul]
        omega

end Runs

variable (c) in
def sized (size : Word64) (room : Nat) : Scene :=
  { c with scheduler :=
    { c.scheduler with config := { c.scheduler.config with batchSize := size, concurrency := room } } }

/-- How many scans of this size claim something when so much is due. -/
theorem rounds_iff {n size i : Nat} (pos : 1 ≤ size) : min size (n - i * size) = 0 ↔ (n + size - 1) / size ≤ i := by
  have rounds : (n + size - 1) / size ≤ i ↔ n + size - 1 < (i + 1) * size :=
    (Nat.lt_succ_iff).symm.trans (Nat.div_lt_iff_lt_mul pos)
  rw [rounds, Nat.succ_mul]
  omega

/-- For any size of a batch and any number of workers: scans can be repeated any number of times, each claims as many
as there are left up to the size, nothing is claimed twice, the scans that claim something are as many as it takes, and
after them the store is always the same. -/
theorem draining_ends (c : Scene) {s : Store} (online : s.online = true)
    (distinct : (s.deliveries.map (·.id)).Nodup) (dates : c.DueInRange s) (delays : c.Delays) :
    ∃ last : Store, last.webhooks = s.webhooks ∧ last.deliveries.map (·.id) = s.deliveries.map (·.id) ∧
      (∀ d ∈ last.deliveries, d.isClaimable c.now = false) ∧
      ∀ (size : Word64) (room : Nat), 1 ≤ size.val → 1 ≤ room →
        let n := s.deliveries.countP (·.isClaimable c.now)
        let rounds := (n + size.val.toNat - 1) / size.val.toNat
        (∀ m, ∃ batches t, batches.length = m ∧ (c.sized size room).Repeats s batches t) ∧
        ∀ batches t, (c.sized size room).Repeats s batches t →
          (∀ i batch, batches[i]? = some batch →
            batch.length = min size.val.toNat (n - i * size.val.toNat) ∧ (batch = [] ↔ rounds ≤ i)) ∧
          (batches.flatten.map (·.id)).Nodup ∧ (rounds ≤ batches.length → t = last) := by
  refine ⟨c.drained s (s.queue c.now).length, rfl, drained_ids s _, fun d hd => ?_, fun size room pos one_le => ?_⟩
  · have empty := drained_queue delays distinct dates (s.queue c.now).length
    rw [List.drop_length] at empty
    rw [Bool.eq_false_iff]
    intro claimable
    have queued := Store.mem_queue.mpr ⟨hd, claimable⟩
    rw [empty] at queued
    cases queued
  · intro n rounds
    have count : (s.queue c.now).length = n := s.length_queue c.now
    have pos' : 1 ≤ size.val.toNat := by omega
    have dates' : (c.sized size room).DueInRange s := ⟨dates.lease, dates.fits⟩
    have delays' : (c.sized size room).Delays := ⟨delays.soonest, delays.latest⟩
    refine ⟨fun m => repeats_exist delays' distinct dates' online one_le m, fun batches t repeats => ?_⟩
    obtain ⟨store, slices, sizes⟩ := repeats_drained delays' distinct dates' online repeats
    refine ⟨fun i batch hi => ?_, ?_, fun enough => ?_⟩
    · have length : batch.length = min size.val.toNat (n - i * size.val.toNat) := count ▸ sizes i batch hi
      refine ⟨length, ?_⟩
      rw [← List.length_eq_zero_iff, length]
      exact rounds_iff pos'
    · rw [slices, List.map_map]
      exact (Store.queue_ids distinct).sublist ((List.take_sublist _ _).map _)
    · have whole : n ≤ batches.length * size.val.toNat := by
        have none_left := (rounds_iff (n := n) pos').mpr enough
        omega
      have all_taken : ∀ m, n ≤ m → (s.queue c.now).take m = s.queue c.now := fun m hm =>
        List.take_of_length_le (count ▸ hm)
      have front : (s.queue c.now).take (batches.length * size.val.toNat) =
          (s.queue c.now).take (s.queue c.now).length := by
        rw [all_taken _ whole, List.take_length]
      rw [store]
      change c.drained s (batches.length * size.val.toNat) = _
      unfold drained
      rw [front]

namespace Sample
open Fleet.Sample

def one : Word64 := .clamp 1
def two : Word64 := .clamp 2

theorem dueInRange : scene.DueInRange written where
  lease := inRange.lease
  fits d hd := inRange.attempts d (Store.mem_queue.mp hd).1

end Sample

open Sample in
theorem draining_ends_parcel_letter : ∃ last : Store,
    (∃ batches, (scene.sized one 1).Repeats written batches last ∧ batches.map List.length = [1, 1, 0]) ∧
      ∃ batches, (scene.sized two 2).Repeats written batches last ∧ batches.map List.length = [2, 0] := by
  obtain ⟨last, -, -, -, ends⟩ := draining_ends scene (s := written) rfl (by decide +kernel) dueInRange
    ⟨by decide +kernel, by decide +kernel⟩
  have due : written.deliveries.countP (·.isClaimable scene.now) = 2 := by decide +kernel
  rw [due] at ends
  refine ⟨last, ?_, ?_⟩
  · obtain ⟨exist, all⟩ := ends one 1 (by decide) (by decide)
    obtain ⟨batches, t, three, repeats⟩ := exist 3
    obtain ⟨sizes, -, settled⟩ := all batches t repeats
    obtain ⟨x, y, z, rfl⟩ := List.length_eq_three.mp three
    obtain rfl := settled (show _ ≤ 3 by decide)
    have first := (sizes 0 x rfl).1
    have second := (sizes 1 y rfl).1
    have third := (sizes 2 z rfl).1
    have single : one.val = 1 := rfl
    refine ⟨_, repeats, ?_⟩
    simp [first, second, third, single]
  · obtain ⟨exist, all⟩ := ends two 2 (by decide) (by decide)
    obtain ⟨batches, t, count, repeats⟩ := exist 2
    obtain ⟨sizes, -, settled⟩ := all batches t repeats
    obtain ⟨x, y, rfl⟩ := List.length_eq_two.mp count
    obtain rfl := settled (show _ ≤ 2 by decide)
    have first := (sizes 0 x rfl).1
    have second := (sizes 1 y rfl).1
    have double : two.val = 2 := rfl
    refine ⟨_, repeats, ?_⟩
    simp [first, second, double]

end Scene

end Courier
