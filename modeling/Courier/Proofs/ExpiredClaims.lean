import Courier.Proofs.Calls
import Courier.Proofs.ConsecutiveClaims
set_option autoImplicit false

/-!
# Claims after a release of ended claims

Whether a claim is over is decided twice, by the release of ended claims and by the next claim. Both ask whether it ended
before their time, and the release reads the clock first. So it frees only rows that the next claim takes for free anyway,
and the queue keeps its order, which no claim enters.
-/

namespace Courier

theorem Instant.lt_of_lt_of_le {a b c : Instant} (h : a < b) (g : b ≤ c) : a < c := by
  simp only [lt_def, le_def] at h g ⊢
  omega

def Delivery.freed (d : Delivery) : Delivery := { d with claimedBy := none, claimedUntil := none }

namespace Store

variable {s u : Store} {t now till : Instant} {lease : Span} {d : Delivery} {q : List (Delivery × Nat)}

theorem hasExpired_iff : hasExpired t d = true ↔ ∃ till, d.claimedUntil = some till ∧ till < t := by
  unfold hasExpired
  rw [Option.any_eq_true]
  simp only [decide_eq_true_eq]

theorem not_hasExpired_iff : ¬ hasExpired t d = true ↔ ∀ till, d.claimedUntil = some till → t ≤ till := by
  rw [hasExpired_iff]
  simp only [not_exists, not_and, Instant.not_lt]

/-! ### One row -/

def swept (t : Instant) (d : Delivery) : Delivery := if hasExpired t d = true then d.freed else d

theorem swept_of_ended (ended : hasExpired t d = true) : swept t d = d.freed := if_pos ended

theorem swept_of_not_ended (good : ¬ hasExpired t d = true) : swept t d = d := if_neg good

theorem swept_ne_iff : d ≠ swept t d ↔ hasExpired t d = true := by
  by_cases ended : hasExpired t d = true
  · obtain ⟨till, ends, -⟩ := hasExpired_iff.mp ended
    rw [swept_of_ended ended]
    refine iff_of_true (fun same => ?_) ended
    have none_left := congrArg Delivery.claimedUntil same
    rw [ends] at none_left
    cases none_left
  · rw [swept_of_not_ended ended]
    exact iff_of_false (fun differs => differs rfl) ended

/-- What decides about the place in the queue stays. -/
theorem swept_order (t : Instant) (d : Delivery) :
    (swept t d).nextRetryAt = d.nextRetryAt ∧ (swept t d).createdAt = d.createdAt := by
  unfold swept
  split <;> exact ⟨rfl, rfl⟩

theorem swept_claimedAs (t : Instant) (d : Delivery) (c : Uuid) (till : Instant) :
    (swept t d).claimedAs c till = d.claimedAs c till := by
  unfold swept
  split <;> rfl

theorem not_hasExpired_swept {t' : Instant} (earlier : t' ≤ t) (d : Delivery) : ¬ hasExpired t' (swept t d) = true := by
  intro ended
  obtain ⟨till, ends, before⟩ := hasExpired_iff.mp ended
  by_cases here : hasExpired t d = true
  · rw [swept_of_ended here] at ends
    cases ends
  · rw [swept_of_not_ended here] at ends
    exact here (hasExpired_iff.mpr ⟨till, ends, Instant.lt_of_lt_of_le before earlier⟩)

/-- A claim that a release drops is over for every later claim. -/
theorem isClaimable_swept (earlier : t ≤ now) (d : Delivery) : (swept t d).isClaimable now = d.isClaimable now := by
  by_cases ended : hasExpired t d = true
  · obtain ⟨till, ends, before⟩ := hasExpired_iff.mp ended
    rw [swept_of_ended ended, Bool.eq_iff_iff, Delivery.isClaimable_iff, Delivery.isClaimable_iff]
    refine and_congr_right fun _ => and_congr_right fun _ => iff_of_true (fun x hx => by cases hx) fun x hx => ?_
    obtain rfl := Option.some.inj (ends.symm.trans hx)
    exact Instant.lt_of_lt_of_le before earlier
  · rw [swept_of_not_ended ended]

/-! ### The store -/

def cleared (s : Store) (t : Instant) : Store := { s with deliveries := s.deliveries.map (swept t) }

theorem cleared_row (s : Store) (t : Instant) (i : Nat) :
    (s.cleared t).deliveries[i]? = s.deliveries[i]?.map (swept t) := List.getElem?_map

theorem releaseExpired_online (online : s.online = true) (t : Instant) :
    s.releaseExpired t = .ok (s.deliveries.countP (hasExpired t), s.cleared t) := whenOnline_eq _ online

theorem releaseExpired_offline (offline : s.online = false) (t : Instant) :
    s.releaseExpired t = .error .unavailable := whenOnline_offline offline _

structure Released (s u : Store) (t : Instant) (n : Nat) : Prop where
  count : n = (s.deliveries.zip u.deliveries).countP fun x => x.1 ≠ x.2
  length : u.deliveries.length = s.deliveries.length
  freed : ∀ (i : Nat) d till, s.deliveries[i]? = some d → d.claimedUntil = some till → till < t →
    u.deliveries[i]? = some d.freed
  kept : ∀ (i : Nat) d, s.deliveries[i]? = some d → (∀ till, d.claimedUntil = some till → t ≤ till) →
    u.deliveries[i]? = some d
  left : ∀ d ∈ u.deliveries, ∀ till, d.claimedUntil = some till → t ≤ till
  webhooks : u.webhooks = s.webhooks
  online : u.online = s.online
  again : ∀ t' ≤ t, u.releaseExpired t' = .ok (0, u)

theorem cleared_cleared {t' : Instant} (earlier : t' ≤ t) :
    (s.cleared t).deliveries.countP (hasExpired t') = 0 ∧ (s.cleared t).cleared t' = s.cleared t := by
  constructor
  · refine List.countP_eq_zero.mpr fun e he => ?_
    obtain ⟨d, -, rfl⟩ := List.mem_map.mp he
    exact not_hasExpired_swept earlier d
  · unfold cleared
    rw [List.map_map]
    refine congrArg (fun ds => { s with deliveries := ds }) (List.map_congr_left fun d _ => ?_)
    exact swept_of_not_ended (not_hasExpired_swept earlier d)

theorem released (online : s.online = true) (t : Instant) :
    s.Released (s.cleared t) t (s.deliveries.countP (hasExpired t)) := by
  constructor
  case count =>
    have pairs : s.deliveries.zip (s.cleared t).deliveries = s.deliveries.map fun d => (d, swept t d) := by
      rw [cleared, ← List.zip_map', List.map_id']
    rw [pairs, List.countP_map]
    refine List.countP_congr fun d _ => ?_
    simpa using swept_ne_iff.symm
  case length => exact List.length_map _
  case freed =>
    intro i d till row ends before
    rw [cleared_row, row, Option.map_some, swept_of_ended (hasExpired_iff.mpr ⟨till, ends, before⟩)]
  case kept =>
    intro i d row good
    rw [cleared_row, row, Option.map_some, swept_of_not_ended (not_hasExpired_iff.mpr good)]
  case left =>
    intro e he
    obtain ⟨d, -, rfl⟩ := List.mem_map.mp he
    exact not_hasExpired_iff.mp (not_hasExpired_swept (.inr ⟨rfl, Nat.le_refl _⟩) d)
  case webhooks => rfl
  case online => rfl
  case again =>
    intro t' earlier
    obtain ⟨nothing, same⟩ := cleared_cleared (s := s) earlier
    rw [releaseExpired_online (s := s.cleared t) online, nothing, same]

/-! ### Claims -/

theorem IsQueue.cleared (hq : s.IsQueue now q) (earlier : t ≤ now) :
    (s.cleared t).IsQueue now (q.map fun x => (swept t x.1, x.2)) where
  claimable_iff d i := by
    rw [cleared_row, ← Delivery.isClaimable_iff, List.mem_map]
    constructor
    · rintro ⟨⟨e, j⟩, member, rfl, rfl⟩
      obtain ⟨row, claimable⟩ := (hq.claimable_iff e j).mp member
      rw [row, isClaimable_swept earlier, Delivery.isClaimable_iff]
      exact ⟨rfl, claimable⟩
    · rintro ⟨row, claimable⟩
      obtain ⟨e, he, rfl⟩ := Option.map_eq_some_iff.mp row
      rw [isClaimable_swept earlier, Delivery.isClaimable_iff] at claimable
      exact ⟨(e, i), (hq.claimable_iff e i).mpr ⟨he, claimable⟩, rfl⟩
  ordered := by
    refine List.pairwise_map.mpr (hq.ordered.imp fun {a b} ahead => ?_)
    simpa only [Ahead, swept_order] using ahead

theorem IsQueue.places_nodup (hq : s.IsQueue now q) (n : Nat) : ((q.take n).map (·.2)).Nodup :=
  (hq.nodup.sublist (List.take_sublist n q)).map_on fun _ hx _ hy =>
    hq.eq_of_place (List.mem_of_mem_take hx) (List.mem_of_mem_take hy)

/-- The same rows were claimed in two stores that came from one. Elsewhere the first lacks the claims that had ended
before a time, and that is all in which they differ. -/
structure Alike (s : Store) (t : Instant) (taken : List Nat) (a b : Store) : Prop where
  same : ∀ i, (i ∈ taken ∨ ∀ d till, s.deliveries[i]? = some d → d.claimedUntil = some till → t ≤ till) →
    a.deliveries[i]? = b.deliveries[i]?
  ended : ∀ i, i ∉ taken → ∀ d till, s.deliveries[i]? = some d → d.claimedUntil = some till → till < t →
    a.deliveries[i]? = some d.freed ∧ b.deliveries[i]? = some d
  webhooks : a.webhooks = b.webhooks
  online : a.online = b.online

theorem cleared_marked_row (s : Store) (t : Instant) (places : List Nat) (c : Uuid) (till : Instant) (i : Nat) :
    ((s.cleared t).marked places c till).deliveries[i]? =
      s.deliveries[i]?.map fun d => if i ∈ places then d.claimedAs c till else swept t d := by
  rw [marked_row, cleared_row, Option.map_map]
  refine Option.map_congr fun d _ => ?_
  rw [Function.comp_apply, swept_claimedAs]

theorem marked_alike (s : Store) (t : Instant) (places : List Nat) (c : Uuid) (till : Instant) :
    s.Alike t places ((s.cleared t).marked places c till) (s.marked places c till) := by
  constructor
  case same =>
    intro i untouched
    rw [cleared_marked_row, marked_row]
    refine Option.map_congr fun d row => ?_
    rcases untouched with taken | good
    · rw [if_pos taken, if_pos taken]
    · rw [swept_of_not_ended (not_hasExpired_iff.mpr fun till ends => good d till row ends)]
  case ended =>
    intro i untaken d till row ends before
    rw [cleared_marked_row, marked_row, row, Option.map_some, Option.map_some, if_neg untaken, if_neg untaken,
      swept_of_ended (hasExpired_iff.mpr ⟨till, ends, before⟩)]
    exact ⟨rfl, rfl⟩
  case webhooks => rfl
  case online => rfl

theorem IsQueue.claimDue_cleared (hq : s.IsQueue now q) (earlier : t ≤ now) (online : s.online = true)
    (ends : now.add? lease = some till) (limit : Int) (c : Uuid) :
    (s.cleared t).claimDue now limit c lease = .ok ((q.take limit.toNat).map (fun x => x.1.claimedAs c till),
      (s.cleared t).marked ((q.take limit.toNat).map (·.2)) c till) := by
  have claim := (hq.cleared earlier).claimDue online ends limit c
  simpa only [← List.map_take, List.map_map, Function.comp_def, swept_claimedAs] using claim

theorem claimDue_out_of_range (online : s.online = true) (beyond : now.add? lease = none) (limit : Int) (c : Uuid) :
    s.claimDue now limit c lease = .error .outOfRange := by
  unfold claimDue
  rw [whenOnline_eq _ online, beyond]

/-- The rows of a claim stand in both stores where they stood. -/
theorem IsQueue.claimed_rows (hq : s.IsQueue now q) (t : Instant) (n : Nat) (c : Uuid) (till : Instant) :
    ((q.take n).map (·.2)).Forall₂
      (fun i d => ((s.cleared t).marked ((q.take n).map (·.2)) c till).deliveries[i]? = some d ∧
        (s.marked ((q.take n).map (·.2)) c till).deliveries[i]? = some d)
      ((q.take n).map fun x => x.1.claimedAs c till) := by
  rw [List.forall₂_map_left_iff, List.forall₂_map_right_iff, List.forall₂_same]
  intro x hx
  have here := hq.row (List.mem_of_mem_take hx)
  have taken : x.2 ∈ (q.take n).map (·.2) := List.mem_map_of_mem hx
  rw [cleared_marked_row, marked_row, here, Option.map_some, Option.map_some, if_pos taken, if_pos taken]
  exact ⟨rfl, rfl⟩

/-- The release of the claims that ended before a time makes no difference to a claim at that time or later: it answers
alike, fails alike, and leaves alike what it took. What the release did itself is to free the rows whose claims had
ended, each of which it counts, and nothing else; a store that cannot be reached it leaves as it is. -/
theorem claimDue_after_releaseExpired (s : Store) (earlier : t ≤ now) (limit : Int) (c : Uuid) (lease : Span) :
    ((s.after (.releaseExpired t)).claimDue now limit c lease).map (·.1) =
        (s.claimDue now limit c lease).map (·.1) ∧
      (∀ batch b, s.claimDue now limit c lease = .ok (batch, b) → ∃ taken a,
        (s.after (.releaseExpired t)).claimDue now limit c lease = .ok (batch, a) ∧ taken.Nodup ∧
        taken.Forall₂ (fun i d => a.deliveries[i]? = some d ∧ b.deliveries[i]? = some d) batch ∧
        s.Alike t taken a b) ∧
      (s.online = true → ∃ n, s.releaseExpired t = .ok (n, s.after (.releaseExpired t)) ∧
        s.Released (s.after (.releaseExpired t)) t n) ∧
      (s.online = false → s.releaseExpired t = .error .unavailable ∧ s.after (.releaseExpired t) = s) := by
  cases online : s.online with
  | false =>
    have refused := releaseExpired_offline online t
    have unchanged : s.after (.releaseExpired t) = s := by
      change s.wrote (s.releaseExpired t) = s
      rw [refused]
      rfl
    have unclaimed : s.claimDue now limit c lease = .error .unavailable := whenOnline_offline online _
    rw [unchanged, unclaimed]
    exact ⟨rfl, fun _ _ ok => (by cases ok), fun on => (by cases on), fun _ => ⟨refused, rfl⟩⟩
  | true =>
    have release := releaseExpired_online online t
    have after : s.after (.releaseExpired t) = s.cleared t := by
      change s.wrote (s.releaseExpired t) = s.cleared t
      rw [release]
      rfl
    rw [after]
    refine ⟨?_, ?_, fun _ => ⟨_, release, released online t⟩, fun off => (by cases off)⟩
    · cases ends : now.add? lease with
      | none => rw [claimDue_out_of_range online ends, claimDue_out_of_range (s := s.cleared t) online ends]
      | some till =>
        have hq := isQueue_due s now
        rw [hq.claimDue online ends, hq.claimDue_cleared earlier online ends]
        rfl
    · intro batch b ok
      obtain ⟨-, till, ends, -⟩ := claimDue_ok ok
      have hq := isQueue_due s now
      obtain ⟨rfl, rfl⟩ := Prod.mk.inj (Except.ok.inj (ok.symm.trans (hq.claimDue online ends limit c)))
      exact ⟨_, _, hq.claimDue_cleared earlier online ends limit c, hq.places_nodup _,
        hq.claimed_rows t _ c till, marked_alike s t _ c till⟩

namespace Sample

/-- The second row is under a claim that is over at any time after the first. -/
def lapsed : Store := ⟨[], [row 1 none, (row 3 none).claimedAs (.ofNat 9) .first], true⟩

theorem lapsed_due :
    lapsed.due .last = [(row 1 none, 0), ((row 3 none).claimedAs (.ofNat 9) .first, 1)] := by
  have claimable : lapsed.deliveries.zipIdx.filter (fun x => x.1.isClaimable .last) =
      [(row 1 none, 0), ((row 3 none).claimedAs (.ofNat 9) .first, 1)] := by decide
  rw [due, claimable]
  exact List.mergeSort_of_pairwise (by decide)

end Sample

/-- The first row is claimed with and without the release; the claim on the second is gone only with it. -/
theorem claimDue_after_releaseExpired_lapsed :
    Instant.last ≤ Instant.last ∧
      ∃ a b, (Sample.lapsed.after (.releaseExpired .last)).claimDue .last 1 (.ofNat 7) Sample.moment =
          .ok ([(Sample.row 1 none).claimedAs (.ofNat 7) .last], a) ∧
        Sample.lapsed.claimDue .last 1 (.ofNat 7) Sample.moment =
          .ok ([(Sample.row 1 none).claimedAs (.ofNat 7) .last], b) ∧
        a.deliveries[1]? = some (Sample.row 3 none) ∧
        b.deliveries[1]? = some ((Sample.row 3 none).claimedAs (.ofNat 9) .first) ∧
        Sample.lapsed.releaseExpired .last = .ok (1, Sample.lapsed.after (.releaseExpired .last)) := by
  have earlier : Instant.last ≤ Instant.last := by decide
  have ends : Instant.last.add? Sample.moment = some .last := by decide
  obtain ⟨-, stores, release, -⟩ := claimDue_after_releaseExpired Sample.lapsed earlier 1 (.ofNat 7) Sample.moment
  have claim := (isQueue_due Sample.lapsed .last).claimDue rfl ends 1 (.ofNat 7)
  rw [Sample.lapsed_due] at claim
  obtain ⟨taken, a, released, -, rows, alike⟩ := stores _ _ claim
  obtain ⟨n, call, counted⟩ := release rfl
  -- the only row that is claimed is not the second
  have untaken : 1 ∉ taken := by
    intro second
    obtain _ | ⟨first, _ | _⟩ := rows
    obtain rfl := List.mem_singleton.mp second
    exact absurd first.2 (by decide)
  obtain ⟨freed, claimed⟩ := alike.ended 1 untaken _ .first rfl rfl (by decide)
  refine ⟨earlier, a, _, released, claim, freed, claimed, ?_⟩
  rw [call, counted.count]
  rfl

/-- A store that cannot be reached keeps a claim that is over. -/
theorem offline_claim_unreleased :
    (Sample.lapsed.setOnline false).releaseExpired .last = .error .unavailable ∧
      ∃ d ∈ ((Sample.lapsed.setOnline false).after (.releaseExpired .last)).deliveries,
        ∃ till, d.claimedUntil = some till ∧ till < Instant.last :=
  ⟨releaseExpired_offline rfl _, _, .tail _ (.head _), .first, rfl, by decide⟩

end Store

end Courier
